import PagedReport.Cell.Json
import PagedReport.Definition.Basic
import PagedReport.Json.Printer

/-! # Definitions in JSON

The JSON forms of report definitions and their readers. A number format is told apart by its `kind`,
which may stand anywhere among its fields; its other fields are read only when all of it has been
found to be JSON. Unknown fields are refused in columns and passed over elsewhere.
-/

namespace PagedReport

open Json (Reader RecordField Fault Input)

namespace DataType

/-- The names of data types. -/
def names : List (String × DataType) := [("numeric", .numeric), ("other", .other)]

/-- The name of a data type. -/
def name : DataType → String
  | .numeric => "numeric"
  | .other => "other"

/-- A data type read from JSON. -/
def read : Reader DataType := Json.readName names

end DataType

namespace Role

/-- The names of roles. -/
def names : List (String × Role) := [("none", .plain), ("group", .group), ("break", .sectionBreak)]

/-- The name of a role. -/
def name : Role → String
  | .plain => "none"
  | .group => "group"
  | .sectionBreak => "break"

/-- A role read from JSON. -/
def read : Reader Role := Json.readName names

end Role

namespace NullSubtotals

/-- The names of the policies. -/
def names : List (String × NullSubtotals) := [("reject", .reject), ("skip", .skip)]

/-- The name of a policy. -/
def name : NullSubtotals → String
  | .reject => "reject"
  | .skip => "skip"

/-- A policy read from JSON. -/
def read : Reader NullSubtotals := Json.readName names

end NullSubtotals

namespace BorderStyle

/-- The name of a style. -/
def name : BorderStyle → String
  | .none => "none"
  | .horizontal => "horizontal"
  | .vertical => "vertical"
  | .inside => "inside"
  | .outside => "outside"
  | .full => "full"

/-- A style read from JSON. -/
def read : Reader BorderStyle := Json.readName names

end BorderStyle

namespace NumberFormat

/-- The kinds of formats. -/
inductive Kind where
  | general
  | number
  | currency
  | percentage
deriving DecidableEq, Repr

/-- The names of the kinds. -/
def Kind.names : List (String × Kind) :=
  [("general", .general), ("number", .number), ("currency", .currency), ("percentage", .percentage)]

/-- A format in JSON. -/
def json : NumberFormat → Json
  | .general => .object [("kind", .string "general")]
  | .number places thousands =>
    .object [("kind", .string "number"), ("decimal_places", .nat places),
      ("use_thousands_separator", .bool thousands)]
  | .currency places symbol =>
    .object [("kind", .string "currency"), ("decimal_places", .nat places), ("symbol", .string symbol)]
  | .percentage places =>
    .object [("kind", .string "percentage"), ("decimal_places", .nat places)]

/-- The kind of a format, read from its name, which must be a string. -/
def readKind : Reader Kind := fun input => do
  let (name, rest) ← Json.readString input
  return (← Json.lookupName Kind.names name, rest)

/-- The value of a field that must not be given twice. -/
def fieldOnce (members : List (String × Json)) (key : String) : Except Fault (Option Json) :=
  match members.filter (·.1 == key) with
  | [] => .ok none
  | [(_, value)] => .ok (some value)
  | _ => .error .mismatch

/-- A number of decimals. -/
def placesOf : Option Json → Except Fault Nat
  | some (.number (.integer n)) =>
    if 0 ≤ n ∧ n ≤ 4294967295 then .ok n.toNat else .error .mismatch
  | _ => .error .mismatch

/-- A truth value that is false unless given. -/
def flagOf : Option Json → Except Fault Bool
  | none => .ok false
  | some (.bool b) => .ok b
  | some _ => .error .mismatch

/-- A currency symbol, the dollar sign unless given. -/
def symbolOf : Option Json → Except Fault String
  | none => .ok "$"
  | some (.string s) => .ok s
  | some _ => .error .mismatch

/-- The format of a kind with the fields in its object. -/
def ofMembers (members : List (String × Json)) : Kind → Except Fault NumberFormat
  | .general => .ok .general
  | .number => do
    let places ← fieldOnce members "decimal_places"
    let thousands ← fieldOnce members "use_thousands_separator"
    return .number (← placesOf places) (← flagOf thousands)
  | .currency => do
    let places ← fieldOnce members "decimal_places"
    let symbol ← fieldOnce members "symbol"
    return .currency (← placesOf places) (← symbolOf symbol)
  | .percentage => do
    let places ← fieldOnce members "decimal_places"
    return .percentage (← placesOf places)

/-- The format of a kind with its fields listed in order. -/
def ofItems (items : List Json) (kind : Kind) : Except Fault NumberFormat :=
  match kind, items with
  | .general, [] => .ok .general
  | .number, [places] => return .number (← placesOf (some places)) false
  | .number, [places, thousands] =>
    return .number (← placesOf (some places)) (← flagOf (some thousands))
  | .currency, [places] => return .currency (← placesOf (some places)) "$"
  | .currency, [places, symbol] =>
    return .currency (← placesOf (some places)) (← symbolOf (some symbol))
  | .percentage, [places] => return .percentage (← placesOf (some places))
  | _, _ => .error .mismatch

/-- The kind and the other fields of a format from a given place in its object on. -/
def readTagged (levels : Nat) :
    (fuel : Nat) → (first : Bool) → Option Kind → List (String × Json) →
      Reader (Kind × List (String × Json))
  | 0, _, _, _, _ => .error .endOfText
  | fuel + 1, first, kind, members, input => do
    match ← Json.nextKey first input with
    | .inr rest =>
      match kind with
      | some kind => .ok ((kind, members), rest)
      | none => .error .mismatch
    | .inl (key, rest) =>
      if key = "kind" then
        if kind.isSome then .error .mismatch
        else do
          let rest ← Json.readColon rest
          let (found, rest) ← readKind rest
          readTagged levels fuel false (some found) members rest
      else do
        let rest ← Json.readColon rest
        let (value, rest) ← Json.readTree none levels rest
        readTagged levels fuel false kind (members ++ [(key, value)]) rest

/-- A format read from JSON: an object with its kind, or an array of the kind and the fields. Its
fields open at most `levels` containers inside each other. -/
def read (levels : Nat) : Reader NumberFormat := fun input =>
  match Json.skipBlanks input with
  | .char '\x7b' :: rest => do
    let ((kind, members), rest) ← readTagged levels (rest.length + 1) true none [] rest
    return (← ofMembers members kind, rest)
  | .char '[' :: rest => do
    match ← Json.nextItem ']' true rest with
    | .inr _ => .error .mismatch
    | .inl rest =>
      let (kind, rest) ← readKind rest
      let (items, rest) ← Json.readItems (Json.readTree none levels) (rest.length + 1) false rest
      return (← ofItems items kind, rest)
  | input => .error (Json.wrongType input)

end NumberFormat

namespace ColumnDefinition

/-- How deep the fields of a format may nest inside a definition, four levels down. -/
def formatLevels : Nat := Json.depthLimit - 4

/-- A column in JSON, without the fields that are left to their defaults. -/
def json (column : ColumnDefinition) : Json :=
  .object ([("name", .string column.name), ("data_type", .string column.dataType.name),
      ("width", .int column.width)] ++
    (match column.alignment with
      | none => []
      | some alignment => [("alignment", .string alignment.name)]) ++
    (match column.format with
      | none => []
      | some format => [("format", format.json)]) ++
    [("subtotal", .bool column.subtotal), ("group_or_break", .string column.role.name)])

/-- The fields of a column. -/
def fields : List (RecordField ColumnDefinition) :=
  [.mandatory "name" Json.readString fun column name => { column with name },
    .optional "data_type" DataType.read fun column dataType => { column with dataType },
    .optional "width" Json.readLength fun column width => { column with width },
    .optional "alignment" (Json.readNullable Alignment.read)
      fun column alignment => { column with alignment },
    .optional "format" (Json.readNullable (NumberFormat.read formatLevels))
      fun column format => { column with format },
    .optional "subtotal" Json.readBool fun column subtotal => { column with subtotal },
    .optional "group_or_break" Role.read fun column role => { column with role }]

/-- A column read from JSON. -/
def read : Reader ColumnDefinition := Json.readRecord fields true { name := "" }

end ColumnDefinition

namespace LayoutOptions

/-- Options in JSON. -/
def json (options : LayoutOptions) : Json :=
  .object [("header_font", options.headerFont.json), ("body_font", options.bodyFont.json),
    ("border_style", .string options.borderStyle.name),
    ("available_width", .int options.availableWidth), ("page_height", .int options.pageHeight),
    ("null_string", .string options.nullText), ("grand_totals", .bool options.grandTotals),
    ("repeat_section_header", .bool options.repeatSectionHeader),
    ("repeat_column_header", .bool options.repeatColumnHeader),
    ("show_groups_as_repeat", .bool options.showGroupsAsRepeat),
    ("null_subtotals", .string options.nullSubtotals.name)]

/-- The fields of options, none of which needs to be present. -/
def fields : List (RecordField LayoutOptions) :=
  [.optional "header_font" Font.read fun options headerFont => { options with headerFont },
    .optional "body_font" Font.read fun options bodyFont => { options with bodyFont },
    .optional "border_style" BorderStyle.read fun options borderStyle => { options with borderStyle },
    .optional "available_width" Json.readLength
      fun options availableWidth => { options with availableWidth },
    .optional "page_height" Json.readLength fun options pageHeight => { options with pageHeight },
    .optional "null_string" Json.readString fun options nullText => { options with nullText },
    .optional "grand_totals" Json.readBool fun options grandTotals => { options with grandTotals },
    .optional "repeat_section_header" Json.readBool
      fun options repeatSectionHeader => { options with repeatSectionHeader },
    .optional "repeat_column_header" Json.readBool
      fun options repeatColumnHeader => { options with repeatColumnHeader },
    .optional "show_groups_as_repeat" Json.readBool
      fun options showGroupsAsRepeat => { options with showGroupsAsRepeat },
    .optional "null_subtotals" NullSubtotals.read
      fun options nullSubtotals => { options with nullSubtotals }]

/-- Options read from JSON. -/
def read : Reader LayoutOptions := Json.readRecord fields false {}

end LayoutOptions

namespace Definition

/-- A definition in JSON. -/
def json (definition : Definition) : Json :=
  .object [("columns", .array (definition.columns.map ColumnDefinition.json)),
    ("layout", definition.layout.json)]

/-- The fields of a definition. -/
def fields : List (RecordField Definition) :=
  [.mandatory "columns" (Json.readArray ColumnDefinition.read)
      fun definition columns => { definition with columns },
    .optional "layout" LayoutOptions.read fun definition layout => { definition with layout }]

/-- A definition read from JSON. -/
def read : Reader Definition := Json.readRecord fields false { columns := [] }

/-- The definition that a document holds, if it is of use. -/
def ofInput (input : Input) : Except ReportError Definition := do
  let definition ← (Json.readDocument read input).mapError .json
  definition.validated

/-- The definition that a text holds, if it is of use. -/
def ofText (text : String) : Except ReportError Definition := ofInput (Text.Symbol.ofString text)

end Definition

end PagedReport
