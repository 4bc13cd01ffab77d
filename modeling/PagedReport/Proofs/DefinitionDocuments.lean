import PagedReport.Definition.Json
import PagedReport.Proofs.CellDocuments

/-! # Definitions read back

A definition that is written as JSON is read as the same definition. Its number formats have their kind
before their other fields, its columns leave out what they leave to their defaults, and everything else
is written in full. What a column leaves out takes its default again.
-/

namespace PagedReport

open Json (Fills IsCount IsLength Readable Reader Reads RecordField Style reads_array reads_bool
  reads_length reads_name reads_record reads_string)
open Json.Draft (memberContents)
open Text (Symbol)

/-- A field that may be null and is left out if it is: what it is given is stored. -/
theorem fills_nullable {σ α : Type} {key : String} {read : Reader α} {draft : α → Json.Draft}
    {store : σ → Option α → σ} {given : Option α} {fields : List (RecordField σ)}
    {members : List (String × Json.Draft)} {record last : σ}
    (reads : ∀ a ∈ given, Reads (Json.readNullable read) (draft a) (some a))
    (unset : store record none = record) (others : Fills fields members (store record given) last) :
    Fills (.optional key (Json.readNullable read) store :: fields)
      ((given.map fun a => (key, draft a)).toList ++ members) record last := by
  cases given with
  | none =>
    rw [unset] at others
    exact .absent rfl others
  | some a => exact .given (reads a rfl).storing others

theorem DataType.reads (dataType : DataType) :
    Reads DataType.read (Json.string dataType.name).draft dataType := by
  apply reads_name
  cases dataType <;> rfl

theorem Role.reads (role : Role) : Reads Role.read (Json.string role.name).draft role := by
  apply reads_name
  cases role <;> rfl

theorem NullSubtotals.reads (policy : NullSubtotals) :
    Reads NullSubtotals.read (Json.string policy.name).draft policy := by
  apply reads_name
  cases policy <;> rfl

theorem BorderStyle.reads (style : BorderStyle) :
    Reads BorderStyle.read (Json.string style.name).draft style := by
  apply reads_name
  cases style <;> rfl

namespace NumberFormat

/-- The decimals are a number of thirty-two bits. -/
inductive Fits : NumberFormat → Prop
  | general : Fits .general
  | number {places : Nat} (range : IsCount places) (thousands : Bool) : Fits (.number places thousands)
  | currency {places : Nat} (range : IsCount places) (symbol : String) : Fits (.currency places symbol)
  | percentage {places : Nat} (range : IsCount places) : Fits (.percentage places)

/-- The kind of a format. -/
def kind : NumberFormat → Kind
  | .general => .general
  | .number _ _ => .number
  | .currency _ _ => .currency
  | .percentage _ => .percentage

/-- The name of a kind. -/
def Kind.name : Kind → String
  | .general => "general"
  | .number => "number"
  | .currency => "currency"
  | .percentage => "percentage"

/-- The fields of a format beside its kind. -/
def members : NumberFormat → List (String × Json)
  | .general => []
  | .number places thousands =>
    [("decimal_places", .nat places), ("use_thousands_separator", .bool thousands)]
  | .currency places symbol => [("decimal_places", .nat places), ("symbol", .string symbol)]
  | .percentage places => [("decimal_places", .nat places)]

variable {format : NumberFormat}

/-- The kind comes first. -/
theorem json_eq (format : NumberFormat) :
    format.json = .object (("kind", .string format.kind.name) :: format.members) := by
  cases format <;> rfl

theorem placesOf_nat {places : Nat} (range : IsCount places) :
    placesOf (some (.nat places)) = .ok places := by
  have bounds : (0 : Int) ≤ places ∧ (places : Int) ≤ 4294967295 :=
    ⟨Int.natCast_nonneg places, Int.ofNat_le.mpr range⟩
  rw [Json.nat, Json.int, placesOf, if_pos bounds, Int.toNat_natCast]

/-- The fields make up the format. -/
theorem Fits.ofMembers_members (fits : format.Fits) : ofMembers format.members format.kind = .ok format := by
  cases fits with
  | general => rfl
  | number range thousands =>
    have places := placesOf_nat range
    simp [members, kind, ofMembers, fieldOnce, places, flagOf]
  | currency range symbol =>
    have places := placesOf_nat range
    simp [members, kind, ofMembers, fieldOnce, places, symbolOf]
  | percentage range =>
    have places := placesOf_nat range
    simp [members, kind, ofMembers, fieldOnce, places]

/-- The fields are scalars, and none of them is another kind. -/
theorem Fits.scalar (fits : format.Fits) (levels : Nat) :
    ∀ entry ∈ format.members, entry.1 ≠ "kind" ∧ Readable levels entry.2 := by
  cases fits with
  | general => simp [members]
  | number range thousands => simpa [members] using ⟨.int range.isWord, .bool thousands⟩
  | currency range symbol => simpa [members] using ⟨.int range.isWord, .string symbol⟩
  | percentage range => simpa [members] using .int range.isWord

/-- Behind the kind the fields are gathered. -/
private theorem readTagged_members {levels : Nat} (values : List (String × Json))
    (scalar : ∀ entry ∈ values, entry.1 ≠ "kind" ∧ Readable levels entry.2) (kind : Kind)
    (gathered : List (String × Json)) (style : Style) (level fuel : Nat) (enough : values.length < fuel)
    (first : Bool) (rest : Json.Input) :
    readTagged levels fuel first (some kind) gathered (Symbol.ofChars (memberContents style level first
        (values.map fun entry => (entry.1, entry.2.draft))) ++ rest) =
      .ok ((kind, gathered ++ values), rest) := by
  induction values generalizing gathered fuel first with
  | nil =>
    obtain ⟨fuel, rfl⟩ := Nat.exists_eq_succ_of_ne_zero (Nat.ne_zero_of_lt enough)
    rw [readTagged, List.map_nil, Json.nextKey_nil, ok_bind, List.append_nil]
  | cons entry values ih =>
    obtain ⟨fuel, rfl⟩ := Nat.exists_eq_succ_of_ne_zero (Nat.ne_zero_of_lt enough)
    obtain ⟨⟨other, readable⟩, scalar⟩ := List.forall_mem_cons.mp scalar
    have others := ih scalar (gathered ++ [entry]) fuel (Nat.lt_of_succ_lt_succ enough) false
    rw [readTagged, List.map_cons, Json.nextKey_cons, ok_bind]
    simp only [other, ↓reduceIte, Json.readColon_afterKey, ok_bind,
      (readable.reads none).read_afterColon, others, List.append_assoc, List.cons_append, List.nil_append]

theorem Kind.reads (kind : Kind) : Reads readKind (Json.string kind.name).draft kind := by
  have name := reads_string kind.name
  have known : Json.lookupName names kind.name = .ok kind := by
    cases kind <;> rfl
  refine ⟨name.opens, fun style level input rest here ends => ?_⟩
  rw [readKind, name.reads style level input rest here ends, ok_bind]
  simp only [known, ok_bind, pure_eq_ok]

/-- A format begins with a brace. -/
theorem starts_json (format : NumberFormat) : format.json.draft.Starts '\x7b' := by
  intro style level
  rw [json_eq, Json.draft_object]
  exact ⟨_, rfl⟩

/-- The kind and the fields are read from the object of a format. -/
private theorem Fits.readTagged_json (fits : format.Fits) (levels : Nat) (style : Style)
    (level fuel : Nat) (enough : format.members.length < fuel) (rest : Json.Input) :
    readTagged levels (fuel + 1) true none [] (Symbol.ofChars (memberContents style level true
        ((("kind", .string format.kind.name) :: format.members).map fun entry =>
          (entry.1, entry.2.draft))) ++ rest) =
      .ok ((format.kind, format.members), rest) := by
  have others := readTagged_members format.members (fits.scalar levels) format.kind [] style level fuel
    enough false rest
  rw [readTagged, List.map_cons, Json.nextKey_cons, ok_bind]
  simp only [↓reduceIte, Option.isSome_none, Bool.false_eq_true, Json.readColon_afterKey, ok_bind,
    (Kind.reads format.kind).read_afterColon, others, List.nil_append]

theorem Fits.reads (fits : format.Fits) (levels : Nat) :
    Reads (NumberFormat.read levels) format.json.draft format := by
  refine ⟨⟨'\x7b', format.starts_json, rfl, by decide⟩, fun style level input rest here _ => ?_⟩
  rw [json_eq, Json.draft_object, Json.Draft.object, Symbol.ofChars_cons, List.cons_append] at here
  rw [NumberFormat.read, here]
  -- The kind is a member as well, so it takes one unit of the fuel before the fields do.
  change (readTagged _ _ _ _ _ _ >>= _) = _
  rw [fits.readTagged_json levels style level, ok_bind]
  · simp only [fits.ofMembers_members, ok_bind, pure_eq_ok]
  · have fuel := Json.length_lt_memberContents style level rest
      ((("kind", .string format.kind.name) :: format.members).map fun entry => (entry.1, entry.2.draft))
    rw [List.length_map, List.length_cons] at fuel
    exact Nat.lt_of_succ_lt_succ fuel

end NumberFormat

namespace ColumnDefinition

/-- All numbers of a column are of thirty-two bits. -/
structure Fits (column : ColumnDefinition) : Prop where
  width : IsLength column.width
  format : ∀ format ∈ column.format, format.Fits

variable {column : ColumnDefinition}

/-- What is left to its default is left out. -/
private theorem draft_json (column : ColumnDefinition) :
    column.json.draft = .object (
      [("name", (Json.string column.name).draft),
        ("data_type", (Json.string column.dataType.name).draft),
        ("width", (Json.int column.width).draft)] ++
      ((column.alignment.map fun alignment => ("alignment", (Json.string alignment.name).draft)).toList ++
      ((column.format.map fun format => ("format", format.json.draft)).toList ++
      [("subtotal", (Json.bool column.subtotal).draft),
        ("group_or_break", (Json.string column.role.name).draft)]))) := by
  rw [json, Json.draft_object]
  cases column.alignment <;> cases column.format <;> rfl

theorem Fits.reads (fits : column.Fits) : Reads ColumnDefinition.read column.json.draft column := by
  have alignments : ∀ alignment ∈ column.alignment, Reads (Json.readNullable Alignment.read)
      (Json.string alignment.name).draft (some alignment) := by
    intro alignment _
    apply alignment.reads.nullable
    · exact fun _ _ => ⟨_, rfl⟩
    · decide
  have formats : ∀ format ∈ column.format, Reads (Json.readNullable (NumberFormat.read formatLevels))
      format.json.draft (some format) := by
    intro format member
    apply ((fits.format format member).reads formatLevels).nullable format.starts_json
    decide
  rw [draft_json]
  apply reads_record (by decide)
  apply Fills.given (reads_string column.name).storing
  apply Fills.given column.dataType.reads.storing
  apply Fills.given (reads_length fits.width).storing
  apply fills_nullable alignments rfl
  apply fills_nullable formats rfl
  apply Fills.given (reads_bool column.subtotal).storing
  apply Fills.given column.role.reads.storing
  exact .nil column

end ColumnDefinition

namespace LayoutOptions

/-- All numbers of the options are of thirty-two bits. -/
structure Fits (options : LayoutOptions) : Prop where
  headerFont : options.headerFont.Fits
  bodyFont : options.bodyFont.Fits
  availableWidth : IsLength options.availableWidth
  pageHeight : IsLength options.pageHeight

variable {options : LayoutOptions}

theorem Fits.reads (fits : options.Fits) : Reads LayoutOptions.read options.json.draft options := by
  rw [json, Json.draft_object]
  apply reads_record (by decide)
  apply Fills.given fits.headerFont.reads.storing
  apply Fills.given fits.bodyFont.reads.storing
  apply Fills.given options.borderStyle.reads.storing
  apply Fills.given (reads_length fits.availableWidth).storing
  apply Fills.given (reads_length fits.pageHeight).storing
  apply Fills.given (reads_string options.nullText).storing
  apply Fills.given (reads_bool options.grandTotals).storing
  apply Fills.given (reads_bool options.repeatSectionHeader).storing
  apply Fills.given (reads_bool options.repeatColumnHeader).storing
  apply Fills.given (reads_bool options.showGroupsAsRepeat).storing
  apply Fills.given options.nullSubtotals.reads.storing
  exact .nil options

end LayoutOptions

namespace Definition

/-- All numbers of a definition are of thirty-two bits. -/
structure Fits (definition : Definition) : Prop where
  columns : ∀ column ∈ definition.columns, column.Fits
  layout : definition.layout.Fits

variable {definition : Definition}

theorem Fits.reads (fits : definition.Fits) : Reads Definition.read definition.json.draft definition := by
  have columns : Reads (Json.readArray ColumnDefinition.read)
      (Json.array (definition.columns.map ColumnDefinition.json)).draft definition.columns := by
    rw [Json.draft_array, List.map_map]
    apply reads_array
    rw [List.forall₂_map_left_iff, List.forall₂_same]
    exact fun column member => (fits.columns column member).reads
  rw [json, Json.draft_object]
  apply reads_record (by decide)
  apply Fills.given columns.storing
  apply Fills.given fits.layout.reads.storing
  exact .nil definition

/-- A definition is read from its draft in every style. -/
private theorem ofText_draft (fits : definition.Fits) (valid : definition.validated = .ok definition)
    (style : Style) :
    Definition.ofText (String.ofList (definition.json.draft style 0)) = .ok definition := by
  rw [ofText, ofInput, Symbol.ofString, String.toList_ofList, fits.reads.readDocument style 0]
  exact valid

/-- A definition that is of use is read back from its JSON, without blanks or spread over lines. -/
theorem ofText_json (fits : definition.Fits) (valid : definition.validated = .ok definition) :
    Definition.ofText definition.json.compact = .ok definition ∧
      Definition.ofText definition.json.indented = .ok definition := by
  rw [Json.compact_eq_draft, Json.indented_eq_draft]
  exact ⟨ofText_draft fits valid .compact, ofText_draft fits valid .indented⟩

/-- A column without defaults, with texts that need a backslash. -/
def escapedColumn : ColumnDefinition where
  name := "\u0001"
  dataType := .numeric
  width := 0
  alignment := some .center
  format := some (.currency 2 "\\")
  subtotal := true
  role := .group

/-- This column behind one with defaults. -/
def escapedDefinition : Definition where
  columns := [{ name := "a\"b" }, escapedColumn]
  layout := { nullText := "\n", grandTotals := true }

/-- Such a definition is read back. -/
theorem ofText_json_escapedDefinition :
    escapedDefinition.validated = .ok escapedDefinition ∧
      Definition.ofText escapedDefinition.json.compact = .ok escapedDefinition ∧
      Definition.ofText escapedDefinition.json.indented = .ok escapedDefinition := by
  have plain : ColumnDefinition.Fits { name := "a\"b" } := ⟨by decide, by simp⟩
  have escaped : escapedColumn.Fits :=
    ⟨by decide, by simpa [escapedColumn] using .currency (by decide) "\\"⟩
  have layout : escapedDefinition.layout.Fits := ⟨⟨by decide⟩, ⟨by decide⟩, by decide, by decide⟩
  have fits : escapedDefinition.Fits := ⟨by simpa [escapedDefinition] using ⟨plain, escaped⟩, layout⟩
  have valid : escapedDefinition.validated = .ok escapedDefinition := rfl
  exact ⟨valid, ofText_json fits valid⟩

end Definition

end PagedReport
