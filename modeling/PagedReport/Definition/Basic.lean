import PagedReport.Options
import PagedReport.Error
import PagedReport.Text.Blank

/-! # Report definitions

A definition names the columns of a report and its layout options. Its columns are matched with
those of a result set by position; names are compared only to warn.
-/

namespace PagedReport

/-- A column of a definition. Its alignment may be left to its data type. -/
structure ColumnDefinition where
  name : String
  dataType : DataType := .other
  width : Int := 100
  alignment : Option Alignment := none
  format : Option NumberFormat := none
  subtotal : Bool := false
  role : Role := .plain
deriving DecidableEq, Repr

namespace ColumnDefinition

/-- The column of the layout: numbers are aligned to the right and all else to the left, unless the
definition says otherwise. -/
def column (definition : ColumnDefinition) : Column :=
  { name := definition.name
    dataType := definition.dataType
    width := definition.width
    alignment := definition.alignment.getD (if definition.dataType = .numeric then .right else .left)
    format := definition.format
    subtotal := definition.subtotal
    role := definition.role }

end ColumnDefinition

/-- The description of a report. -/
structure Definition where
  columns : List ColumnDefinition
  layout : LayoutOptions := {}
deriving DecidableEq, Repr

/-- A column whose name differs from that of the result set. -/
structure NameWarning where
  defined : String
  found : String
deriving DecidableEq, Repr

/-- The wording of a warning. -/
def NameWarning.message : String := "column name differs from the result set"

namespace Definition

/-- Why the definition is of no use, if it is not: it needs columns, widths of at least zero and a
page height above zero. -/
def inconsistency? (definition : Definition) : Option Inconsistency :=
  if definition.columns.isEmpty then some .noColumns
  else match definition.columns.find? fun column => column.width < 0 with
    | some column => some (.negativeWidth column.name column.width)
    | none =>
      if definition.layout.pageHeight ≤ 0 then
        some (.pageHeightNotPositive definition.layout.pageHeight)
      else none

/-- The definition, if it is of use. -/
def validated (definition : Definition) : Except ReportError Definition :=
  match definition.inconsistency? with
  | none => .ok definition
  | some reason => .error (.inconsistent reason)

/-- The columns of the layout. -/
def layoutColumns (definition : Definition) : List Column :=
  definition.columns.map ColumnDefinition.column

/-- The data types of the columns. -/
def dataTypes (definition : Definition) : List DataType :=
  definition.columns.map ColumnDefinition.dataType

/-- The columns whose names differ from those of a result set in more than the case of ASCII
letters. Another number of columns is an error. -/
def checkNames (definition : Definition) (names : List String) :
    Except ReportError (List NameWarning) :=
  if names.length ≠ definition.columns.length then
    .error (.columnCountMismatch definition.columns.length names.length)
  else .ok ((definition.columns.zip names).filterMap fun (column, name) =>
    if Text.sameIgnoringCase column.name name then none else some ⟨column.name, name⟩)

end Definition

end PagedReport
