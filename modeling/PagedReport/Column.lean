import PagedReport.Coordinate
import PagedReport.NumberFormat

/-! # Columns

The columns of a report, in the order of the columns of its result set. A break column divides the
report into sections and is not shown itself; every other column is shown, side by side from the
left edge of the table. Their widths are coordinates. What the widths add up to is kept as a coordinate
too, so it wraps around if it is beyond the range of coordinates.
-/

namespace PagedReport

/-- Whether the values of a column take part in grand totals. -/
inductive DataType where
  | numeric
  | other
deriving DecidableEq, Repr

/-- What a column does to the structure of a report. -/
inductive Role where
  /-- It holds data only. -/
  | plain
  /-- Repeated values are collapsed and each run of them gets totals. -/
  | group
  /-- A change of its value starts a new section. -/
  | sectionBreak
deriving DecidableEq, Repr

/-- Where the text of a cell stands in the width of the cell. -/
inductive Alignment where
  | left
  | center
  | right
deriving DecidableEq, Repr

/-- One column of a report. -/
structure Column where
  name : String
  dataType : DataType
  width : Int
  alignment : Alignment
  format : Option NumberFormat
  /-- Whether sections and groups total this column. -/
  subtotal : Bool
  role : Role
deriving DecidableEq, Repr

namespace Column

/-- A column of texts, aligned to the left. -/
def plain (name : String) (width : Int) : Column :=
  ⟨name, .other, width, .left, none, false, .plain⟩

/-- A column of numbers, aligned to the right. -/
def numeric (name : String) (width : Int) : Column :=
  ⟨name, .numeric, width, .right, none, false, .plain⟩

/-- Whether the column divides the report into sections. -/
def isBreak (column : Column) : Bool := column.role == .sectionBreak

/-- Whether the column collapses repeated values. -/
def isGroup (column : Column) : Bool := column.role == .group

/-- Whether the column is shown. -/
def isVisible (column : Column) : Bool := !column.isBreak

/-- Whether the column takes part in grand totals. -/
def isNumeric (column : Column) : Bool := column.dataType == .numeric

end Column

/-- What the widths of the columns that are shown add up to. -/
def shownWidth (columns : List Column) : Int :=
  ((columns.filter Column.isVisible).map Column.width).foldr (· + ·) 0

/-- The width of the table: that of all columns that are shown. -/
def visibleWidth (columns : List Column) : Int := Coordinate.wrap (shownWidth columns)

/-- The distance of a column from the left edge of the table. -/
def xOffset (columns : List Column) (index : Nat) : Int := visibleWidth (columns.take index)

/-- The columns that are shown, each with its index among all columns. -/
def visibleColumns (columns : List Column) : List (Column × Nat) :=
  columns.zipIdx.filter fun (column, _) => column.isVisible

end PagedReport
