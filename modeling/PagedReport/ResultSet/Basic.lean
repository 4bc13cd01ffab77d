import PagedReport.Error

/-! # Result sets

A result set is a table of values with named columns. Every row has a value for every column, which
is checked once when the set is built and kept in its type.
-/

namespace PagedReport

/-- A rectangular table of values with named columns. -/
structure ResultSet where
  columns : List String
  rows : List Row
  rectangular : ∀ row ∈ rows, row.length = columns.length
deriving DecidableEq, Repr

namespace ResultSet

/-- What to say of the first row that has not `width` values, counting rows from `number`. -/
def unevenRow (width : Nat) : (number : Nat) → List Row → Inconsistency
  | number, [] => .rowLength number width width
  | number, row :: rest =>
    if row.length ≠ width then .rowLength number row.length width
    else unevenRow width (number + 1) rest

/-- The result set with these columns and rows, if each row has one value for each column. -/
def ofRows (columns : List String) (rows : List Row) : Except ReportError ResultSet :=
  if even : ∀ row ∈ rows, row.length = columns.length then .ok ⟨columns, rows, even⟩
  else .error (.inconsistent (unevenRow columns.length 1 rows))

end ResultSet

end PagedReport
