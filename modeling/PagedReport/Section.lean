import PagedReport.Column
import PagedReport.Error
import PagedReport.Text.Blank

/-! # Sections

A section is a run of rows that agree in every break column. The key of a row keeps its values in
the break columns and null elsewhere, so two rows share a section exactly when their keys agree.
-/

namespace PagedReport

/-- What a row has in the break columns, with null for every other column. -/
structure SectionKey where
  values : List Value
deriving DecidableEq, Repr

namespace SectionKey

/-- The key of a row. -/
def ofRow (columns : List Column) (row : Row) : SectionKey :=
  ⟨List.zipWith (fun column value => if column.isBreak then value else .null) columns row⟩

/-- Whether two keys name the same section. -/
def agrees (a b : SectionKey) : Bool := a.values.isEqv b.values Value.agrees

/-- Whether the key holds nothing but nulls. -/
def isAllNull (key : SectionKey) : Bool := key.values.all Value.isNull

/-- The names of the columns in which the key has a value, each with that value. -/
def entries (key : SectionKey) (columns : List Column) : List (String × String) :=
  (key.values.zip columns).filterMap fun (value, column) =>
    value.display?.map fun shown => (column.name, shown)

/-- The text of a section header. -/
def headerText (key : SectionKey) (columns : List Column) : String :=
  ", ".intercalate ((key.entries columns).map fun (name, shown) => name ++ ": " ++ shown)

/-- The label of the totals of a section. -/
def totalsLabel (key : SectionKey) (columns : List Column) : String :=
  ";".intercalate ((key.entries columns).map fun (name, shown) => " " ++ name ++ ": " ++ shown)

end SectionKey

/-- Whether a key opens a new section after a previous one; the first key always does. -/
def startsSection (previous : Option SectionKey) (key : SectionKey) : Bool :=
  match previous with
  | none => true
  | some earlier => !earlier.agrees key

/-- The section that is open while rows are visited one by one. -/
structure SectionDetector where
  current : Option SectionKey
deriving DecidableEq, Repr

namespace SectionDetector

/-- No section is open yet. -/
def empty : SectionDetector := ⟨none⟩

/-- Takes up the key of the next row and tells whether it opens a section. Only a row that is known
as the first one may come while no section is open. -/
def observe (detector : SectionDetector) (number : Nat) (isFirst : Bool) (key : SectionKey) :
    Except ReportError (Bool × SectionDetector) :=
  if !isFirst && detector.current.isNone then .error (.undefinedSectionKey number)
  else if isFirst || startsSection detector.current key then .ok (true, ⟨some key⟩)
  else .ok (false, detector)

end SectionDetector

end PagedReport
