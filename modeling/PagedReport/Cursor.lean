import PagedReport.ResultSet.Basic

/-! # Cursors

A layout walks over rows with a cursor, forwards and once, with a look at the row ahead. What it
needs of a cursor is the class `RowCursor`. A `Cursor` walks over a result set; it can stand before
the first row, on a row, or after the last one, and does not move past the two ends.
-/

namespace PagedReport

/-- What a layout needs to walk over rows. Moving forwards and then backwards comes back to the
place where it started, also at the ends. -/
class RowCursor (σ : Type) where
  /-- The number of values in every row. -/
  columnCount : σ → Nat
  /-- A number of rows that is never exceeded on the way from the start. -/
  rowBound : σ → Nat
  /-- The place before the first row. -/
  rewind : σ → σ
  /-- The next place, and whether it is a row. -/
  advance : σ → Bool × σ
  /-- The place before, and whether it is a row. -/
  retreat : σ → Bool × σ
  /-- Whether this is the first row. -/
  isFirst : σ → Bool
  /-- The value of a column in the row at this place. -/
  value : σ → Nat → Except ReportError Value

namespace RowCursor

variable {σ : Type} [RowCursor σ]

/-- What a column of the current row shows without a format; nothing for null. -/
def display? (cursor : σ) (column : Nat) : Except ReportError (Option String) :=
  (value cursor column).map Value.display?

/-- The row at this place. -/
def row (cursor : σ) : Except ReportError Row :=
  (List.range (columnCount cursor)).mapM (value cursor)

/-- The row after this place, if there is one, with the cursor back where it was. -/
def peekNext (cursor : σ) : Except ReportError (Option Row) × σ :=
  let (onRow, next) := advance cursor
  if onRow then
    match row next with
    | .ok found => (.ok (some found), (retreat next).2)
    | .error error => (.error error, next)
  else (.ok none, (retreat next).2)

end RowCursor

/-- A place in a result set. -/
inductive Position where
  | beforeFirst
  | onRow (index : Nat)
  | afterLast
deriving DecidableEq, Repr

/-- A result set with a place in it. -/
structure Cursor where
  set : ResultSet
  position : Position
deriving DecidableEq, Repr

namespace Cursor

/-- A cursor before the first row. -/
def ofSet (set : ResultSet) : Cursor := ⟨set, .beforeFirst⟩

/-- The index of the current row, if the cursor stands on one. -/
def currentIndex? (cursor : Cursor) : Option Nat :=
  match cursor.position with
  | .onRow index => some index
  | _ => none

/-- Whether the cursor stands on a row. -/
def isOnRow (cursor : Cursor) : Bool := cursor.currentIndex?.isSome

/-- The cursor before the first row. -/
def rewind (cursor : Cursor) : Cursor := { cursor with position := .beforeFirst }

/-- The place after a given one, among a number of rows. -/
def nextPosition (count : Nat) : Position → Position
  | .beforeFirst => if 0 < count then .onRow 0 else .afterLast
  | .onRow index => if index + 1 < count then .onRow (index + 1) else .afterLast
  | .afterLast => .afterLast

/-- The place before a given one, among a number of rows. -/
def previousPosition (count : Nat) : Position → Position
  | .afterLast => if 0 < count then .onRow (count - 1) else .beforeFirst
  | .onRow index => if 0 < index then .onRow (index - 1) else .beforeFirst
  | .beforeFirst => .beforeFirst

/-- The cursor at another place of its result set, and whether that is a row. -/
def moveTo (cursor : Cursor) (position : Position) : Bool × Cursor :=
  let moved : Cursor := { cursor with position := position }
  (moved.isOnRow, moved)

/-- One place forwards. -/
def advance (cursor : Cursor) : Bool × Cursor :=
  cursor.moveTo (nextPosition cursor.set.rows.length cursor.position)

/-- One place backwards. -/
def retreat (cursor : Cursor) : Bool × Cursor :=
  cursor.moveTo (previousPosition cursor.set.rows.length cursor.position)

/-- The value of a column in the current row. -/
def value (cursor : Cursor) (column : Nat) : Except ReportError Value :=
  match cursor.currentIndex? with
  | none => .error .noCurrentRow
  | some index =>
    match (cursor.set.rows[index]?).bind (·[column]?) with
    | some found => .ok found
    | none => .error (.columnOutOfRange column cursor.set.columns.length)

instance : RowCursor Cursor where
  columnCount cursor := cursor.set.columns.length
  rowBound cursor := cursor.set.rows.length
  rewind := rewind
  advance := advance
  retreat := retreat
  isFirst cursor := cursor.position == .onRow 0
  value := value

end Cursor

end PagedReport
