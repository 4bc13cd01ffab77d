import PagedReport.Proofs.Walk

/-! # Moves of a cursor

A cursor over a result set is a counter that stops at its two ends. It counts the rows from zero, has
one place before them and one behind them, and goes a place up or down with every move, unless it is
at an end. Everything that a cursor tells follows from its place.
-/

namespace PagedReport

/-- The moves of a cursor. -/
inductive CursorMove where
  | rewind
  | advance
  | retreat
deriving DecidableEq, Repr

namespace CursorMove

/-- Where a counter over a number of rows stands after a move. -/
def count (rows : Nat) (place : Int) : CursorMove → Int
  | rewind => -1
  | advance => min (place + 1) rows
  | retreat => max (place - 1) (-1)

/-- Where a counter stands after some moves, if it starts before the first row. -/
def countAll (rows : Nat) (moves : List CursorMove) : Int := moves.foldl (count rows) (-1)

end CursorMove

namespace Position

variable {rows : Nat} {position : Position}

/-- The place of a counter at a position. -/
def place (rows : Nat) : Position → Int
  | beforeFirst => -1
  | onRow index => index
  | afterLast => rows

/-- A position on a row is that of a row that there is. -/
def Among (rows : Nat) (position : Position) : Prop := ∀ index, position = .onRow index → index < rows

theorem among_beforeFirst : Among rows .beforeFirst := nofun

theorem among_onRow {index : Nat} : Among rows (.onRow index) ↔ index < rows := by
  simp [Among]

theorem among_afterLast : Among rows .afterLast := nofun

/-- The position after one among some rows is one place up. -/
theorem place_next (among : position.Among rows) :
    (Cursor.nextPosition rows position).Among rows ∧
      (Cursor.nextPosition rows position).place rows = min (position.place rows + 1) rows := by
  cases position with
  | beforeFirst =>
    rw [Cursor.nextPosition]
    split
    · next some => exact ⟨among_onRow.mpr some, by simp only [place]; omega⟩
    · exact ⟨among_afterLast, by simp only [place]; omega⟩
  | onRow index =>
    have valid := among_onRow.mp among
    rw [Cursor.nextPosition]
    split
    · next more => exact ⟨among_onRow.mpr more, by simp only [place]; omega⟩
    · exact ⟨among_afterLast, by simp only [place]; omega⟩
  | afterLast => exact ⟨among_afterLast, by simp only [Cursor.nextPosition, place]; omega⟩

/-- The position before one among some rows is one place down. -/
theorem place_previous (among : position.Among rows) :
    (Cursor.previousPosition rows position).Among rows ∧
      (Cursor.previousPosition rows position).place rows = max (position.place rows - 1) (-1) := by
  cases position with
  | beforeFirst => exact ⟨among_beforeFirst, by simp only [Cursor.previousPosition, place]; omega⟩
  | onRow index =>
    have valid := among_onRow.mp among
    rw [Cursor.previousPosition]
    split
    · exact ⟨among_onRow.mpr (by omega), by simp only [place]; omega⟩
    · exact ⟨among_beforeFirst, by simp only [place]; omega⟩
  | afterLast =>
    rw [Cursor.previousPosition]
    split
    · exact ⟨among_onRow.mpr (by omega), by simp only [place]; omega⟩
    · exact ⟨among_beforeFirst, by simp only [place]; omega⟩

/-- A step down after a step up comes back, unless the step up found the end already reached. -/
theorem previous_next (among : position.Among rows) (inside : position ≠ .afterLast) :
    Cursor.previousPosition rows (Cursor.nextPosition rows position) = position := by
  cases position with
  | beforeFirst =>
    rw [Cursor.nextPosition]
    split
    · rfl
    · next none => rw [Cursor.previousPosition, if_neg none]
  | onRow index =>
    have valid := among_onRow.mp among
    rw [Cursor.nextPosition]
    split
    · simp [Cursor.previousPosition]
    · rw [Cursor.previousPosition, if_pos (by omega), show rows - 1 = index by omega]
  | afterLast => exact absurd rfl inside

end Position

namespace Cursor

/-- A cursor stands at a place of a result set. -/
structure StandsAt (set : ResultSet) (place : Int) (cursor : Cursor) : Prop where
  set_eq : cursor.set = set
  among : cursor.position.Among set.rows.length
  place_eq : cursor.position.place set.rows.length = place

/-- A cursor after a move. -/
def move (cursor : Cursor) : CursorMove → Cursor
  | .rewind => RowCursor.rewind cursor
  | .advance => (RowCursor.advance cursor).2
  | .retreat => (RowCursor.retreat cursor).2

/-- A cursor after some moves. -/
def moveAll (cursor : Cursor) (moves : List CursorMove) : Cursor := moves.foldl move cursor

namespace StandsAt

variable {set : ResultSet} {place : Int} {cursor : Cursor}

theorem ofSet (set : ResultSet) : (Cursor.ofSet set).StandsAt set (-1) :=
  ⟨rfl, Position.among_beforeFirst, rfl⟩

/-- A counter stays between its two ends. -/
theorem bounds (stands : cursor.StandsAt set place) : -1 ≤ place ∧ place ≤ set.rows.length := by
  rw [← stands.place_eq]
  cases here : cursor.position with
  | beforeFirst => simp only [Position.place]; omega
  | onRow index =>
    have valid := stands.among index here
    simp only [Position.place]
    omega
  | afterLast => simp only [Position.place]; omega

/-- A cursor moves as its counter does. -/
theorem move (stands : cursor.StandsAt set place) (move : CursorMove) :
    (cursor.move move).StandsAt set (move.count set.rows.length place) := by
  obtain ⟨rfl, among, rfl⟩ := stands
  cases move with
  | rewind => exact ⟨rfl, Position.among_beforeFirst, rfl⟩
  | advance =>
    obtain ⟨next, up⟩ := Position.place_next among
    exact ⟨rfl, next, up⟩
  | retreat =>
    obtain ⟨previous, down⟩ := Position.place_previous among
    exact ⟨rfl, previous, down⟩

/-- So it does with any number of moves. -/
theorem moveAll (stands : cursor.StandsAt set place) (moves : List CursorMove) :
    (cursor.moveAll moves).StandsAt set (moves.foldl (CursorMove.count set.rows.length) place) := by
  induction moves generalizing cursor place with
  | nil => exact stands
  | cons move rest ih => exact ih (stands.move move)

/-- The row of a cursor is counted by its place. -/
theorem currentIndex?_eq_some_iff (stands : cursor.StandsAt set place) {index : Nat} :
    cursor.currentIndex? = some index ↔ index = place ∧ place < set.rows.length := by
  rw [← stands.place_eq, currentIndex?]
  cases here : cursor.position with
  | beforeFirst => simp [Position.place]
  | onRow row =>
    have valid := stands.among row here
    simp only [Position.place, Option.some_inj]
    omega
  | afterLast => simp [Position.place]

/-- A cursor stands on a row exactly between its ends. -/
theorem isOnRow_iff (stands : cursor.StandsAt set place) :
    cursor.isOnRow = true ↔ 0 ≤ place ∧ place < set.rows.length := by
  simp only [isOnRow, Option.isSome_iff_exists, stands.currentIndex?_eq_some_iff]
  constructor
  · rintro ⟨index, rfl, valid⟩
    omega
  · rintro ⟨first, valid⟩
    exact ⟨place.toNat, by omega, valid⟩

theorem isFirst_iff (stands : cursor.StandsAt set place) :
    RowCursor.isFirst cursor = true ↔ place = 0 ∧ 0 < set.rows.length := by
  have row : RowCursor.isFirst cursor = true ↔ cursor.currentIndex? = some 0 := by
    change (cursor.position == .onRow 0) = true ↔ _
    rw [beq_iff_eq, currentIndex?]
    cases cursor.position <;> simp
  rw [row, stands.currentIndex?_eq_some_iff]
  omega

/-- On a row a cursor has the values of that row, and at the two ends it has none. -/
theorem value_eq (stands : cursor.StandsAt set place) (column : Nat) :
    RowCursor.value cursor column =
      if place = -1 ∨ place = set.rows.length then .error .noCurrentRow
      else if column < set.columns.length then
        .ok ((set.rows.getD place.toNat []).getD column .null)
      else .error (.columnOutOfRange column set.columns.length) := by
  change cursor.value column = _
  have bounds := stands.bounds
  cases found : cursor.currentIndex? with
  | none =>
    have off : ¬(0 ≤ place ∧ place < set.rows.length) := by
      rw [← stands.isOnRow_iff, isOnRow, found]
      decide
    rw [value, found, if_pos (by omega)]
  | some index =>
    obtain ⟨rfl, valid⟩ := stands.currentIndex?_eq_some_iff.mp found
    have inSet : index < set.rows.length := by omega
    have width := set.rectangular _ (List.getElem_mem inSet)
    rw [value, found, stands.set_eq, if_neg (by omega)]
    simp only [List.getElem?_eq_getElem inSet, Option.bind_some, Int.toNat_natCast,
      List.getD_eq_getElem?_getD, Option.getD_some]
    by_cases inRow : column < set.columns.length
    · rw [if_pos inRow, List.getElem?_eq_getElem (by omega)]
      rfl
    · rw [if_neg inRow, List.getElem?_eq_none (by omega)]

end StandsAt

/-- A cursor over a result set of `n` rows is a counter that starts at `-1` and stops there and at `n`.
A move up or down tells whether it came to a row. The cursor has the values of the row at its place and
no others, and it never changes the result set. -/
theorem moveAll_counts (set : ResultSet) (moves : List CursorMove) :
    let rows := set.rows.length
    let place := CursorMove.countAll rows moves
    let cursor := (ofSet set).moveAll moves
    cursor.set = set ∧ (-1 ≤ place ∧ place ≤ rows) ∧
    ((RowCursor.advance cursor).1 = true ↔
      0 ≤ CursorMove.advance.count rows place ∧ CursorMove.advance.count rows place < rows) ∧
    ((RowCursor.retreat cursor).1 = true ↔
      0 ≤ CursorMove.retreat.count rows place ∧ CursorMove.retreat.count rows place < rows) ∧
    (∀ index : Nat, cursor.currentIndex? = some index ↔ index = place ∧ place < rows) ∧
    (RowCursor.isFirst cursor = true ↔ place = 0 ∧ 0 < rows) ∧
    ∀ column, RowCursor.value cursor column =
      if place = -1 ∨ place = rows then .error .noCurrentRow
      else if column < set.columns.length then
        .ok ((set.rows.getD place.toNat []).getD column .null)
      else .error (.columnOutOfRange column set.columns.length) := by
  intro rows place cursor
  have stands : cursor.StandsAt set place := (StandsAt.ofSet set).moveAll moves
  refine ⟨stands.set_eq, stands.bounds, ?_, ?_, ?_, ?_, ?_⟩
  · exact (stands.move .advance).isOnRow_iff
  · exact (stands.move .retreat).isOnRow_iff
  · exact fun index => stands.currentIndex?_eq_some_iff
  · exact stands.isFirst_iff
  · exact stands.value_eq

end Cursor

end PagedReport
