import PagedReport.Layout
import PagedReport.Proofs.Outcome

/-! # The walk of a layout over its rows

A layout moves a cursor row by row and looks ahead at every row. Over a result set that walk is a
recursion over the list of rows: every row is visited once, in order, together with the row after
it, wherever the cursor stood before.
-/

namespace PagedReport

namespace Cursor

/-- The cursor behind the first `count` rows of a result set. -/
def behind (set : ResultSet) (count : Nat) : Cursor :=
  ⟨set, if count = 0 then .beforeFirst else .onRow (count - 1)⟩

variable {set : ResultSet} {count : Nat}

theorem advance_behind (more : count < set.rows.length) :
    RowCursor.advance (behind set count) = (true, behind set (count + 1)) := by
  change Cursor.advance _ = _
  cases count with
  | zero => simp [Cursor.advance, behind, nextPosition, moveTo, isOnRow, currentIndex?, more]
  | succ index => simp [Cursor.advance, behind, nextPosition, moveTo, isOnRow, currentIndex?, more]

theorem advance_behind_all (all : set.rows.length ≤ count) :
    RowCursor.advance (behind set count) = (false, ⟨set, .afterLast⟩) := by
  change Cursor.advance _ = _
  cases count with
  | zero =>
    have none : ¬0 < set.rows.length := Nat.not_lt.mpr all
    simp [Cursor.advance, behind, nextPosition, moveTo, isOnRow, currentIndex?, none]
  | succ index =>
    have none : ¬index + 1 < set.rows.length := Nat.not_lt.mpr all
    simp [Cursor.advance, behind, nextPosition, moveTo, isOnRow, currentIndex?, none]

theorem retreat_behind : (RowCursor.retreat (behind set (count + 1))).2 = behind set count := by
  change (Cursor.retreat _).2 = _
  cases count with
  | zero => simp [Cursor.retreat, behind, previousPosition, moveTo]
  | succ index => simp [Cursor.retreat, behind, previousPosition, moveTo]

theorem retreat_afterLast :
    (RowCursor.retreat (⟨set, .afterLast⟩ : Cursor)).2 = behind set set.rows.length := by
  change (Cursor.retreat _).2 = _
  by_cases empty : set.rows.length = 0
  · simp [Cursor.retreat, behind, previousPosition, moveTo, empty]
  · simp [Cursor.retreat, behind, previousPosition, moveTo, empty, Nat.pos_of_ne_zero empty]

theorem isFirst_behind : RowCursor.isFirst (behind set (count + 1)) = (count == 0) := by
  change (Position.onRow count == .onRow 0) = _
  cases count with
  | zero => rfl
  | succ index => simp

/-- In a rectangular result set a row can be read as a whole. -/
theorem row_behind (valid : count < set.rows.length) :
    RowCursor.row (behind set (count + 1)) = .ok set.rows[count] := by
  have width : set.rows[count].length = set.columns.length :=
    set.rectangular _ (List.getElem_mem valid)
  apply mapM_eq_ok_iff.mpr
  apply List.forall₂_iff_get.mpr
  constructor
  · rw [List.length_range]
    exact width.symm
  · intro column _ inRow
    simp [RowCursor.value, Cursor.value, behind, currentIndex?, List.getElem?_eq_getElem valid,
      List.getElem?_eq_getElem inRow]

/-- The look ahead finds the next row, if there is one, and moves nothing. -/
theorem peekNext_behind (valid : count < set.rows.length) :
    RowCursor.peekNext (behind set (count + 1)) = (.ok set.rows[count + 1]?, behind set (count + 1)) := by
  by_cases more : count + 1 < set.rows.length
  · simp only [RowCursor.peekNext, advance_behind more, row_behind more, ↓reduceIte,
      retreat_behind, List.getElem?_eq_getElem more]
  · have all : set.rows.length ≤ count + 1 := Nat.le_of_not_lt more
    have last : set.rows.length = count + 1 := by omega
    simp only [RowCursor.peekNext, advance_behind_all all, Bool.false_eq_true, ↓reduceIte,
      retreat_afterLast, List.getElem?_eq_none all]
    rw [last]

end Cursor

namespace LayoutRun

/-- Visits to the rows of a list, each with the one after it. -/
def visitEach (design : Design) : (isFirst : Bool) → List Row → LayoutRun →
    Except ReportError LayoutRun
  | _, [], run => .ok run
  | isFirst, row :: rest, run => do
    visitEach design false rest (← visitRow design isFirst row (.ok rest.head?) run)

theorem visitRows_behind (design : Design) (set : ResultSet) (fuel count : Nat) (run : LayoutRun)
    (within : count ≤ set.rows.length) (enough : set.rows.length - count < fuel) :
    (visitRows design fuel (Cursor.behind set count) run).1 =
      visitEach design (count == 0) (set.rows.drop count) run := by
  induction fuel generalizing count run with
  | zero => omega
  | succ fuel ih =>
    by_cases more : count < set.rows.length
    · have ahead : (set.rows.drop (count + 1)).head? = set.rows[count + 1]? := List.head?_drop
      rw [List.drop_eq_getElem_cons more, visitEach, ahead]
      simp only [visitRows, Cursor.advance_behind more, Cursor.row_behind more,
        Cursor.peekNext_behind more, Cursor.isFirst_behind]
      cases visitRow design (count == 0) set.rows[count] (.ok set.rows[count + 1]?) run with
      | error error => rfl
      | ok next => exact ih (count + 1) next more (by omega)
    · have all : set.rows.length ≤ count := Nat.le_of_not_lt more
      simp only [visitRows, Cursor.advance_behind_all all, List.drop_eq_nil_of_le all, visitEach]

/-- The pages of a layout over a result set depend on its rows alone. -/
theorem layOut_eq_visitEach (design : Design) (cursor : Cursor) :
    (layOut design cursor).1 =
      (visitEach design true cursor.set.rows (start design)).bind (finish design) := by
  have walk := visitRows_behind design cursor.set (cursor.set.rows.length + 1) 0 (start design)
    (Nat.zero_le _) (by omega)
  rw [List.drop_zero] at walk
  exact congrArg (fun result => Except.bind result (finish design)) walk

end LayoutRun

namespace Report

/-- A report is laid out if its columns are those of the result set in number. -/
theorem layOut_new (design : Design) (cursor : Cursor) :
    (Report.new cursor design).layOut.1 =
      if design.columns.length = cursor.set.columns.length then (LayoutRun.layOut design cursor).1
      else .error (.columnCountMismatch design.columns.length cursor.set.columns.length) := by
  have width : RowCursor.columnCount cursor = cursor.set.columns.length := rfl
  simp only [layOut, Report.new, ne_eq, not_true_eq_false, ↓reduceIte, width, ite_not]
  split
  · cases LayoutRun.layOut design cursor with
    | mk result place => cases result <;> rfl
  · rfl

end Report

end PagedReport
