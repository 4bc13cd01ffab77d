import PagedReport.Proofs.SinceReset

/-! # Replies of running totals

Running totals are called in any order: with rows, some of which are refused, and for the lines of the
section, of a group column and of the whole report. What a line says depends on the earlier calls only
through the rows that were accepted since that line was last taken. A refused row is as good as never
offered, whichever of its values was at fault and however many sums it would have gone into.
-/

namespace PagedReport

/-- What the totals can be called for. -/
inductive TotalsCall where
  | accumulate (number : Nat) (row : Row)
  | flushSection (label : String)
  | flushGroup (column : Nat) (label : String)
  | flushGrand
deriving DecidableEq, Repr

/-- What the totals reply. -/
inductive TotalsReply where
  /-- The row was added. -/
  | accepted
  /-- The row was not added. -/
  | refused (error : ReportError)
  | line (line : TotalsLine)
  /-- There are no totals for this column, which is no group column. -/
  | noGroup
deriving DecidableEq, Repr

/-- What a call with this reply did to the totals. A row that was refused did nothing, and the line of
the whole report does nothing either. -/
def TotalsCall.step? : TotalsCall → TotalsReply → Option TotalsStep
  | .accumulate number row, .accepted => some (.accumulate number row)
  | .accumulate _ _, _ => none
  | .flushSection label, _ => some (.flushSection label)
  | .flushGroup column label, _ => some (.flushGroup column label)
  | .flushGrand, _ => none

/-- Sums are added up from rows, one amount after the other, starting from zero. Columns that have no
totals of this kind have no sum. -/
structure Sums.AddsUp (level : Level) (columns : List Column) (rows : List Row) (sums : Sums) : Prop where
  active : ∀ (index : Nat) (column : Column), columns[index]? = some column →
    level.accumulates column = true → ∃ sum, sums[index]? = some (some sum) ∧
      (rows.filterMap (level.amount? index)).foldlM Decimal.add? .zero = some sum
  idle : ∀ (index : Nat) (column : Column), columns[index]? = some column →
    level.accumulates column = false → sums[index]? = some none
  length : sums.length = columns.length

theorem Sums.IsSum.addsUp {level : Level} {columns : List Column} {rows : List Row} {sums : Sums}
    (sum : IsSum level columns rows sums) : sums.AddsUp level columns rows where
  active index column there on := by
    obtain ⟨total, held⟩ := sum.exists_sum there on
    refine ⟨total, Option.join_eq_some_iff.mp held, ?_⟩
    rw [sum.eq_sums, level.sum?_sums there on] at held
    exact held
  idle index column there off := by
    rw [sum.eq_sums]
    simp [Level.sums, there, off]
  length := by
    rw [sum.eq_sums, Level.sums, List.length_mapIdx]

namespace TotalsTracker

/-- The reply to a call, and the totals after it. A row that is refused leaves them as they are. -/
def call (tracker : TotalsTracker) : TotalsCall → TotalsReply × TotalsTracker
  | .accumulate number row =>
    match tracker.accumulate number row with
    | .ok added => (.accepted, added)
    | .error error => (.refused error, tracker)
  | .flushSection label => (.line (tracker.flushSection label).1, (tracker.flushSection label).2)
  | .flushGroup column label =>
    match tracker.flushGroup column label with
    | some (line, flushed) => (.line line, flushed)
    | none => (.noGroup, tracker)
  | .flushGrand => (.line tracker.flushGrand, tracker)

/-- The totals after some calls. -/
def afterCalls (tracker : TotalsTracker) (calls : List TotalsCall) : TotalsTracker :=
  calls.foldl (fun tracker call => (tracker.call call).2) tracker

/-- What some calls did to the totals. -/
def history (tracker : TotalsTracker) : List TotalsCall → List TotalsStep
  | [] => []
  | call :: calls =>
    (call.step? (tracker.call call).1).toList ++ (tracker.call call).2.history calls

/-- The reply of the totals of some columns to a call after others. -/
def reply (columns : List Column) (policy : NullSubtotals) (before : List TotalsCall)
    (call : TotalsCall) : TotalsReply :=
  (((start columns policy).afterCalls before).call call).1

variable {columns : List Column} {policy : NullSubtotals} {tracker : TotalsTracker}
variable {steps : List TotalsStep}

theorem afterCalls_append (tracker : TotalsTracker) (first second : List TotalsCall) :
    tracker.afterCalls (first ++ second) = (tracker.afterCalls first).afterCalls second :=
  List.foldl_append

/-- A row that is refused leaves the totals as they are. -/
theorem call_of_refused {number : Nat} {row : Row} {error : ReportError}
    (refused : (tracker.call (.accumulate number row)).1 = .refused error) :
    (tracker.call (.accumulate number row)).2 = tracker := by
  rw [call] at refused ⊢
  cases added : tracker.accumulate number row with
  | ok next => simp [added] at refused
  | error cause => rfl

/-- The sums of a group column are those of its open run. -/
theorem Tracks.isSum_of_group {all current : List Row} {runs : Nat → List Row}
    (tracks : tracker.Tracks columns all current runs) {column : Nat}
    (group : column ∈ groupIndexes columns) :
    Sums.IsSum .subtotal columns (runs column) (Level.subtotal.sums columns (runs column)) := by
  rw [← tracks.indexes] at group
  obtain ⟨entry, member, rfl⟩ := List.mem_map.mp group
  have sum := tracks.groups entry member
  rw [← sum.eq_sums]
  exact sum

/-- Every call leaves the sums of the accepted rows since the last reset. -/
theorem TracksSteps.call (tracked : tracker.TracksSteps columns policy steps) (call : TotalsCall) :
    (tracker.call call).2.TracksSteps columns policy
      (steps ++ (call.step? (tracker.call call).1).toList) := by
  -- A call that does nothing adds no step, and then the totals are those from before it.
  cases call with
  | accumulate number row =>
    cases run : tracker.accumulate number row with
    | ok added =>
      have step : tracker.step (.accumulate number row) = .ok added := run
      simpa [TotalsTracker.call, run, TotalsCall.step?] using tracked.step step
    | error error => simpa [TotalsTracker.call, run, TotalsCall.step?] using tracked
  | flushSection label =>
    have step : tracker.step (.flushSection label) = .ok (tracker.flushSection label).2 := rfl
    exact tracked.step step
  | flushGroup column label =>
    have flushed := tracked.flushGroup column label
    cases found : tracker.flushGroup column label with
    | none => simpa [TotalsTracker.call, found, TotalsCall.step?] using flushed
    | some result => simpa [TotalsTracker.call, found, TotalsCall.step?] using flushed
  | flushGrand => simpa [TotalsTracker.call, TotalsCall.step?] using tracked

/-- So do any number of calls. -/
theorem TracksSteps.afterCalls (tracked : tracker.TracksSteps columns policy steps)
    (calls : List TotalsCall) :
    (tracker.afterCalls calls).TracksSteps columns policy (steps ++ tracker.history calls) := by
  induction calls generalizing tracker steps with
  | nil => simpa [history, TotalsTracker.afterCalls] using tracked
  | cons call calls ih =>
    have rest := ih (tracked.call call)
    rw [List.append_assoc] at rest
    exact rest

/-- The sums of a tracker are those of what has been done to it since the start. -/
theorem tracksSteps_afterCalls (columns : List Column) (policy : NullSubtotals)
    (before : List TotalsCall) :
    ((start columns policy).afterCalls before).TracksSteps columns policy
      ((start columns policy).history before) := by
  simpa using (TracksSteps.start columns policy).afterCalls before

/-- The replies of totals match their history. The line of the section has, for each column with
subtotals, the amounts of the rows accepted since that line was last taken, added up one after the other;
the line of a group column has those since its own line was last taken; the line of the report has those
of all accepted rows, with nulls as zeros. Columns that do not accumulate have no sum in any line. After
a refused row every reply is as if the row had not been offered. -/
theorem reply_matches_history (columns : List Column) (policy : NullSubtotals)
    (before : List TotalsCall) :
    let steps := (start columns policy).history before
    (∀ label, ∃ sums, reply columns policy before (.flushSection label) = .line ⟨label, 0, sums⟩ ∧
      sums.AddsUp .subtotal columns (Scope.openSection.rows steps)) ∧
    (∀ column label,
      if column ∈ groupIndexes columns then
        ∃ sums, reply columns policy before (.flushGroup column label) = .line ⟨label, column, sums⟩ ∧
          sums.AddsUp .subtotal columns ((Scope.openGroup column).rows steps)
      else reply columns policy before (.flushGroup column label) = .noGroup) ∧
    (∃ sums, reply columns policy before .flushGrand = .line ⟨"", 0, sums⟩ ∧
      sums.AddsUp .grand columns (Scope.report.rows steps)) ∧
    ∀ number row error, reply columns policy before (.accumulate number row) = .refused error →
      ∀ after call, reply columns policy (before ++ .accumulate number row :: after) call =
        reply columns policy (before ++ after) call := by
  have tracks := (tracksSteps_afterCalls columns policy before).tracks
  refine ⟨?_, ?_, ?_, ?_⟩
  · intro label
    exact ⟨_, rfl, tracks.current.addsUp⟩
  · intro column label
    split
    · next group =>
      obtain ⟨flushed, found, _⟩ := tracks.flushGroup group label
      refine ⟨_, ?_, (tracks.isSum_of_group group).addsUp⟩
      rw [reply, call, found]
    · next other => rw [reply, call, tracks.flushGroup_eq_none other label]
  · exact ⟨_, rfl, tracks.grand.addsUp⟩
  · intro number row error refused after call
    have same := call_of_refused refused
    rw [reply, reply, afterCalls_append, afterCalls_append, afterCalls, List.foldl_cons, same]
    rfl

/-- A null is refused between two rows, and the line of the report is as if it had not come. -/
theorem reply_matches_history_null :
    let one := TotalsCall.accumulate 1 [.number (.ofInt 1)]
    let null := TotalsCall.accumulate 2 [.null]
    let two := TotalsCall.accumulate 3 [.number (.ofInt 2)]
    reply [amountColumn] .reject [one] null = .refused (.nullSubtotal "Amount" 2) ∧
      reply [amountColumn] .reject [one, null, .flushSection "", two] .flushGrand =
        reply [amountColumn] .reject [one, .flushSection "", two] .flushGrand := by
  intro one null two
  have refused : reply [amountColumn] .reject [one] null = .refused (.nullSubtotal "Amount" 2) := by
    decide +kernel
  obtain ⟨_, _, _, unoffered⟩ := reply_matches_history [amountColumn] .reject [one]
  exact ⟨refused, unoffered 2 [.null] _ refused [.flushSection "", two] .flushGrand⟩

end TotalsTracker

end PagedReport
