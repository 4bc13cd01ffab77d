import Mathlib.Data.List.DropRight
import PagedReport.Proofs.Decimal.Rounding
import PagedReport.Proofs.Overflow

/-! # Sums since the last reset

Whatever is done with totals, in whatever order, every sum that is held has been added up from the
rows that came since it was last reset, one after the other. It is exact as long as every sum on the
way is a decimal. An amount whose sum needs more digits than that is neither exact nor refused, but
rounded: only a sum beyond the range is refused.
-/

namespace PagedReport

/-- What can be done with totals. -/
inductive TotalsStep where
  | accumulate (number : Nat) (row : Row)
  | flushSection (label : String)
  | flushGroup (column : Nat) (label : String)
deriving DecidableEq, Repr

namespace TotalsStep

/-- The row that a step adds. -/
def row? : TotalsStep → Option Row
  | accumulate _ row => some row
  | _ => none

/-- Whether a step takes the sums of a scope back to zero. -/
def resets : TotalsStep → Scope → Bool
  | flushSection _, .openSection => true
  | flushGroup column _, .openGroup other => other == column
  | _, _ => false

end TotalsStep

/-- The rows of a scope: those that have been added since its sums were last reset. -/
def Scope.rows (scope : Scope) (steps : List TotalsStep) : List Row :=
  (steps.rtakeWhile fun step => !step.resets scope).filterMap TotalsStep.row?

namespace TotalsTracker

/-- The totals after a step. The line of totals that it may give is left out. -/
def step (tracker : TotalsTracker) : TotalsStep → Except ReportError TotalsTracker
  | .accumulate number row => tracker.accumulate number row
  | .flushSection label => .ok (tracker.flushSection label).2
  | .flushGroup column label => .ok (((tracker.flushGroup column label).map Prod.snd).getD tracker)

/-- The totals after some steps, all of which succeed. -/
def run (tracker : TotalsTracker) (steps : List TotalsStep) : Except ReportError TotalsTracker :=
  steps.foldlM step tracker

end TotalsTracker

namespace Scope

@[simp] theorem rows_nil (scope : Scope) : scope.rows [] = [] := by
  simp [rows]

/-- A step adds its row to every scope that it does not reset. -/
theorem rows_concat (scope : Scope) (steps : List TotalsStep) (step : TotalsStep) :
    scope.rows (steps ++ [step]) =
      if step.resets scope then [] else scope.rows steps ++ step.row?.toList := by
  rw [rows, List.rtakeWhile_concat]
  cases step.resets scope with
  | true => rfl
  | false =>
    cases row : step.row? <;> simp [rows, row]

end Scope

namespace TotalsTracker

variable {columns : List Column} {policy : NullSubtotals} {steps : List TotalsStep}
variable {tracker : TotalsTracker}

/-- A tracker holds the sums of the rows since the last reset. -/
structure TracksSteps (columns : List Column) (policy : NullSubtotals) (tracker : TotalsTracker)
    (steps : List TotalsStep) : Prop where
  policy_eq : tracker.nullSubtotals = policy
  tracks : tracker.Tracks columns (Scope.report.rows steps) (Scope.openSection.rows steps)
    fun column => (Scope.openGroup column).rows steps

namespace TracksSteps

theorem start (columns : List Column) (policy : NullSubtotals) :
    (TotalsTracker.start columns policy).TracksSteps columns policy [] where
  policy_eq := rfl
  tracks := by simpa using Tracks.start columns policy

theorem flushGroup (tracked : tracker.TracksSteps columns policy steps) (column : Nat)
    (label : String) :
    (((tracker.flushGroup column label).map Prod.snd).getD tracker).TracksSteps columns policy
      (steps ++ [.flushGroup column label]) := by
  have rows (other : Nat) : (Scope.openGroup other).rows (steps ++ [.flushGroup column label]) =
      if other = column then [] else (Scope.openGroup other).rows steps := by
    simp [Scope.rows_concat, TotalsStep.resets, TotalsStep.row?]
  by_cases known : column ∈ groupIndexes columns
  · obtain ⟨flushed, found, left⟩ := tracked.tracks.flushGroup known label
    refine ⟨?_, ?_⟩
    · rw [found]
      exact (nullSubtotals_of_flushGroup found).trans tracked.policy_eq
    · rw [found]
      simpa [Scope.rows_concat, TotalsStep.resets, TotalsStep.row?, rows] using left
  · rw [tracked.tracks.flushGroup_eq_none known label]
    refine ⟨tracked.policy_eq, ?_⟩
    have kept := tracked.tracks
    simp only [Scope.rows_concat, TotalsStep.resets, TotalsStep.row?, Option.toList_none,
      List.append_nil, Bool.false_eq_true, ↓reduceIte, beq_iff_eq]
    apply kept.congr
    intro other member
    have apart : other ≠ column := fun same => known (same ▸ member)
    rw [if_neg apart]

/-- A step that succeeds leaves the sums of the rows since the last reset. -/
theorem step (tracked : tracker.TracksSteps columns policy steps) {step : TotalsStep}
    {next : TotalsTracker} (run : tracker.step step = .ok next) :
    next.TracksSteps columns policy (steps ++ [step]) := by
  cases step with
  | accumulate number row =>
    have added := tracked.tracks.accumulate run
    refine ⟨(nullSubtotals_of_accumulate run).trans tracked.policy_eq, ?_⟩
    simpa [Scope.rows_concat, TotalsStep.resets, TotalsStep.row?] using added
  | flushSection label =>
    obtain rfl := Except.ok.inj run
    obtain ⟨_, flushed⟩ := tracked.tracks.flushSection label
    refine ⟨tracked.policy_eq, ?_⟩
    simpa [Scope.rows_concat, TotalsStep.resets, TotalsStep.row?] using flushed
  | flushGroup column label =>
    obtain rfl := Except.ok.inj run
    exact tracked.flushGroup column label

end TracksSteps

/-- After steps that succeed every sum is that of the rows since its last reset. -/
theorem tracksSteps_of_run (success : (TotalsTracker.start columns policy).run steps = .ok tracker) :
    tracker.TracksSteps columns policy steps := by
  induction steps using List.reverseRecOn generalizing tracker with
  | nil =>
    obtain rfl := Except.ok.inj success
    exact .start columns policy
  | append_singleton steps step ih =>
    rw [run, List.foldlM_append] at success
    obtain ⟨middle, before, last⟩ := bind_eq_ok_iff.mp success
    exact (ih before).step (by simpa using last)

/-- A row takes a sum out of range, by half a unit or more. -/
def Exceeds (tracker : TotalsTracker) (row : Row) (scope : Scope) (index : Nat) : Prop :=
  ∃ sum amount, tracker.Holds index sum scope ∧ scope.level.amount? index row = some amount ∧
    Decimal.limit + 1 / 2 ≤ |sum.toRat + amount.toRat|

/-- After steps that succeed every sum has been added up from the rows since its last reset, each
amount rounded if need be, and is exact if all sums on the way are decimals. A row whose values can
be totalled is refused only if it takes a sum out of range, and the error names the column. -/
theorem roundedSum_of_run (success : (TotalsTracker.start columns policy).run steps = .ok tracker) :
    (∀ index column scope, columns[index]? = some column → scope.level.accumulates column = true →
      (∀ group, scope = .openGroup group → group ∈ groupIndexes columns) →
        ∃ sum, tracker.Holds index sum scope) ∧
    (∀ index sum scope, tracker.Holds index sum scope →
      let amounts := (scope.rows steps).filterMap (scope.level.amount? index)
      Decimal.RoundedSum amounts sum ∧
        |sum.toRat - Decimal.exactSum amounts| ≤ amounts.length / 2 ∧
        ((∀ part, part <+: amounts → ∃ d : Decimal, d.toRat = Decimal.exactSum part) →
          sum.toRat = Decimal.exactSum amounts)) ∧
      ∀ number row found, rowAmounts policy number columns 0 row = .ok found →
        ((∃ added, tracker.accumulate number row = .ok added) ↔
          ∀ scope index, ¬ tracker.Exceeds row scope index) ∧
        ∀ error, tracker.accumulate number row = .error error →
          ∃ scope index column, tracker.Exceeds row scope index ∧
            columns[index]? = some column ∧ error = .totalOverflow column.name number := by
  obtain ⟨policy_eq, tracks⟩ := tracksSteps_of_run success
  refine ⟨fun _ _ _ there active known => tracks.exists_holds there active known, ?_, ?_⟩
  · intro index sum scope holds
    obtain ⟨column, _, _, total⟩ := tracks.total_of_holds holds
    have rows : scope.part (Scope.report.rows steps) (Scope.openSection.rows steps)
        (fun column => (Scope.openGroup column).rows steps) = scope.rows steps := by
      cases scope <;> rfl
    rw [rows] at total
    have rounded := Decimal.roundedSum_of_total? total
    exact ⟨rounded, rounded.near, rounded.exact⟩
  · intro number row found read
    rw [← policy_eq] at read
    constructor
    · rw [tracks.exists_accumulate_iff read]
      simp only [Exceeds, ne_eq, Decimal.add?_eq_none_iff, not_exists, not_and]
    · intro error run
      obtain ⟨scope, index, column, sum, amount, there, holds, adds, overflow, named⟩ :=
        tracks.accumulate_eq_error read run
      have exceeds : tracker.Exceeds row scope index :=
        ⟨sum, amount, holds, adds, Decimal.add?_eq_none_iff.mp overflow⟩
      exact ⟨scope, index, column, exceeds, there, named⟩

/-- Amounts with subtotals. -/
def amountColumn : Column := { Column.numeric "Amount" 40 with subtotal := true }

/-- The sum of one and two is exact, whatever sections they are in. -/
theorem roundedSum_of_run_small :
    ∃ tracker sum, (TotalsTracker.start [amountColumn] .reject).run
        [.accumulate 1 [.number (.ofInt 1)], .flushSection "", .accumulate 2 [.number (.ofInt 2)]] =
        .ok tracker ∧ tracker.Holds 0 sum .report ∧ sum.toRat = 3 := by
  let steps : List TotalsStep :=
    [.accumulate 1 [.number (.ofInt 1)], .flushSection "", .accumulate 2 [.number (.ofInt 2)]]
  have checked : ((TotalsTracker.start [amountColumn] .reject).run steps).toOption.any
      (fun _ => true) = true := by decide +kernel
  obtain ⟨tracker, success, _⟩ := exists_ok_of_any checked
  obtain ⟨held, sums, _⟩ := roundedSum_of_run success
  obtain ⟨sum, holds⟩ := held 0 amountColumn .report rfl rfl (by simp)
  obtain ⟨_, _, exact⟩ := sums 0 sum .report holds
  have amounts : (Scope.report.rows steps).filterMap (Scope.report.level.amount? 0) =
      [.ofInt 1, .ofInt 2] := rfl
  have range : Decimal.SumInRange [.ofInt 1, .ofInt 2] := show 3 ≤ Decimal.limit by decide
  have one : (Decimal.ofInt 1).toRat = 1 := Decimal.toRat_ofInt (by decide)
  have two : (Decimal.ofInt 2).toRat = 2 := Decimal.toRat_ofInt (by decide)
  have total : Decimal.exactSum [.ofInt 1, .ofInt 2] = 3 := by
    simp only [Decimal.exactSum, List.map_cons, List.map_nil, List.sum_cons, List.sum_nil, one, two]
    norm_num
  rw [amounts] at exact
  exact ⟨tracker, sum, success, holds,
    (exact fun _ start => range.inRange.exists_exactSum start).trans total⟩

/-- The greatest decimal swallows a tenth: the second row is accepted, but adds nothing. -/
theorem run_swallows_tenth :
    ∃ greatest tenth tracker, greatest.text = "79228162514264337593543950335" ∧ tenth.text = "0.1" ∧
      (TotalsTracker.start [amountColumn] .reject).run
        [.accumulate 1 [.number greatest], .accumulate 2 [.number tenth]] = .ok tracker ∧
      tracker.Holds 0 greatest .report ∧
      (Scope.report.rows [.accumulate 1 [.number greatest], .accumulate 2 [.number tenth]]).filterMap
        (Level.grand.amount? 0) = [greatest, tenth] ∧
      greatest.toRat ≠ Decimal.exactSum [greatest, tenth] := by
  let greatest : Decimal := ⟨⟨Decimal.limit, 0⟩, by decide, by decide⟩
  let tenth : Decimal := ⟨⟨1, 1⟩, by decide, by decide⟩
  have checked : ((TotalsTracker.start [amountColumn] .reject).run
      [.accumulate 1 [.number greatest], .accumulate 2 [.number tenth]]).toOption.any
      (fun tracker => tracker.grandSums.sum? 0 == some greatest) = true := by decide +kernel
  obtain ⟨tracker, success, same⟩ := exists_ok_of_any checked
  have texts : greatest.text = "79228162514264337593543950335" ∧ tenth.text = "0.1" := by
    decide +kernel
  have small : tenth.toRat ≠ 0 := by
    simp [Numeral.toRat, tenth, tenPow]
  refine ⟨greatest, tenth, tracker, texts.1, texts.2, success, .report (beq_iff_eq.mp same), rfl, ?_⟩
  simpa [Decimal.exactSum] using small

end TotalsTracker

end PagedReport
