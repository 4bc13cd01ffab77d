import PagedReport.Proofs.History

/-! # Totals that are refused

A row is added to all sums or to none. It is refused because of a value that cannot be totalled or,
if it has none, because it takes a sum out of range; the error then names the column of such a sum.
-/

namespace PagedReport

namespace Sums

/-- Amounts overflow the sum of a column if they cannot be added to it one after the other. -/
def Overflows (sums : Sums) (amounts : List Amount) (index : Nat) : Prop :=
  ∃ sum, sums.sum? index = some sum ∧ (Amount.inColumn index amounts).foldlM Decimal.add? sum = none

/-- Once the first amount has been added, the others overflow the same columns as all of them did. -/
private theorem overflows_cons_iff {sums next : Sums} {amount : Amount} {rest : List Amount}
    (first : sums.add? amount.column amount.value = some next) (index : Nat) :
    sums.Overflows (amount :: rest) index ↔ next.Overflows rest index := by
  have placed : next.sum? index = (sums.sum? index).bind fun sum =>
      if amount.column = index then sum.add? amount.value else some sum := by
    rw [sum?, getElem?_add? first, sum?]
    cases sums[index]? with
    | none => rfl
    | some entry => cases entry <;> by_cases same : amount.column = index <;> simp [same]
  rw [Overflows, Overflows, placed]
  cases held : sums.sum? index with
  | none => simp
  | some sum =>
    by_cases same : amount.column = index
    · subst same
      rw [add?, held] at first
      obtain ⟨total, added, _⟩ := Option.map_eq_some_iff.mp first
      simp [Amount.inColumn, added]
    · simp [Amount.inColumn, same]

/-- An amount that cannot be added overflows its column, whatever comes after it. -/
private theorem overflows_of_add? {sums : Sums} {amount : Amount}
    (refused : sums.add? amount.column amount.value = none) (rest : List Amount) :
    sums.Overflows (amount :: rest) amount.column := by
  cases held : sums.sum? amount.column with
  | none => simp [add?, held] at refused
  | some sum =>
    rw [add?, held] at refused
    exact ⟨sum, held, by simp [Amount.inColumn, Option.map_eq_none_iff.mp refused]⟩

/-- Amounts that have been added overflow no column. -/
theorem not_overflows_of_addAll? {sums added : Sums} {amounts : List Amount}
    (run : sums.addAll? amounts = some added) (index : Nat) : ¬ sums.Overflows amounts index := by
  rintro ⟨sum, held, overflow⟩
  have there : sums[index]? = some (some sum) := Option.join_eq_some_iff.mp held
  have placed := getElem?_addAll? run index
  rw [there, Option.map_some, Option.bind_some, overflow] at placed
  have kept := congrArg (fun flags : List Bool => flags[index]?) (isSome_addAll? run)
  simp [placed, there] at kept

namespace IsSum

variable {level : Level} {columns : List Column} {rows : List Row} {sums : Sums}

/-- A column that has totals has a sum. -/
theorem exists_sum (sum : IsSum level columns rows sums) {index : Nat} {column : Column}
    (there : columns[index]? = some column) (active : level.accumulates column = true) :
    ∃ total, sums.sum? index = some total := by
  have flags := congrArg (fun flags : List Bool => flags[index]?) sum.active
  simp only [List.getElem?_map, there, Option.map_some, active] at flags
  obtain ⟨entry, held, some⟩ := Option.map_eq_some_iff.mp flags
  obtain ⟨total, rfl⟩ := Option.isSome_iff_exists.mp some
  exact ⟨total, by rw [sum?, held, Option.join_some]⟩

/-- A row overflows the sum of a column if what it adds there cannot be added. -/
theorem overflows_iff {policy : NullSubtotals} {number : Nat} {row : Row} {found : RowAmounts}
    (sum : IsSum level columns rows sums)
    (read : TotalsTracker.rowAmounts policy number columns 0 row = .ok found) (index : Nat) :
    sums.Overflows (level.amounts found) index ↔ ∃ start amount, sums.sum? index = some start ∧
      level.amount? index row = some amount ∧ start.add? amount = none := by
  have held (start : Decimal) (known : sums.sum? index = some start) :
      Amount.inColumn index (level.amounts found) = (level.amount? index row).toList := by
    rw [sum.eq_sums] at known
    obtain ⟨column, there, active, _⟩ := level.exists_of_sum?_sums known
    simp [TotalsTracker.inColumn_rowAmounts read, there, active]
  constructor
  · rintro ⟨start, known, overflow⟩
    rw [held start known] at overflow
    cases adds : level.amount? index row with
    | none => simp [adds] at overflow
    | some amount => exact ⟨start, amount, known, rfl, by simpa [adds] using overflow⟩
  · rintro ⟨start, amount, known, adds, overflow⟩
    exact ⟨start, known, by simp [held start known, adds, overflow]⟩

end IsSum

end Sums

namespace TotalsTracker

private theorem addAmount_eq_error {tracker : TotalsTracker} {number : Nat} {amount : Amount}
    {sums : Sums} {error : ReportError} (run : tracker.addAmount number sums amount = .error error)
    (rest : List Amount) :
    sums.Overflows (amount :: rest) amount.column ∧
      error = .totalOverflow (tracker.columnName amount.column) number := by
  unfold addAmount at run
  split at run
  · cases run
  · next refused => exact ⟨Sums.overflows_of_add? refused rest, (Except.error.inj run).symm⟩

/-- If amounts are refused, one of the columns that they overflow is named. -/
private theorem foldlM_addAmount_eq_error {tracker : TotalsTracker} {number : Nat}
    {amounts : List Amount} {sums : Sums} {error : ReportError}
    (run : amounts.foldlM (tracker.addAmount number) sums = .error error) :
    ∃ index, sums.Overflows amounts index ∧
      error = .totalOverflow (tracker.columnName index) number := by
  induction amounts generalizing sums with
  | nil => cases run
  | cons amount rest ih =>
    rw [List.foldlM_cons] at run
    cases first : tracker.addAmount number sums amount with
    | error refusal =>
      rw [first] at run
      cases run
      exact ⟨amount.column, addAmount_eq_error first rest⟩
    | ok next =>
      rw [first] at run
      obtain ⟨index, overflow, named⟩ := ih run
      exact ⟨index, (Sums.overflows_cons_iff (addAmount_eq_ok first) index).mpr overflow, named⟩

/-- Amounts overflow the sum of a column in the section or in a group. -/
def OverflowsSubtotals (tracker : TotalsTracker) (amounts : List Amount) (index : Nat) : Prop :=
  tracker.sectionSums.Overflows amounts index ∨
    ∃ entry ∈ tracker.groupSums, entry.2.Overflows amounts index

private theorem addSubtotal_eq_error {tracker : TotalsTracker} {number : Nat} {amount : Amount}
    {error : ReportError} (run : tracker.addSubtotal number amount = .error error)
    (rest : List Amount) :
    tracker.OverflowsSubtotals (amount :: rest) amount.column ∧
      error = .totalOverflow (tracker.columnName amount.column) number := by
  rw [addSubtotal] at run
  cases inSection : tracker.addAmount number tracker.sectionSums amount with
  | error refusal =>
    rw [inSection] at run
    cases run
    obtain ⟨overflow, named⟩ := addAmount_eq_error inSection rest
    exact ⟨.inl overflow, named⟩
  | ok sectionSums =>
    let place (entry : Nat × Sums) : Except ReportError (Nat × Sums) := do
      return (entry.1, ← tracker.addAmount number entry.2 amount)
    have inGroups : errorOf? (tracker.groupSums.mapM place) = some error := by
      rw [inSection, ok_bind] at run
      change (tracker.groupSums.mapM place >>= _) = _ at run
      cases placed : tracker.groupSums.mapM place with
      | error refusal =>
        rw [placed] at run
        cases run
        rfl
      | ok groupSums =>
        rw [placed] at run
        cases run
    rw [errorOf?_mapM] at inGroups
    obtain ⟨entry, member, refused⟩ := List.exists_of_findSome?_eq_some inGroups
    have refusal : tracker.addAmount number entry.2 amount = .error error := by
      cases placed : tracker.addAmount number entry.2 amount with
      | error refusal => simpa [place, placed] using refused
      | ok sums => simp [place, placed] at refused
    obtain ⟨overflow, named⟩ := addAmount_eq_error refusal rest
    exact ⟨.inr ⟨entry, member, overflow⟩, named⟩

private theorem foldlM_addSubtotal_eq_error {tracker : TotalsTracker} {number : Nat}
    {amounts : List Amount} {error : ReportError}
    (run : amounts.foldlM (addSubtotal number) tracker = .error error) :
    ∃ index, tracker.OverflowsSubtotals amounts index ∧
      error = .totalOverflow (tracker.columnName index) number := by
  induction amounts generalizing tracker with
  | nil => cases run
  | cons amount rest ih =>
    rw [List.foldlM_cons] at run
    cases first : tracker.addSubtotal number amount with
    | error refusal =>
      rw [first] at run
      cases run
      exact ⟨amount.column, addSubtotal_eq_error first rest⟩
    | ok next =>
      rw [first] at run
      obtain ⟨index, overflow, named⟩ := ih run
      have adds : AddsSubtotals [amount] tracker next := addsSubtotals_of_foldlM (by simpa using first)
      have single {sums added : Sums} (run : sums.addAll? [amount] = some added) :
          sums.add? amount.column amount.value = some added := by
        simpa [Sums.addAll?] using run
      refine ⟨index, ?_, by rw [named, columnName, columnName, adds.columns_eq]⟩
      rcases overflow with inSection | ⟨entry, member, inGroup⟩
      · exact .inl ((Sums.overflows_cons_iff (single adds.current) index).mpr inSection)
      · obtain ⟨source, known, _, placed⟩ := exists_of_mem_right adds.groups member
        exact .inr ⟨source, known, (Sums.overflows_cons_iff (single placed) index).mpr inGroup⟩

/-- The amounts of a row overflow the sum of a column at one of the levels. -/
def RowOverflows (tracker : TotalsTracker) (found : RowAmounts) (index : Nat) : Prop :=
  tracker.grandSums.Overflows found.grand index ∨ tracker.OverflowsSubtotals found.subtotal index

/-- A row is refused because of one of its values or because it overflows a column. -/
theorem accumulate_eq_error {tracker : TotalsTracker} {number : Nat} {row : Row} {error : ReportError}
    (run : tracker.accumulate number row = .error error) :
    rowAmounts tracker.nullSubtotals number tracker.columns 0 row = .error error ∨
      ∃ found index, rowAmounts tracker.nullSubtotals number tracker.columns 0 row = .ok found ∧
        tracker.RowOverflows found index ∧
        error = .totalOverflow (tracker.columnName index) number := by
  rw [accumulate] at run
  cases read : rowAmounts tracker.nullSubtotals number tracker.columns 0 row with
  | error refusal =>
    rw [read] at run
    cases run
    exact .inl rfl
  | ok found =>
    rw [read, ok_bind] at run
    cases grand : found.grand.foldlM (tracker.addAmount number) tracker.grandSums with
    | error refusal =>
      rw [grand] at run
      cases run
      obtain ⟨index, overflow, named⟩ := foldlM_addAmount_eq_error grand
      exact .inr ⟨found, index, rfl, .inl overflow, named⟩
    | ok grandSums =>
      rw [grand, ok_bind] at run
      obtain ⟨index, overflow, named⟩ := foldlM_addSubtotal_eq_error run
      exact .inr ⟨found, index, rfl, .inr overflow, named⟩

/-- A row that has been added overflows no column. -/
theorem not_rowOverflows {tracker added : TotalsTracker} {number : Nat} {row : Row}
    {found : RowAmounts} (run : tracker.accumulate number row = .ok added)
    (read : rowAmounts tracker.nullSubtotals number tracker.columns 0 row = .ok found) (index : Nat) :
    ¬ tracker.RowOverflows found index := by
  rw [accumulate, read, ok_bind] at run
  obtain ⟨grandSums, grand, subtotals⟩ := bind_eq_ok_iff.mp run
  have adds := addsSubtotals_of_foldlM subtotals
  rintro (overflow | overflow | ⟨entry, member, overflow⟩)
  · exact Sums.not_overflows_of_addAll? (foldlM_addAmount grand) index overflow
  · exact Sums.not_overflows_of_addAll? adds.current index overflow
  · obtain ⟨_, _, _, placed⟩ := exists_of_mem_left adds.groups member
    exact Sums.not_overflows_of_addAll? placed index overflow

end TotalsTracker

/-- What a sum is over: the whole report, the open section, or the open run of a group column. -/
inductive Scope where
  | report
  | openSection
  | openGroup (column : Nat)
deriving DecidableEq, Repr

namespace Scope

/-- The kind of totals that the sums belong to. -/
def level : Scope → Level
  | report => .grand
  | openSection | openGroup _ => .subtotal

/-- The rows of a scope, given all rows, those of the open section and those of the open runs. -/
def part (scope : Scope) (all current : List Row) (runs : Nat → List Row) : List Row :=
  match scope with
  | report => all
  | openSection => current
  | openGroup column => runs column

end Scope

namespace TotalsTracker

/-- A tracker holds a sum for a scope in a column. -/
inductive Holds (tracker : TotalsTracker) (index : Nat) (sum : Decimal) : Scope → Prop
  | report (held : tracker.grandSums.sum? index = some sum) : Holds tracker index sum .report
  | openSection (held : tracker.sectionSums.sum? index = some sum) :
      Holds tracker index sum .openSection
  | openGroup {entry : Nat × Sums} (member : entry ∈ tracker.groupSums)
      (held : entry.2.sum? index = some sum) : Holds tracker index sum (.openGroup entry.1)

namespace Tracks

variable {columns : List Column} {tracker : TotalsTracker} {all current : List Row}
variable {runs : Nat → List Row}

/-- A sum that is held is the total of the rows of its scope. -/
theorem total_of_holds (tracks : tracker.Tracks columns all current runs) {index : Nat}
    {sum : Decimal} {scope : Scope} (holds : tracker.Holds index sum scope) :
    ∃ column, columns[index]? = some column ∧ scope.level.accumulates column = true ∧
      Decimal.total? ((scope.part all current runs).filterMap (scope.level.amount? index)) = some sum := by
  cases holds with
  | report held => exact Level.exists_of_sum?_sums .grand (tracks.grand.eq_sums ▸ held)
  | openSection held => exact Level.exists_of_sum?_sums .subtotal (tracks.current.eq_sums ▸ held)
  | @openGroup entry member held =>
    exact Level.exists_of_sum?_sums .subtotal ((tracks.groups entry member).eq_sums ▸ held)

/-- A column that has totals has a sum in every scope. -/
theorem exists_holds (tracks : tracker.Tracks columns all current runs) {index : Nat}
    {column : Column} (there : columns[index]? = some column) {scope : Scope}
    (active : scope.level.accumulates column = true)
    (known : ∀ group, scope = .openGroup group → group ∈ groupIndexes columns) :
    ∃ sum, tracker.Holds index sum scope := by
  cases scope with
  | report =>
    obtain ⟨sum, held⟩ := tracks.grand.exists_sum there active
    exact ⟨sum, .report held⟩
  | openSection =>
    obtain ⟨sum, held⟩ := tracks.current.exists_sum there active
    exact ⟨sum, .openSection held⟩
  | openGroup group =>
    have named := known group rfl
    rw [← tracks.indexes] at named
    obtain ⟨entry, member, rfl⟩ := List.mem_map.mp named
    obtain ⟨sum, held⟩ := (tracks.groups entry member).exists_sum there active
    exact ⟨sum, .openGroup member held⟩

/-- A row overflows a column if what it adds there cannot be added to one of the sums. -/
theorem rowOverflows_iff (tracks : tracker.Tracks columns all current runs) {policy : NullSubtotals}
    {number : Nat} {row : Row} {found : RowAmounts}
    (read : rowAmounts policy number columns 0 row = .ok found) (index : Nat) :
    tracker.RowOverflows found index ↔ ∃ scope sum amount, tracker.Holds index sum scope ∧
      scope.level.amount? index row = some amount ∧ sum.add? amount = none := by
  have grand := tracks.grand.overflows_iff read index
  have inSection := tracks.current.overflows_iff read index
  constructor
  · rintro (overflow | overflow | ⟨entry, member, overflow⟩)
    · obtain ⟨sum, amount, held, adds, refused⟩ := grand.mp overflow
      exact ⟨.report, sum, amount, .report held, adds, refused⟩
    · obtain ⟨sum, amount, held, adds, refused⟩ := inSection.mp overflow
      exact ⟨.openSection, sum, amount, .openSection held, adds, refused⟩
    · obtain ⟨sum, amount, held, adds, refused⟩ :=
        ((tracks.groups entry member).overflows_iff read index).mp overflow
      exact ⟨.openGroup entry.1, sum, amount, .openGroup member held, adds, refused⟩
  · rintro ⟨scope, sum, amount, holds, adds, refused⟩
    cases holds with
    | report held => exact .inl (grand.mpr ⟨sum, amount, held, adds, refused⟩)
    | openSection held => exact .inr (.inl (inSection.mpr ⟨sum, amount, held, adds, refused⟩))
    | @openGroup entry member held =>
      refine .inr (.inr ⟨entry, member, ?_⟩)
      exact ((tracks.groups entry member).overflows_iff read index).mpr ⟨sum, amount, held, adds, refused⟩

/-- A row without a fault that is refused takes a sum out of range in the column that is named. -/
theorem accumulate_eq_error (tracks : tracker.Tracks columns all current runs) {number : Nat}
    {row : Row} {found : RowAmounts}
    (read : rowAmounts tracker.nullSubtotals number columns 0 row = .ok found) {error : ReportError}
    (run : tracker.accumulate number row = .error error) :
    ∃ scope index column sum amount, columns[index]? = some column ∧
      tracker.Holds index sum scope ∧ scope.level.amount? index row = some amount ∧
      sum.add? amount = none ∧ error = .totalOverflow column.name number := by
  rcases TotalsTracker.accumulate_eq_error run with fault | ⟨found', index, read', overflow, named⟩
  · rw [tracks.columns_eq] at fault
    cases read.symm.trans fault
  · rw [tracks.columns_eq] at read'
    obtain ⟨scope, sum, amount, holds, adds, refused⟩ :=
      (tracks.rowOverflows_iff read' index).mp overflow
    obtain ⟨column, there, _⟩ := tracks.total_of_holds holds
    refine ⟨scope, index, column, sum, amount, there, holds, adds, refused, ?_⟩
    rw [named, columnName, tracks.columns_eq, there]
    rfl

/-- A row without a fault is added exactly if no sum leaves the range. -/
theorem exists_accumulate_iff (tracks : tracker.Tracks columns all current runs) {number : Nat}
    {row : Row} {found : RowAmounts}
    (read : rowAmounts tracker.nullSubtotals number columns 0 row = .ok found) :
    (∃ added, tracker.accumulate number row = .ok added) ↔
      ∀ scope index sum amount, tracker.Holds index sum scope →
        scope.level.amount? index row = some amount → sum.add? amount ≠ none := by
  constructor
  · rintro ⟨added, run⟩ scope index sum amount holds adds refused
    have read' := read
    rw [← tracks.columns_eq] at read'
    exact not_rowOverflows run read' index
      ((tracks.rowOverflows_iff read index).mpr ⟨scope, sum, amount, holds, adds, refused⟩)
  · intro room
    cases run : tracker.accumulate number row with
    | ok added => exact ⟨added, rfl⟩
    | error error =>
      obtain ⟨scope, index, _, sum, amount, _, holds, adds, refused, _⟩ :=
        tracks.accumulate_eq_error read run
      exact absurd refused (room scope index sum amount holds adds)

end Tracks

end TotalsTracker

end PagedReport
