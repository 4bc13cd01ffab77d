import PagedReport.Proofs.Overflow
import PagedReport.Proofs.Reconciliation
import PagedReport.Proofs.Repagination

/-! # Which error a layout returns

A layout fails because of a value: one that a column cannot show in its format, or one that it cannot
total. This module tells the first such value from the rows alone, and proves that a layout whose
amounts are in range returns the error of that value or, if there is none, succeeds. The place of the
row on the pages, the copies of headers, the look ahead and the lines of totals neither add an error
nor hide one.
-/

namespace PagedReport

/-- Whether a value is neither null nor a number. -/
def Value.isForeign (value : Value) : Bool := !value.isNull && value.toDecimal?.isNone

theorem Value.isForeign_eq_false_iff (value : Value) :
    value.isForeign = false ↔ value.isNull = true ∨ value.toDecimal?.isSome = true := by
  cases null : value.isNull <;> cases number : value.toDecimal? <;> simp [isForeign, null, number]

namespace Column

/-- What is wrong with a value that a column has to show in its format. -/
def formatFault? (column : Column) (value : Value) : Option ReportError :=
  if column.isVisible && column.format.isSome && value.isForeign then
    some (.format column.name (.notANumber value))
  else none

/-- What is wrong with a value that a column has to total, in the row of this number. -/
def totalFault? (policy : NullSubtotals) (number : Nat) (column : Column) (value : Value) :
    Option ReportError :=
  if (column.isNumeric || column.subtotal) && value.isForeign then
    some (.notNumeric column.name value)
  else if column.subtotal && value.isNull && policy == .reject then
    some (.nullSubtotal column.name number)
  else none

/-- A column takes a value if it can show and total it. -/
structure Takes (policy : NullSubtotals) (column : Column) (value : Value) : Prop where
  shown : column.isVisible = true → column.format.isSome = true →
    value.isNull = true ∨ value.toDecimal?.isSome = true
  totalled : column.isNumeric = true ∨ column.subtotal = true →
    value.isNull = true ∨ value.toDecimal?.isSome = true
  counted : policy = .reject → column.subtotal = true → value.isNull = false

/-- A column takes the values with which nothing is wrong. -/
theorem takes_iff {policy : NullSubtotals} (number : Nat) {column : Column} {value : Value} :
    Takes policy column value ↔
      column.formatFault? value = none ∧ column.totalFault? policy number value = none := by
  constructor
  · rintro ⟨shown, totalled, counted⟩
    rw [← value.isForeign_eq_false_iff] at shown totalled
    simp only [formatFault?, totalFault?]
    grind
  · rintro ⟨format, total⟩
    simp only [formatFault?, totalFault?] at format total
    constructor
    · rw [← value.isForeign_eq_false_iff]
      grind
    · rw [← value.isForeign_eq_false_iff]
      grind
    · grind

end Column

namespace Design

/-- What is wrong with a row: first a value that cannot be shown, then one that cannot be totalled,
each the leftmost one. -/
def rowFault? (design : Design) (number : Nat) (row : Row) : Option ReportError :=
  ((design.columns.zip row).findSome? fun place => place.1.formatFault? place.2).or
    ((design.columns.zip row).findSome? fun place =>
      place.1.totalFault? design.options.nullSubtotals number place.2)

/-- What is wrong with the first row with which something is wrong. The rows have numbers from
`number` on. -/
def fault? (design : Design) (number : Nat) (rows : List Row) : Option ReportError :=
  (rows.zipIdx number).findSome? fun place => design.rowFault? place.2 place.1

/-- No column shows percentages, the only numbers that can be too large to be shown. -/
def NoPercentages (design : Design) : Prop :=
  ∀ column ∈ design.columns, ∀ places, column.format ≠ some (.percentage places)

/-- In every column that is totalled the magnitudes of the amounts of rows have a sum in range. -/
def AmountsInRange (design : Design) (rows : List Row) : Prop :=
  ∀ index column, design.columns[index]? = some column →
    column.isNumeric = true ∨ column.subtotal = true →
      Decimal.SumInRange (rows.filterMap (Level.subtotal.amount? index))

theorem fault?_cons (design : Design) (number : Nat) (row : Row) (rest : List Row) :
    design.fault? number (row :: rest) =
      (design.rowFault? number row).or (design.fault? (number + 1) rest) := by
  rw [fault?, List.zipIdx_cons, List.findSome?_cons]
  cases design.rowFault? number row <;> rfl

/-- There is nothing wrong with rows exactly if the columns take all their values. -/
theorem fault?_eq_none_iff {design : Design} {number : Nat} {rows : List Row} :
    design.fault? number rows = none ↔ ∀ row ∈ rows, ∀ place ∈ design.columns.zip row,
      Column.Takes design.options.nullSubtotals place.1 place.2 := by
  have each (number : Nat) (row : Row) : design.rowFault? number row = none ↔
      ∀ place ∈ design.columns.zip row,
        Column.Takes design.options.nullSubtotals place.1 place.2 := by
    simp only [rowFault?, Option.or_eq_none_iff, List.findSome?_eq_none_iff, Column.takes_iff number]
    exact forall₂_and.symm
  simp only [fault?, List.findSome?_eq_none_iff, each]
  constructor
  · intro none row member
    obtain ⟨place, known, rfl⟩ := List.mem_map.mp ((List.zipIdx_map_fst number rows).symm ▸ member)
    exact none place known
  · intro takes place member
    exact takes place.1 (List.fst_mem_of_mem_zipIdx member)

end Design

section Cells

variable {design : Design}

/-- A format other than that of percentages shows any number. -/
private theorem exists_formatNumber {format : NumberFormat}
    (plain : ∀ places, format ≠ .percentage places) (value : Value) (n : Decimal) :
    ∃ text, format.formatNumber value n = .ok text := by
  cases format with
  | percentage places => exact absurd rfl (plain places)
  | general => exact ⟨_, rfl⟩
  | number places thousands => exact ⟨_, rfl⟩
  | currency places symbol => exact ⟨_, rfl⟩

private theorem errorOf?_displayText {column : Column}
    (plain : ∀ places, column.format ≠ some (.percentage places))
    (visible : column.isVisible = true) (value : Value) :
    errorOf? (design.displayText column value) = column.formatFault? value := by
  cases format : column.format with
  | none => simp [Design.displayText, Column.formatFault?, format]
  | some shown =>
    rw [format] at plain
    cases null : value.isNull with
    | true => simp [Design.displayText, Column.formatFault?, Value.isForeign, format, null]
    | false =>
      cases number : value.toDecimal? with
      | none =>
        simp [Design.displayText, Column.formatFault?, Value.isForeign, NumberFormat.format, format,
          null, number, visible, Except.mapError]
      | some n =>
        obtain ⟨text, made⟩ := exists_formatNumber
          (fun places same => plain places (congrArg some same)) value n
        simp [Design.displayText, Column.formatFault?, Value.isForeign, NumberFormat.format, format,
          null, number, made, Except.mapError]

/-- The cells of a data row fail with the error of the leftmost value that cannot be shown. -/
private theorem errorOf?_dataRow (plain : design.NoPercentages) {row : Row}
    (width : row.length = design.columns.length) (previous : Option Row) (y : Int)
    (showRepeats : Bool) :
    errorOf? (design.dataRow row previous y showRepeats) =
      (design.columns.zip row).findSome? fun place => place.1.formatFault? place.2 := by
  have places : design.columns.zip row =
      design.columns.zipIdx.map fun place => (place.1, row.getD place.2 .null) := by
    apply List.ext_getElem
    · simp [width]
    · intro index left right
      have bound : index < row.length := by
        simp only [List.length_zip] at left
        omega
      simp [bound]
  rw [Design.dataRow, errorOf?_mapM, places, ← List.head?_filterMap, ← List.head?_filterMap,
    visibleColumns, List.filterMap_filter, List.filterMap_map]
  apply congrArg List.head?
  apply List.filterMap_congr
  intro place member
  have known : place.1 ∈ design.columns := List.fst_mem_of_mem_zipIdx member
  dsimp only [Function.comp_apply]
  split
  · next visible =>
    rw [← errorOf?_displayText (plain place.1 known) visible, Design.dataCell]
    cases design.displayText place.1 (row.getD place.2 .null) <;> rfl
  · next hidden => simp [Column.formatFault?, hidden]

/-- A line of totals can always be shown. -/
private theorem errorOf?_totals (plain : design.NoPercentages) (line : TotalsLine) (grand : Bool)
    (y : Int) : errorOf? (design.totals line grand y) = none := by
  have cell (place : Column × Nat) (member : place ∈ visibleColumns design.columns) :
      errorOf? (design.totalCell line grand y place.1 place.2) = none := by
    obtain ⟨known, visible⟩ := List.mem_filter.mp member
    rw [Design.totalCell]
    split
    · rfl
    · next total held =>
      have shown : errorOf? (design.displayText place.1 (.number total)) = none := by
        rw [errorOf?_displayText (plain place.1 (List.fst_mem_of_mem_zipIdx known)) visible]
        simp [Column.formatFault?, Value.isForeign, Value.toDecimal?]
      obtain ⟨text, made⟩ := errorOf?_eq_none_iff.mp shown
      rw [made]
      rfl
  rw [Design.totals]
  split
  · have all : errorOf? ((visibleColumns design.columns).mapM fun place =>
        design.totalCell line grand y place.1 place.2) = none := by
      rw [errorOf?_mapM]
      exact List.findSome?_eq_none_iff.mpr cell
    obtain ⟨cells, made⟩ := errorOf?_eq_none_iff.mp all
    rw [made]
    rfl
  · rfl

end Cells

section Amounts

/-- What a value adds in a column fails with what is wrong with the value. -/
private theorem errorOf?_amountsOf (policy : NullSubtotals) (number : Nat) (column : Column)
    (index : Nat) (value : Value) :
    errorOf? (TotalsTracker.amountsOf policy number column index value) =
      column.totalFault? policy number value := by
  cases null : value.isNull with
  | true =>
    have amount : TotalsTracker.amountOf column value = .ok none := by
      simp [TotalsTracker.amountOf, null]
    simp only [TotalsTracker.amountsOf, amount, ok_bind, Column.totalFault?, Value.isForeign, null]
    cases column.isNumeric <;> cases column.subtotal <;> cases policy <;> rfl
  | false =>
    simp only [TotalsTracker.amountsOf, TotalsTracker.amountOf, Column.totalFault?, Value.isForeign,
      null]
    cases value.toDecimal? <;> cases column.isNumeric <;> cases column.subtotal <;> rfl

/-- The amounts of a row fail with the error of the leftmost value that cannot be totalled. -/
theorem errorOf?_rowAmounts (policy : NullSubtotals) (number : Nat) (columns : List Column)
    (start : Nat) (row : Row) :
    errorOf? (TotalsTracker.rowAmounts policy number columns start row) =
      (columns.zip row).findSome? fun place => place.1.totalFault? policy number place.2 := by
  induction columns generalizing start row with
  | nil => cases row <;> rfl
  | cons column columns ih =>
    cases row with
    | nil => rfl
    | cons value row =>
      rw [List.zip_cons_cons, List.findSome?_cons, ← ih (start + 1) row,
        ← errorOf?_amountsOf policy number column start value, TotalsTracker.rowAmounts]
      cases TotalsTracker.amountsOf policy number column start value with
      | error error => rfl
      | ok here => cases TotalsTracker.rowAmounts policy number columns (start + 1) row <;> rfl

/-- The total of some of the rows is in range with that of all of them. -/
theorem Design.AmountsInRange.isSome_total? {design : Design} {rows part : List Row}
    (range : design.AmountsInRange rows) (sub : part.Sublist rows) {level : Level} {index : Nat}
    {column : Column} (found : design.columns[index]? = some column)
    (active : level.accumulates column = true) :
    (Decimal.total? (part.filterMap (level.amount? index))).isSome = true := by
  have either : column.isNumeric = true ∨ column.subtotal = true := by
    cases level with
    | grand => exact .inl active
    | subtotal => exact .inr active
  have inRange := (range index column found either).inRange
  obtain ⟨places, all⟩ : ∃ places, Decimal.InRange places (rows.filterMap (level.amount? index)) := by
    cases level with
    | grand => exact ⟨_, inRange_grand inRange⟩
    | subtotal => exact ⟨_, inRange⟩
  obtain ⟨total, made, _⟩ := (all.sublist (sub.filterMap _)).total?_eq
  rw [made]
  rfl

end Amounts

/-- The sums of a tracker are those of some of the rows that are done, in their order. -/
structure TotalsTracker.Within (design : Design) (tracker : TotalsTracker) (done : List Row) : Prop where
  policy : tracker.nullSubtotals = design.options.nullSubtotals
  tracks : ∃ current runs, tracker.Tracks design.columns done current runs ∧
    current.Sublist done ∧ ∀ group, (runs group).Sublist done

namespace TotalsTracker.Within

variable {design : Design} {tracker : TotalsTracker} {done : List Row}

theorem start (design : Design) :
    (TotalsTracker.start design.columns design.options.nullSubtotals).Within design [] where
  policy := rfl
  tracks := ⟨_, _, .start _ _, .slnil, fun _ => .slnil⟩

/-- A row whose values can be totalled is added if all amounts are in range. -/
theorem exists_accumulate (within : tracker.Within design done) {number : Nat} {row : Row}
    {rest : List Row} (range : design.AmountsInRange (done ++ row :: rest)) {found : RowAmounts}
    (read : rowAmounts design.options.nullSubtotals number design.columns 0 row = .ok found) :
    ∃ added, tracker.accumulate number row = .ok added ∧ added.Within design (done ++ [row]) := by
  obtain ⟨policy, current, runs, tracks, sub, subs⟩ := within
  have part (scope : Scope) : (scope.part done current runs).Sublist done := by
    cases scope with
    | report => exact .refl done
    | openSection => exact sub
    | openGroup column => exact subs column
  have room (scope : Scope) (index : Nat) (sum amount : Decimal) (holds : tracker.Holds index sum scope)
      (adds : scope.level.amount? index row = some amount) : sum.add? amount ≠ none := by
    intro overflow
    obtain ⟨column, there, active, total⟩ := tracks.total_of_holds holds
    have longer : (scope.part done current runs ++ [row]).Sublist (done ++ row :: rest) :=
      (part scope).append (.cons_cons row (List.nil_sublist rest))
    have whole := range.isSome_total? longer there active
    rw [Decimal.total?] at total
    rw [List.filterMap_append, Decimal.total?, List.foldlM_append, total] at whole
    simp [adds, overflow] at whole
  rw [← policy] at read
  obtain ⟨added, run⟩ := (tracks.exists_accumulate_iff read).mpr room
  refine ⟨added, run, (nullSubtotals_of_accumulate run).trans policy, _, _, tracks.accumulate run, ?_, ?_⟩
  · exact sub.append (.refl [row])
  · exact fun group => (subs group).append (.refl [row])

/-- A row with a value that cannot be totalled is refused. -/
theorem accumulate_eq_error (within : tracker.Within design done) {number : Nat} {row : Row}
    {error : ReportError}
    (read : rowAmounts design.options.nullSubtotals number design.columns 0 row = .error error) :
    tracker.accumulate number row = .error error := by
  obtain ⟨policy, _, _, tracks, _⟩ := within
  rw [accumulate, policy, tracks.columns_eq, read]
  rfl

/-- The totals line of a group takes its sums back to those of no rows. -/
theorem flushGroup (within : tracker.Within design done) {column : Nat}
    (known : column ∈ groupIndexes design.columns) (label : String) :
    ∃ line flushed, tracker.flushGroup column label = some (line, flushed) ∧
      flushed.Within design done := by
  obtain ⟨policy, current, runs, tracks, sub, subs⟩ := within
  obtain ⟨flushed, found, left⟩ := tracks.flushGroup known label
  refine ⟨_, flushed, found, (nullSubtotals_of_flushGroup found).trans policy, current, _, left, sub, ?_⟩
  intro group
  split
  · exact List.nil_sublist done
  · exact subs group

theorem flushSection (within : tracker.Within design done) (label : String) :
    (tracker.flushSection label).2.Within design done := by
  obtain ⟨policy, current, runs, tracks, sub, subs⟩ := within
  exact ⟨policy, [], runs, (tracks.flushSection label).2, List.nil_sublist done, subs⟩

theorem mem_groupColumns (within : tracker.Within design done) {column : Nat}
    (member : column ∈ tracker.groupColumns) : column ∈ groupIndexes design.columns := by
  obtain ⟨_, _, _, tracks, _⟩ := within
  rw [tracks.groupColumns_eq] at member
  exact List.mem_reverse.mp member

end TotalsTracker.Within

/-- The error of an item of a script: its own, or that of the cells of its block. -/
def Design.itemFault? (design : Design) (item : Except ReportError Block) : Option ReportError :=
  errorOf? (item >>= fun block => design.cells block design.options.showGroupsAsRepeat 0)

namespace Account

variable {design : Design} {done : List Row} {totals : TotalsTracker}

/-- The totals of groups bring no error and leave sums of some of the rows. -/
private theorem flushGroups_within (plain : design.NoPercentages) (row : Row) {groups : List Nat}
    (known : ∀ column ∈ groups, column ∈ groupIndexes design.columns)
    (within : totals.Within design done) :
    (∀ block ∈ (flushGroups design row groups totals).1, design.itemFault? (.ok block) = none) ∧
      (flushGroups design row groups totals).2.Within design done := by
  induction groups generalizing totals with
  | nil => exact ⟨by simp [flushGroups], within⟩
  | cons column rest ih =>
    obtain ⟨line, flushed, found, left⟩ := within.flushGroup (known column List.mem_cons_self)
      (" " ++ design.plainText (row.getD column .null))
    obtain ⟨clean, ended⟩ := ih (fun other member => known other (List.mem_cons_of_mem _ member)) left
    simp only [flushGroups, found]
    refine ⟨?_, ended⟩
    intro block member
    rcases List.mem_cons.mp member with rfl | member
    · exact errorOf?_totals plain line false 0
    · exact clean block member

private theorem flushSection_within (plain : design.NoPercentages) (row : Row)
    (detector : SectionDetector) (within : totals.Within design done) :
    (∀ block ∈ (flushSection design row detector totals).1, design.itemFault? (.ok block) = none) ∧
      (flushSection design row detector totals).2.Within design done := by
  obtain ⟨clean, left⟩ := flushGroups_within plain row
    (fun _ member => within.mem_groupColumns member) within
  let label := (detector.current.map fun key => key.totalsLabel design.columns).getD ""
  refine ⟨?_, left.flushSection label⟩
  intro block member
  rcases List.mem_append.mp member with line | last
  · exact clean block line
  · rw [List.mem_singleton.mp last]
    exact errorOf?_totals plain _ false 0

/-- The totals that are due after a row bring no error and leave sums of some of the rows. -/
private theorem flush_within (plain : design.NoPercentages) (row : Row) (next : Option Row)
    (detector : SectionDetector) (within : totals.Within design done) :
    (∀ block ∈ (flush design row next detector totals).1, design.itemFault? (.ok block) = none) ∧
      (flush design row next detector totals).2.Within design done := by
  cases next with
  | none => exact flushSection_within plain row detector within
  | some next =>
    simp only [flush]
    split
    · exact flushSection_within plain row detector within
    · refine flushGroups_within plain row (fun _ member => ?_) within
      exact within.mem_groupColumns (List.mem_filter.mp member).1

/-- Rows that come in order always find a section open, or open one. -/
theorem exists_observe {detector : SectionDetector} {isFirst : Bool}
    (opened : isFirst = true ∨ detector.current.isSome = true) (number : Nat) (key : SectionKey) :
    ∃ isNew next, detector.observe number isFirst key = .ok (isNew, next) ∧
      next.current.isSome = true := by
  rw [SectionDetector.observe]
  split
  · next closed =>
    rcases opened with first | open'
    · simp [first] at closed
    · simp [Option.isNone_eq_false_iff.mpr open'] at closed
  · split
    · exact ⟨true, _, rfl, rfl⟩
    · next stays =>
      refine ⟨false, _, rfl, opened.resolve_left ?_⟩
      intro first
      simp [first] at stays

/-- What a row brings to a script, before its amounts are added, fails with the leftmost value that
cannot be shown. -/
private theorem findSome?_entered (plain : design.NoPercentages) {row : Row}
    (width : row.length = design.columns.length) (isNew : Bool) (key : SectionKey)
    (previous : Option Row) :
    (((headers isNew key ++ [Block.dataRow row previous]).map Except.ok).findSome?
        design.itemFault?) =
      (design.columns.zip row).findSome? fun place => place.1.formatFault? place.2 := by
  have cells : design.itemFault? (.ok (.dataRow row previous)) =
      (design.columns.zip row).findSome? fun place => place.1.formatFault? place.2 :=
    errorOf?_dataRow plain width previous 0 design.options.showGroupsAsRepeat
  have clean : ((headers isNew key).map Except.ok).findSome? design.itemFault? = none := by
    cases isNew <;> rfl
  rw [List.map_append, List.findSome?_append, clean, Option.none_or, ← cells, List.map_singleton,
    List.findSome?_cons]
  cases design.itemFault? (.ok (.dataRow row previous)) <;> rfl

/-- The first error of a script is that of the first row with which something is wrong. -/
theorem findSome?_script (plain : design.NoPercentages) {isFirst : Bool} {account : Account}
    {rows : List Row} (within : account.totals.Within design done)
    (count : account.rowCount = done.length)
    (opened : isFirst = true ∨ account.detector.current.isSome = true)
    (wide : ∀ row ∈ rows, row.length = design.columns.length)
    (range : design.AmountsInRange (done ++ rows)) :
    (script design isFirst account rows).findSome? design.itemFault? =
      design.fault? (done.length + 1) rows := by
  induction rows generalizing isFirst account done with
  | nil =>
    have grand : design.itemFault? (.ok (.grandTotals account.totals.flushGrand)) = none :=
      errorOf?_totals plain _ true 0
    rw [script]
    split <;> simp [grand, Design.fault?]
  | cons row rest ih =>
    obtain ⟨isNew, detector, observed, open'⟩ :=
      exists_observe opened (account.rowCount + 1) (.ofRow design.columns row)
    have entered := findSome?_entered plain (wide row List.mem_cons_self) isNew
      (.ofRow design.columns row) (if isNew then none else account.previous)
    have amounts := errorOf?_rowAmounts design.options.nullSubtotals (done.length + 1)
      design.columns 0 row
    rw [Design.fault?_cons, Design.rowFault?, ← entered, ← amounts]
    rw [count] at observed
    cases read : TotalsTracker.rowAmounts design.options.nullSubtotals (done.length + 1)
        design.columns 0 row with
    | error error =>
      have refused := within.accumulate_eq_error read
      have last : [Except.error error].findSome? design.itemFault? = some error := rfl
      simp only [script, count, observed, refused, List.findSome?_append, last, errorOf?_error,
        Option.or_assoc, Option.some_or]
    | ok found =>
      obtain ⟨added, run, more⟩ := within.exists_accumulate range read
      obtain ⟨clean, left⟩ := flush_within plain row rest.head? detector more
      have silent : ((flush design row rest.head? detector added).1.map Except.ok).findSome?
          design.itemFault? = none := by
        rw [List.findSome?_eq_none_iff]
        intro item member
        obtain ⟨block, known, rfl⟩ := List.mem_map.mp member
        exact clean block known
      let next : Account :=
        ⟨(flush design row rest.head? detector added).2, detector, some row, done.length + 1⟩
      have length : (done ++ [row]).length = done.length + 1 := List.length_append
      have others : (script design false next rest).findSome? design.itemFault? =
          design.fault? (done.length + 1 + 1) rest := by
        rw [← length]
        refine ih left length.symm (.inr open') ?_ ?_
        · exact fun other member => wide other (List.mem_cons_of_mem _ member)
        · rwa [List.append_assoc, List.singleton_append]
      simp only [script, count, observed, run, List.findSome?_append, silent, others, errorOf?_ok,
        Option.or_none, next]

end Account

namespace Press

variable {design : Design}

/-- A block that is printed fails with the error of its cells. -/
theorem errorOf?_print (press : Press) (block : Block) :
    errorOf? (press.print design block) = design.itemFault? (.ok block) := by
  have error : design.itemFault? (.ok block) =
      errorOf? (design.cells block design.options.showGroupsAsRepeat 0) := rfl
  rw [error]
  cases made : design.cells block design.options.showGroupsAsRepeat 0 with
  | error error =>
    rw [print_eq_error design made press]
    rfl
  | ok cells =>
    obtain ⟨printed, run⟩ := exists_print design made press
    rw [run]
    rfl

/-- A script that is printed fails with its first error. -/
theorem errorOf?_printAll (press : Press) (script : Script) :
    errorOf? (press.printAll design script) = script.findSome? design.itemFault? := by
  induction script generalizing press with
  | nil => rfl
  | cons item rest ih =>
    rw [List.findSome?_cons]
    cases item with
    | error error => rfl
    | ok block =>
      rw [printAll_ok_cons, errorOf?_bind fun printed _ => ih printed, errorOf?_print]
      cases design.itemFault? (.ok block) <;> rfl

end Press

/-- With matching columns, no percentages and amounts in range, a layout fails with the error of the
first row with which something is wrong. -/
theorem errorOf?_layOut {design : Design} {cursor : Cursor}
    (width : design.columns.length = cursor.set.columns.length) (plain : design.NoPercentages)
    (range : design.AmountsInRange cursor.set.rows) :
    errorOf? (Report.new cursor design).layOut.1 = design.fault? 1 cursor.set.rows := by
  rw [Report.layOut_new_eq_transcript, if_pos width, errorOf?_map, transcript, errorOf?_map,
    Press.errorOf?_printAll]
  have within : (Account.start design).totals.Within design [] := .start design
  have wide : ∀ row ∈ cursor.set.rows, row.length = design.columns.length :=
    fun row member => (cursor.set.rectangular row member).trans width.symm
  exact Account.findSome?_script plain within rfl (.inl rfl) wide range

/-- Sales with a missing amount in the second row and with one in words in the third. -/
def faultySet : ResultSet where
  columns := ["Region", "City", "Sales"]
  rows := [[.text "A", .text "x", .number (.ofInt 1)], [.text "A", .text "y", .null],
    [.text "B", .text "z", .text "many"]]
  rectangular := by decide

end PagedReport
