import Mathlib.Algebra.BigOperators.Group.List.Basic
import PagedReport.Proofs.Outline

/-! # Reconciliation of totals

Every row of a section is in exactly one run of each group column, and every row of a report in
exactly one section. So the totals of the runs add up to those of their section, and these to the
grand totals, as long as no sum is out of range. At every row of a section, the runs that have ended
and the one that is open are all rows so far.
-/

namespace PagedReport

namespace Block

/-- The totals line of a section. -/
def sectionLine? : Block → Option TotalsLine
  | sectionTotals line => some line
  | _ => none

/-- A totals line of a group column. -/
def groupLine? (column : Nat) : Block → Option TotalsLine
  | groupTotals line => if line.anchor = column then some line else none
  | _ => none

end Block

/-- What rows add up to in a column. -/
def Level.total (level : Level) (index : Nat) (rows : List Row) : ℚ :=
  ((rows.filterMap (level.amount? index)).map fun amount => amount.toRat).sum

/-- All lines have a total in a column, and these add up to a number. -/
def AddUp (index : Nat) (lines : List TotalsLine) (sum : ℚ) : Prop :=
  ∃ totals : List Decimal, lines.map (·.sums.sum? index) = totals.map some ∧
    (totals.map fun total => total.toRat).sum = sum

/-- The runs of a column that end in a part of a section. -/
def endedRuns (column : Nat) : (before rest : List Row) → List (List Row)
  | _, [] => []
  | before, row :: rest =>
    (if rest.head?.all fun next => !sameValue column row next then [lastRun column before row] else []) ++
      endedRuns column (before ++ [row]) rest

/-- The runs that end from a row on have all rows of the run that is open there, and all further
rows of the section. -/
theorem flatten_endedRuns (column : Nat) (before : List Row) (row : Row) (rest : List Row) :
    (endedRuns column before (row :: rest)).flatten = openRun column before row ++ row :: rest := by
  -- A run that a row ends is counted there; one that goes on is the open run of the next row.
  induction rest generalizing before row with
  | nil => simp [endedRuns, lastRun]
  | cons next rest ih =>
    have tail : endedRuns column before (row :: next :: rest) =
        (if !sameValue column row next then [lastRun column before row] else []) ++
          endedRuns column (before ++ [row]) (next :: rest) := rfl
    rw [tail, List.flatten_append, ih, openRun_concat]
    cases sameValue column row next <;> simp [lastRun]

/-- A section is the runs of any of its columns. -/
theorem flatten_endedRuns_nil (column : Nat) (rows : List Row) :
    (endedRuns column [] rows).flatten = rows := by
  cases rows with
  | nil => rfl
  | cons row rest =>
    rw [flatten_endedRuns]
    simp [openRun]

namespace Design

variable (design : Design)

private theorem filterMap_groupLine? {columns : List Nat} (distinct : columns.Nodup) (group : Nat)
    (line : Nat → TotalsLine) (anchored : ∀ column, (line column).anchor = column) :
    (columns.map fun column => Block.groupTotals (line column)).filterMap (Block.groupLine? group) =
      if group ∈ columns then [line group] else [] := by
  induction columns with
  | nil => rfl
  | cons column columns ih =>
    obtain ⟨new, distinct⟩ := List.nodup_cons.mp distinct
    rw [List.map_cons, List.filterMap_cons]
    by_cases same : column = group
    · subst same
      simp [Block.groupLine?, anchored, ih distinct, new]
    · simp [Block.groupLine?, anchored, ih distinct, same, Ne.symm same]

/-- The totals lines of a group column in a part of a section belong to the runs that end there. -/
theorem rowsBlocks_groupLine? {group : Nat} (known : group ∈ groupIndexes design.columns)
    (before rest : List Row) :
    ((design.rowsBlocks before rest).filterMap (Block.groupLine? group)).map TotalsLine.sums =
      (endedRuns group before rest).map (Level.subtotal.sums design.columns) := by
  induction rest generalizing before with
  | nil => rfl
  | cons row rest ih =>
    have here : (design.rowBlocks before row rest.head?).filterMap (Block.groupLine? group) =
        if group ∈ endingGroups design.columns row rest.head? then [design.groupLine before row group]
        else [] := by
      rw [rowBlocks, List.filterMap_cons]
      exact filterMap_groupLine? ((groupIndexes_reverse_nodup _).filter _) group
        (design.groupLine before row) fun _ => rfl
    rw [rowsBlocks, endedRuns, List.filterMap_append, List.map_append, List.map_append, ih, here]
    congr 1
    cases ends : rest.head?.all fun next => !sameValue group row next <;>
      simp [endingGroups, known, ends, groupLine]

theorem rowsBlocks_sectionLine? (before rest : List Row) :
    (design.rowsBlocks before rest).filterMap Block.sectionLine? = [] := by
  induction rest generalizing before with
  | nil => rfl
  | cons row rest ih =>
    rw [rowsBlocks, List.filterMap_append, ih]
    simp [rowBlocks, Block.sectionLine?]

theorem sectionBlocks_groupLine? {group : Nat} (known : group ∈ groupIndexes design.columns)
    (rows : List Row) :
    ((design.sectionBlocks rows).filterMap (Block.groupLine? group)).map TotalsLine.sums =
      (endedRuns group [] rows).map (Level.subtotal.sums design.columns) := by
  cases rows with
  | nil => rfl
  | cons first rest =>
    rw [← design.rowsBlocks_groupLine? known]
    simp [sectionBlocks, List.filterMap_cons, Block.groupLine?]

theorem sectionBlocks_sectionLine? (first : Row) (rest : List Row) :
    (design.sectionBlocks (first :: rest)).filterMap Block.sectionLine? =
      [design.sectionLine first (first :: rest)] := by
  simp [sectionBlocks, List.filterMap_cons, Block.sectionLine?, rowsBlocks_sectionLine?]

theorem flatMap_sectionLine? {groups : List (List Row)} (filled : [] ∉ groups) :
    ((groups.flatMap design.sectionBlocks).filterMap Block.sectionLine?).map TotalsLine.sums =
      groups.map (Level.subtotal.sums design.columns) := by
  induction groups with
  | nil => rfl
  | cons group groups ih =>
    cases group with
    | nil => exact absurd List.mem_cons_self filled
    | cons first rest =>
      rw [List.flatMap_cons, List.filterMap_append, sectionBlocks_sectionLine?, List.map_append,
        ih fun empty => filled (List.mem_cons_of_mem _ empty)]
      rfl

end Design

/-- Rows that belong to runs have what the runs have together. -/
private theorem total_append (level : Level) (index : Nat) (first second : List Row) :
    level.total index (first ++ second) = level.total index first + level.total index second := by
  simp [Level.total]

/-- The totals of runs add up to the total of all their rows. -/
theorem addUp_of_runs {index places : Nat} {columns : List Column} {column : Column}
    (found : columns[index]? = some column) (active : column.subtotal = true) {runs : List (List Row)}
    {lines : List TotalsLine}
    (owned : lines.map TotalsLine.sums = runs.map (Level.subtotal.sums columns))
    (range : Decimal.InRange places (runs.flatten.filterMap (Level.subtotal.amount? index))) :
    AddUp index lines (Level.subtotal.total index runs.flatten) := by
  induction runs generalizing lines with
  | nil =>
    obtain rfl := List.map_eq_nil_iff.mp owned
    exact ⟨[], rfl, rfl⟩
  | cons run runs ih =>
    cases lines with
    | nil => cases owned
    | cons line lines =>
      obtain ⟨same, others⟩ := List.cons.inj owned
      rw [List.flatten_cons, List.filterMap_append] at range
      obtain ⟨total, here, value⟩ := (range.sublist (List.sublist_append_left _ _)).total?_eq
      obtain ⟨totals, there, sum⟩ := ih others (range.sublist (List.sublist_append_right _ _))
      refine ⟨total :: totals, ?_, ?_⟩
      · rw [List.map_cons, List.map_cons, there, same,
          Level.subtotal.sum?_sums found active, here]
      · rw [List.map_cons, List.sum_cons, sum, value, List.flatten_cons, total_append]
        rfl

/-- Nulls, which count as zero in grand totals, do not change a sum. -/
theorem sum_map_grand {M : Type} [AddMonoid M] (f : Decimal → M) (null : f .zero = 0) (index : Nat)
    (rows : List Row) :
    ((rows.filterMap (Level.grand.amount? index)).map f).sum =
      ((rows.filterMap (Level.subtotal.amount? index)).map f).sum := by
  induction rows with
  | nil => rfl
  | cons row rest ih =>
    rw [List.filterMap_cons, List.filterMap_cons]
    cases found : row[index]? with
    | none => simpa [Level.amount?, found] using ih
    | some value =>
      cases amount : value.toDecimal? <;>
        simp [Level.amount?, Level.amountOf, found, amount, null, ih]

theorem inRange_grand {places index : Nat} {rows : List Row}
    (range : Decimal.InRange places (rows.filterMap (Level.subtotal.amount? index))) :
    Decimal.InRange places (rows.filterMap (Level.grand.amount? index)) where
  short amount member := by
    obtain ⟨row, known, found⟩ := List.mem_filterMap.mp member
    obtain ⟨value, stored, made⟩ := Option.bind_eq_some_iff.mp found
    obtain rfl := Option.some.inj made
    cases there : value.toDecimal? with
    | none => exact Nat.zero_le _
    | some number =>
      refine range.short number (List.mem_filterMap.mpr ⟨row, known, ?_⟩)
      exact Option.bind_eq_some_iff.mpr ⟨value, stored, there⟩
  sum_le := by
    rw [sum_map_grand _ (Decimal.magnitude_zero places)]
    exact range.sum_le

/-- The totals of the sections of rows add up to what the rows have. -/
theorem addUp_sections {design : Design} {index places : Nat} {column : Column}
    (found : design.columns[index]? = some column) (active : column.subtotal = true) {rows : List Row}
    (range : Decimal.InRange places (rows.filterMap (Level.subtotal.amount? index))) :
    AddUp index ((design.outline rows).filterMap Block.sectionLine?) (Level.subtotal.total index rows) := by
  have whole : (sections design.columns rows).flatten = rows := List.flatten_splitBy _ rows
  have grand : (design.grandBlocks rows).filterMap Block.sectionLine? = [] := by
    cases wanted : design.options.grandTotals <;> simp [Design.grandBlocks, wanted, Block.sectionLine?]
  have owned : ((design.outline rows).filterMap Block.sectionLine?).map TotalsLine.sums =
      (sections design.columns rows).map (Level.subtotal.sums design.columns) := by
    rw [Design.outline, List.filterMap_append, grand, List.append_nil]
    exact design.flatMap_sectionLine? (List.nil_notMem_splitBy _ rows)
  have sums := addUp_of_runs found active owned (whole.symm ▸ range)
  rwa [whole] at sums

/-- In a successful layout the grand total of a column is what its section totals add up to, and in
each section the section total is what the totals of any group column add up to, if the amounts of
the column are in range. -/
theorem totals_reconcile {design : Design} {cursor : Cursor} {pages : List Page} {index : Nat}
    {column : Column} (found : design.columns[index]? = some column) (numeric : column.isNumeric = true)
    (active : column.subtotal = true)
    (success : (Report.new cursor design).layOut.1 = .ok pages)
    (range : Decimal.SumInRange (cursor.set.rows.filterMap (Level.subtotal.amount? index))) :
    ∃ sheets, transcript design cursor.set.rows = .ok sheets ∧ pages = sheets.map Sheet.cells ∧
      (body sheets).map Batch.block =
        (sections design.columns cursor.set.rows).flatMap design.sectionBlocks ++
          design.grandBlocks cursor.set.rows ∧
      (∃ grand, (design.grandLine cursor.set.rows).sums.sum? index = some grand ∧
        grand.toRat = Level.grand.total index cursor.set.rows ∧
        AddUp index (((body sheets).map Batch.block).filterMap Block.sectionLine?) grand.toRat) ∧
      ∀ section' ∈ sections design.columns cursor.set.rows, ∃ line total,
        (design.sectionBlocks section').filterMap Block.sectionLine? = [line] ∧
        line.sums.sum? index = some total ∧
        total.toRat = Level.subtotal.total index section' ∧
        ∀ group ∈ groupIndexes design.columns,
          AddUp index ((design.sectionBlocks section').filterMap (Block.groupLine? group)) total.toRat := by
  obtain ⟨sheets, run, divided⟩ := Report.exists_transcript success
  have range := range.inRange
  have outline := body_eq_outline run
  refine ⟨sheets, run, divided, outline, ?_, ?_⟩
  · obtain ⟨grand, made, value⟩ := (inRange_grand range).total?_eq
    have stored : (design.grandLine cursor.set.rows).sums.sum? index = some grand :=
      (Level.grand.sum?_sums found numeric _).trans made
    refine ⟨grand, stored, value, ?_⟩
    rw [outline, value, sum_map_grand _ Decimal.toRat_zero]
    exact addUp_sections found active range
  · intro section' member
    have part : (section'.filterMap (Level.subtotal.amount? index)).Sublist
        (cursor.set.rows.filterMap (Level.subtotal.amount? index)) := by
      rw [← List.flatten_splitBy (sameSection design.columns) cursor.set.rows]
      exact (List.sublist_flatten_of_mem member).filterMap _
    obtain ⟨total, made, value⟩ := (range.sublist part).total?_eq
    obtain ⟨first, rest, rfl⟩ := List.exists_cons_of_ne_nil (List.ne_nil_of_mem_splitBy member)
    have stored : (design.sectionLine first (first :: rest)).sums.sum? index = some total :=
      (Level.subtotal.sum?_sums found active _).trans made
    refine ⟨_, total, design.sectionBlocks_sectionLine? first rest, stored, value, ?_⟩
    intro group known
    have sums := addUp_of_runs found active (design.sectionBlocks_groupLine? known (first :: rest))
      ((flatten_endedRuns_nil group (first :: rest)).symm ▸ range.sublist part)
    rwa [flatten_endedRuns_nil, Level.total, ← value] at sums

/-- The sales of three and of four in two sections are seven in all. -/
theorem totals_sales_reconcile :
    Decimal.SumInRange (salesSet.rows.filterMap (Level.subtotal.amount? 2)) ∧
      ∃ pages, (Report.new (Cursor.ofSet salesSet) (salesDesign 60)).layOut.1 = .ok pages ∧
        ∃ sheets, transcript (salesDesign 60) salesSet.rows = .ok sheets ∧
          AddUp 2 (((body sheets).map Batch.block).filterMap Block.sectionLine?) 7 := by
  have range : Decimal.SumInRange (salesSet.rows.filterMap (Level.subtotal.amount? 2)) :=
    show 7 ≤ Decimal.limit by decide
  obtain ⟨pages, success, _⟩ := exists_layOut_sales
  have sales : (salesDesign 60).columns[2]? = some { Column.numeric "Sales" 40 with subtotal := true } := rfl
  obtain ⟨sheets, run, _, _, ⟨grand, made, _, sums⟩, _⟩ := totals_reconcile sales rfl rfl success range
  have seven : ((salesDesign 60).grandLine salesSet.rows).sums.sum? 2 = some (.ofInt 7) := rfl
  have same : grand = .ofInt 7 := Option.some.inj (made.symm.trans seven)
  have value : (Decimal.ofInt 7).toRat = 7 := show ((7 : Int) : ℚ) / (1 : Nat) = 7 by norm_num
  rw [same, value] at sums
  exact ⟨range, pages, success, sheets, run, sums⟩

end PagedReport
