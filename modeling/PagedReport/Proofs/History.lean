import PagedReport.Proofs.Decimal.Value
import PagedReport.Proofs.Outcome
import PagedReport.Totals

/-! # Totals and the rows behind them

Every sum of a tracker is the total of an amount over certain rows: all rows for the grand totals,
the rows of the open section, and for each group column the rows of its open run. Adding a row
appends it to all of these lists, and a totals line that is taken empties one of them.
-/

namespace PagedReport

/-- The two kinds of totals. -/
inductive Level where
  /-- The totals of the whole report. -/
  | grand
  /-- The totals of sections and groups. -/
  | subtotal
deriving DecidableEq, Repr

namespace Level

/-- Which columns have totals of this kind. -/
def accumulates : Level → Column → Bool
  | grand => Column.isNumeric
  | subtotal => Column.subtotal

/-- What a value adds. A null counts as zero in the grand totals, and for nothing elsewhere. -/
def amountOf (level : Level) (value : Value) : Option Decimal :=
  match level with
  | grand => some (value.toDecimal?.getD .zero)
  | subtotal => value.toDecimal?

/-- What a row adds in a column that has totals. -/
def amount? (level : Level) (index : Nat) (row : Row) : Option Decimal :=
  (row[index]?).bind level.amountOf

/-- The part of the amounts of a row that belongs to these totals. -/
def amounts (level : Level) (found : RowAmounts) : List Amount :=
  match level with
  | grand => found.grand
  | subtotal => found.subtotal

/-- The totals of rows, column by column. -/
def sums (level : Level) (columns : List Column) (rows : List Row) : Sums :=
  columns.mapIdx fun index column =>
    if level.accumulates column then Decimal.total? (rows.filterMap (level.amount? index)) else none

theorem sum?_sums (level : Level) {columns : List Column} {index : Nat} {column : Column}
    (found : columns[index]? = some column) (active : level.accumulates column = true)
    (rows : List Row) :
    (level.sums columns rows).sum? index = Decimal.total? (rows.filterMap (level.amount? index)) := by
  simp [Sums.sum?, sums, found, active]

/-- A total that there is belongs to a column that has totals. -/
theorem exists_of_sum?_sums (level : Level) {columns : List Column} {rows : List Row} {index : Nat}
    {sum : Decimal} (held : (level.sums columns rows).sum? index = some sum) :
    ∃ column, columns[index]? = some column ∧ level.accumulates column = true ∧
      Decimal.total? (rows.filterMap (level.amount? index)) = some sum := by
  cases found : columns[index]? with
  | none => simp [Sums.sum?, sums, found] at held
  | some column =>
    cases active : level.accumulates column with
    | false => simp [Sums.sum?, sums, found, active] at held
    | true => exact ⟨column, rfl, active, (level.sum?_sums found active rows).symm.trans held⟩

end Level

/-- The values of the amounts in one column. -/
def Amount.inColumn (column : Nat) (amounts : List Amount) : List Decimal :=
  amounts.filterMap fun amount => if amount.column = column then some amount.value else none

@[simp] theorem Amount.inColumn_append (column : Nat) (first second : List Amount) :
    inColumn column (first ++ second) = inColumn column first ++ inColumn column second :=
  List.filterMap_append

theorem Amount.inColumn_map_mk (column index : Nat) (values : List Decimal) :
    inColumn column (values.map fun value => ⟨index, value⟩) = if index = column then values else [] := by
  by_cases same : index = column <;> simp [inColumn, List.filterMap_map, same]

namespace Sums

/-- A list of sums with a sum for a column has totals. -/
theorem hasTotals_of_sum? {sums : Sums} {index : Nat} (given : (sums.sum? index).isSome = true) :
    sums.hasTotals = true := by
  obtain ⟨total, found⟩ := Option.isSome_iff_exists.mp given
  have member : some total ∈ sums := List.mem_of_getElem? (Option.join_eq_some_iff.mp found)
  exact List.any_eq_true.mpr ⟨some total, member, rfl⟩

/-- Amounts added one after the other. -/
def addAll? (sums : Sums) (amounts : List Amount) : Option Sums :=
  amounts.foldlM (fun sums amount => sums.add? amount.column amount.value) sums

/-- What adding an amount in one column does. -/
private theorem add?_eq_some {sums added : Sums} {column : Nat} {amount : Decimal}
    (run : sums.add? column amount = some added) :
    sums.sum? column = none ∧ added = sums ∨
      ∃ bound : column < sums.length, ∃ sum total, sums[column] = some sum ∧
        sum.add? amount = some total ∧ added = sums.set column (some total) := by
  unfold add? at run
  split at run
  · next missing => exact .inl ⟨missing, (Option.some.inj run).symm⟩
  · next sum found =>
    obtain ⟨total, placed, same⟩ := Option.map_eq_some_iff.mp run
    obtain ⟨bound, stored⟩ := List.getElem?_eq_some_iff.mp (Option.join_eq_some_iff.mp found)
    exact .inr ⟨bound, sum, total, stored, placed, same.symm⟩

/-- An amount is added in its column alone. -/
theorem getElem?_add? {sums added : Sums} {column : Nat} {amount : Decimal}
    (run : sums.add? column amount = some added) (index : Nat) :
    added[index]? = (sums[index]?).map fun sum =>
      if column = index then sum.bind (·.add? amount) else sum := by
  by_cases same : column = index
  · subst same
    rcases add?_eq_some run with ⟨missing, rfl⟩ | ⟨bound, sum, total, stored, placed, rfl⟩
    · cases found : added[column]? with
      | none => rfl
      | some sum =>
        obtain rfl : sum = none := by simpa [sum?, found] using missing
        simp
    · simp [bound, stored, placed]
  · rcases add?_eq_some run with ⟨_, rfl⟩ | ⟨_, _, _, _, _, rfl⟩ <;> simp [same]

private theorem isSome_add? {sums added : Sums} {column : Nat} {amount : Decimal}
    (run : sums.add? column amount = some added) :
    added.map Option.isSome = sums.map Option.isSome := by
  rcases add?_eq_some run with ⟨_, rfl⟩ | ⟨bound, sum, total, stored, _, rfl⟩
  · rfl
  · apply List.ext_getElem?
    intro index
    by_cases same : column = index
    · subst same
      simp [bound, stored]
    · simp [same]

/-- Amounts are added in each column by themselves. -/
theorem getElem?_addAll? {sums added : Sums} {amounts : List Amount}
    (run : sums.addAll? amounts = some added) (index : Nat) :
    added[index]? = (sums[index]?).map fun sum =>
      sum.bind fun start => (Amount.inColumn index amounts).foldlM Decimal.add? start := by
  induction amounts generalizing sums with
  | nil =>
    cases run
    simp [Amount.inColumn]
  | cons amount rest ih =>
    obtain ⟨next, first, others⟩ := Option.bind_eq_some_iff.mp run
    rw [ih others, getElem?_add? first, Option.map_map]
    apply congrArg (Option.map · _)
    funext sum
    by_cases same : amount.column = index <;>
      cases sum <;> simp [Amount.inColumn, same]

/-- Adding amounts leaves it open in no column whether there is a sum. -/
theorem isSome_addAll? {sums added : Sums} {amounts : List Amount}
    (run : sums.addAll? amounts = some added) :
    added.map Option.isSome = sums.map Option.isSome := by
  induction amounts generalizing sums with
  | nil => cases run; rfl
  | cons amount rest ih =>
    obtain ⟨next, first, others⟩ := Option.bind_eq_some_iff.mp run
    rw [ih others, isSome_add? first]

/-- Sums are those of rows if they hold the total of the rows in every column that has totals, and
none of these is out of range. -/
structure IsSum (level : Level) (columns : List Column) (rows : List Row) (sums : Sums) : Prop where
  eq_sums : sums = level.sums columns rows
  active : sums.map Option.isSome = columns.map level.accumulates

end Sums

namespace TotalsTracker

private theorem amountOf_eq {column : Column} {value : Value} {amount : Option Decimal}
    (run : amountOf column value = .ok amount) : amount = value.toDecimal? := by
  unfold amountOf at run
  split at run
  · next null =>
    cases run
    cases value <;> first | rfl | cases null
  · split at run
    · next found => cases run; exact found.symm
    · cases run

private theorem amountsOf_eq {policy : NullSubtotals} {number : Nat} {column : Column} {index : Nat}
    {value : Value} {found : RowAmounts}
    (run : amountsOf policy number column index value = .ok found) (level : Level) :
    level.amounts found =
      (if level.accumulates column then level.amountOf value else none).toList.map fun amount =>
        ⟨index, amount⟩ := by
  unfold amountsOf at run
  split at run
  · next idle =>
    obtain ⟨other, free⟩ : column.isNumeric = false ∧ column.subtotal = false := by simpa using idle
    cases run
    cases level <;> simp [Level.amounts, Level.accumulates, other, free]
  · obtain ⟨amount, read, rest⟩ := bind_eq_ok_iff.mp run
    obtain rfl := amountOf_eq read
    dsimp only at rest
    -- What becomes of the subtotals does not depend on the grand totals, nor the other way round.
    generalize grand : (if column.isNumeric then [(⟨index, value.toDecimal?.getD .zero⟩ : Amount)]
      else []) = part at rest
    have parts : found.grand = part ∧ found.subtotal =
        if column.subtotal then value.toDecimal?.toList.map fun amount => ⟨index, amount⟩ else [] := by
      cases total : column.subtotal with
      | false =>
        rw [total] at rest
        cases rest
        exact ⟨rfl, rfl⟩
      | true =>
        simp only [total, Bool.not_true, Bool.false_eq_true, ↓reduceIte] at rest
        split at rest
        · next there => cases rest; exact ⟨rfl, by rw [there]; rfl⟩
        · next there => cases rest; exact ⟨rfl, by rw [there]; rfl⟩
        · cases rest
    obtain ⟨inGrand, inSubtotal⟩ := parts
    cases level with
    | grand =>
      rw [show Level.grand.accumulates column = column.isNumeric from rfl]
      change found.grand = _
      rw [inGrand, ← grand]
      cases column.isNumeric <;> rfl
    | subtotal =>
      rw [show Level.subtotal.accumulates column = column.subtotal from rfl]
      change found.subtotal = _
      rw [inSubtotal]
      cases column.subtotal <;> rfl

/-- What a row adds in one column. -/
theorem inColumn_rowAmounts {policy : NullSubtotals} {number : Nat} {columns : List Column}
    {start : Nat} {row : Row} {found : RowAmounts}
    (run : rowAmounts policy number columns start row = .ok found) (level : Level) (index : Nat) :
    Amount.inColumn index (level.amounts found) =
      if start ≤ index then
        ((columns[index - start]?).bind fun column =>
          if level.accumulates column then level.amount? (index - start) row else none).toList
      else [] := by
  induction columns generalizing start row found with
  | nil =>
    cases run
    cases level <;> simp [Level.amounts, Amount.inColumn]
  | cons column columns ih =>
    cases row with
    | nil =>
      cases run
      cases level <;> simp [Level.amounts, Level.amount?, Amount.inColumn]
    | cons value row =>
      obtain ⟨here, first, others⟩ := bind_eq_ok_iff.mp run
      obtain ⟨rest, below, same⟩ := bind_eq_ok_iff.mp others
      cases same
      have joined : level.amounts ⟨here.grand ++ rest.grand, here.subtotal ++ rest.subtotal⟩ =
          level.amounts here ++ level.amounts rest := by cases level <;> rfl
      rw [joined, Amount.inColumn_append, ih below, amountsOf_eq first, Amount.inColumn_map_mk]
      rcases Nat.lt_trichotomy index start with before | rfl | after
      · rw [if_neg (by omega), if_neg (by omega), if_neg (by omega)]
        rfl
      · simp [Level.amount?]
      · obtain ⟨offset, rfl⟩ := Nat.exists_eq_add_of_lt after
        rw [if_neg (by omega), if_pos (by omega), if_pos (by omega),
          show start + offset + 1 - start = offset + 1 by omega,
          show start + offset + 1 - (start + 1) = offset by omega]
        rfl

end TotalsTracker

namespace Sums.IsSum

variable {level : Level} {columns : List Column} {rows : List Row} {sums : Sums}

/-- At the start all sums are those of no rows. -/
theorem start (level : Level) (columns : List Column) :
    IsSum level columns [] (Sums.start (columns.map level.accumulates)) where
  eq_sums := by
    apply List.ext_getElem?
    intro index
    cases found : columns[index]? <;> simp [Sums.start, Level.sums, Decimal.total?, found]
  active := by
    simp only [Sums.start, List.map_map]
    apply List.map_congr_left
    intro column _
    cases on : level.accumulates column <;> simp [on]

/-- Sums that are reset are those of no rows. -/
theorem reset (sum : IsSum level columns rows sums) : IsSum level columns [] sums.reset := by
  have same : sums.reset = Sums.start (columns.map level.accumulates) := by
    rw [← sum.active, Sums.start, Sums.reset, List.map_map]
    apply List.map_congr_left
    intro entry _
    cases entry <;> rfl
  rw [same]
  exact start level columns

/-- Sums with the amounts of a row added are those of the rows and this one. -/
theorem add {policy : NullSubtotals} {number : Nat} {row : Row} {found : RowAmounts} {added : Sums}
    (sum : IsSum level columns rows sums)
    (read : TotalsTracker.rowAmounts policy number columns 0 row = .ok found)
    (run : sums.addAll? (level.amounts found) = some added) :
    IsSum level columns (rows ++ [row]) added where
  eq_sums := by
    apply List.ext_getElem?
    intro index
    rw [Sums.getElem?_addAll? run, TotalsTracker.inColumn_rowAmounts read, if_pos (Nat.zero_le _),
      sum.eq_sums, Nat.sub_zero]
    simp only [Level.sums, List.getElem?_mapIdx, Option.map_map]
    cases there : columns[index]? with
    | none => rfl
    | some column =>
      cases on : level.accumulates column with
      | false => simp [on]
      | true =>
        have last : [row].filterMap (level.amount? index) = (level.amount? index row).toList := by
          cases adds : level.amount? index row <;> simp [adds]
        simp only [Option.map_some, Function.comp_apply, on, ↓reduceIte, Option.bind_some,
          List.filterMap_append, last, Decimal.total?, List.foldlM_append]
        rfl
  active := (Sums.isSome_addAll? run).trans sum.active

end Sums.IsSum

/-- The indexes of the group columns, ascending. -/
def groupIndexes (columns : List Column) : List Nat :=
  (columns.zipIdx.filter fun (column, _) => column.isGroup).map (·.2)

namespace TotalsTracker

/-- The sums of a tracker are those of all rows, of the rows of the open section, and for each group
column of the rows of its open run. -/
structure Tracks (columns : List Column) (tracker : TotalsTracker) (all current : List Row)
    (runs : Nat → List Row) : Prop where
  columns_eq : tracker.columns = columns
  indexes : tracker.groupSums.map (·.1) = groupIndexes columns
  grand : Sums.IsSum .grand columns all tracker.grandSums
  current : Sums.IsSum .subtotal columns current tracker.sectionSums
  groups : ∀ entry ∈ tracker.groupSums, Sums.IsSum .subtotal columns (runs entry.1) entry.2

theorem addAmount_eq_ok {tracker : TotalsTracker} {number : Nat} {amount : Amount}
    {sums added : Sums} (run : tracker.addAmount number sums amount = .ok added) :
    sums.add? amount.column amount.value = some added := by
  unfold addAmount at run
  split at run
  · next found => exact found.trans (congrArg some (Except.ok.inj run))
  · cases run

/-- Amounts that are added one by one are added. -/
theorem foldlM_addAmount {tracker : TotalsTracker} {number : Nat} {amounts : List Amount}
    {sums added : Sums} (run : amounts.foldlM (tracker.addAmount number) sums = .ok added) :
    sums.addAll? amounts = some added := by
  induction amounts generalizing sums with
  | nil => cases run; rfl
  | cons amount rest ih =>
    obtain ⟨next, first, others⟩ := bind_eq_ok_iff.mp run
    exact Option.bind_eq_some_iff.mpr ⟨next, addAmount_eq_ok first, ih others⟩

/-- Amounts have been added to the section and to every group. -/
structure AddsSubtotals (amounts : List Amount) (tracker added : TotalsTracker) : Prop where
  columns_eq : added.columns = tracker.columns
  nullSubtotals_eq : added.nullSubtotals = tracker.nullSubtotals
  grandSums_eq : added.grandSums = tracker.grandSums
  current : tracker.sectionSums.addAll? amounts = some added.sectionSums
  groups : List.Forall₂ (fun entry result => result.1 = entry.1 ∧
    entry.2.addAll? amounts = some result.2) tracker.groupSums added.groupSums

private theorem addsSubtotals_nil (tracker : TotalsTracker) : AddsSubtotals [] tracker tracker where
  columns_eq := rfl
  nullSubtotals_eq := rfl
  grandSums_eq := rfl
  current := rfl
  groups := List.forall₂_same.mpr fun _ _ => ⟨rfl, rfl⟩

private theorem addsSubtotals_cons {number : Nat} {tracker next added : TotalsTracker}
    {amount : Amount} {rest : List Amount} (run : tracker.addSubtotal number amount = .ok next)
    (others : AddsSubtotals rest next added) : AddsSubtotals (amount :: rest) tracker added := by
  obtain ⟨sectionSums, inSection, entered⟩ := bind_eq_ok_iff.mp run
  obtain ⟨groupSums, inGroups, same⟩ := bind_eq_ok_iff.mp entered
  cases same
  refine ⟨others.columns_eq, others.nullSubtotals_eq, others.grandSums_eq, ?_, ?_⟩
  · exact Option.bind_eq_some_iff.mpr ⟨sectionSums, addAmount_eq_ok inSection, others.current⟩
  · refine forall₂_of_common ?_ (mapM_eq_ok_iff.mp inGroups).flip others.groups
    rintro middle entry result made ⟨index, placed⟩
    obtain ⟨sums, first, same⟩ := bind_eq_ok_iff.mp made
    cases same
    exact ⟨index, Option.bind_eq_some_iff.mpr ⟨sums, addAmount_eq_ok first, placed⟩⟩

theorem addsSubtotals_of_foldlM {number : Nat} {tracker added : TotalsTracker}
    {amounts : List Amount} (run : amounts.foldlM (addSubtotal number) tracker = .ok added) :
    AddsSubtotals amounts tracker added := by
  induction amounts generalizing tracker with
  | nil => cases run; exact addsSubtotals_nil _
  | cons amount rest ih =>
    obtain ⟨next, first, others⟩ := bind_eq_ok_iff.mp run
    exact addsSubtotals_cons first (ih others)

/-- The groups stay the same. -/
private theorem AddsSubtotals.indexes {amounts : List Amount} {tracker added : TotalsTracker}
    (adds : AddsSubtotals amounts tracker added) :
    added.groupSums.map (·.1) = tracker.groupSums.map (·.1) := by
  refine (List.forall₂_eq_eq_eq ▸ ?_ : added.groupSums.map (·.1) = tracker.groupSums.map (·.1))
  rw [List.forall₂_map_left_iff, List.forall₂_map_right_iff]
  exact (adds.groups.imp fun _ _ related => related.1).flip

/-- The policy about nulls stays as it is when a row is added. -/
theorem nullSubtotals_of_accumulate {tracker added : TotalsTracker} {number : Nat} {row : Row}
    (run : tracker.accumulate number row = .ok added) : added.nullSubtotals = tracker.nullSubtotals := by
  obtain ⟨_, _, rest⟩ := bind_eq_ok_iff.mp run
  obtain ⟨_, _, subtotals⟩ := bind_eq_ok_iff.mp rest
  exact (addsSubtotals_of_foldlM subtotals).nullSubtotals_eq

/-- The policy about nulls stays as it is when the totals line of a group is taken. -/
theorem nullSubtotals_of_flushGroup {tracker flushed : TotalsTracker} {column : Nat} {label : String}
    {line : TotalsLine} (found : tracker.flushGroup column label = some (line, flushed)) :
    flushed.nullSubtotals = tracker.nullSubtotals := by
  obtain ⟨_, _, same⟩ := Option.map_eq_some_iff.mp found
  rw [← (Prod.mk.inj same).2]

namespace Tracks

variable {columns : List Column} {tracker : TotalsTracker} {all current : List Row}
variable {runs : Nat → List Row}

/-- At the start there are no rows. -/
theorem start (columns : List Column) (policy : NullSubtotals) :
    Tracks columns (.start columns policy) [] [] fun _ => [] where
  columns_eq := rfl
  indexes := by simp [TotalsTracker.start, groupIndexes]
  grand := .start .grand columns
  current := .start .subtotal columns
  groups entry member := by
    obtain ⟨_, _, rfl⟩ := List.mem_map.mp member
    exact .start .subtotal columns

/-- A row is added to all rows, to those of its section and to the open runs of all groups. -/
theorem accumulate (tracks : tracker.Tracks columns all current runs) {number : Nat} {row : Row}
    {added : TotalsTracker} (run : tracker.accumulate number row = .ok added) :
    added.Tracks columns (all ++ [row]) (current ++ [row]) fun group => runs group ++ [row] := by
  obtain ⟨found, read, rest⟩ := bind_eq_ok_iff.mp run
  obtain ⟨grandSums, grand, subtotals⟩ := bind_eq_ok_iff.mp rest
  rw [tracks.columns_eq] at read
  have adds := addsSubtotals_of_foldlM subtotals
  refine ⟨adds.columns_eq.trans tracks.columns_eq, adds.indexes.trans tracks.indexes, ?_, ?_, ?_⟩
  · rw [adds.grandSums_eq]
    exact tracks.grand.add read (foldlM_addAmount grand)
  · exact tracks.current.add read adds.current
  · intro entry member
    obtain ⟨source, known, same, placed⟩ := exists_of_mem_right adds.groups member
    rw [same]
    exact (tracks.groups source known).add read placed

/-- The totals line of a section has the sums of its rows, and empties it. -/
theorem flushSection (tracks : tracker.Tracks columns all current runs) (label : String) :
    (tracker.flushSection label).1 = ⟨label, 0, Level.subtotal.sums columns current⟩ ∧
      (tracker.flushSection label).2.Tracks columns all [] runs := by
  refine ⟨congrArg (TotalsLine.mk label 0) tracks.current.eq_sums, ?_⟩
  exact { tracks with current := tracks.current.reset }

/-- The totals line of a group column has the sums of its open run, and empties that. -/
theorem flushGroup (tracks : tracker.Tracks columns all current runs) {column : Nat}
    (group : column ∈ groupIndexes columns) (label : String) :
    ∃ flushed, tracker.flushGroup column label =
        some (⟨label, column, Level.subtotal.sums columns (runs column)⟩, flushed) ∧
      flushed.Tracks columns all current fun other => if other = column then [] else runs other := by
  have known : (tracker.groupSums.lookup column).isSome = true := by
    rw [← tracks.indexes] at group
    obtain ⟨entry, member, rfl⟩ := List.mem_map.mp group
    exact List.lookup_isSome_iff.mpr ⟨entry, member, beq_self_eq_true _⟩
  obtain ⟨sums, found⟩ := Option.isSome_iff_exists.mp known
  have member : (column, sums) ∈ tracker.groupSums := by
    obtain ⟨before, after, same, _⟩ := List.lookup_eq_some_iff.mp found
    rw [same]
    exact List.mem_append_right _ List.mem_cons_self
  let groupSums := tracker.groupSums.map fun entry =>
    (entry.1, if entry.1 = column then entry.2.reset else entry.2)
  refine ⟨{ tracker with groupSums }, ?_, tracks.columns_eq, ?_, tracks.grand, tracks.current, ?_⟩
  · rw [TotalsTracker.flushGroup, found, ← show sums = _ from (tracks.groups _ member).eq_sums]
    rfl
  · rw [← tracks.indexes, List.map_map]
    rfl
  · intro entry placed
    obtain ⟨source, included, rfl⟩ := List.mem_map.mp placed
    dsimp only
    split
    · exact (tracks.groups source included).reset
    · exact tracks.groups source included

/-- A column that is no group column has no totals line of its own. -/
theorem flushGroup_eq_none (tracks : tracker.Tracks columns all current runs) {column : Nat}
    (other : column ∉ groupIndexes columns) (label : String) : tracker.flushGroup column label = none := by
  rw [TotalsTracker.flushGroup, Option.map_eq_none_iff, List.lookup_eq_none_iff]
  intro entry member
  rw [bne_iff_ne]
  rintro rfl
  rw [← tracks.indexes] at other
  exact other (List.mem_map_of_mem member)

/-- The grand totals are those of all rows. -/
theorem flushGrand (tracks : tracker.Tracks columns all current runs) :
    tracker.flushGrand = ⟨"", 0, Level.grand.sums columns all⟩ :=
  congrArg (TotalsLine.mk "" 0) tracks.grand.eq_sums

/-- Only the runs of group columns matter. -/
theorem congr (tracks : tracker.Tracks columns all current runs) {runs' : Nat → List Row}
    (same : ∀ column ∈ groupIndexes columns, runs column = runs' column) :
    tracker.Tracks columns all current runs' where
  columns_eq := tracks.columns_eq
  indexes := tracks.indexes
  grand := tracks.grand
  current := tracks.current
  groups entry member := by
    have group : entry.1 ∈ groupIndexes columns := tracks.indexes ▸ List.mem_map_of_mem member
    rw [← same entry.1 group]
    exact tracks.groups entry member

theorem groupColumns_eq (tracks : tracker.Tracks columns all current runs) :
    tracker.groupColumns = (groupIndexes columns).reverse :=
  congrArg List.reverse tracks.indexes

end Tracks

end TotalsTracker

end PagedReport
