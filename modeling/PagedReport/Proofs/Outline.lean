import Mathlib.Data.List.DropRight
import Mathlib.Data.List.SplitBy
import PagedReport.Proofs.Agreement
import PagedReport.Proofs.Body
import PagedReport.Proofs.History

/-! # The outline of a report

What a report consists of can be told from its rows without reading them one by one: they fall into
sections, each section has headers, its rows and its totals, and the totals of a group stand below
the last row of each of its runs. A script that meets no error is this outline.
-/

namespace PagedReport

/-- The sections of rows: the longest runs of consecutive rows whose keys agree. -/
def sections (columns : List Column) (rows : List Row) : List (List Row) :=
  rows.splitBy (sameSection columns)

/-- The last rows of a section so far that have the value of the next one in a column. -/
def openRun (column : Nat) (before : List Row) (row : Row) : List Row :=
  before.rtakeWhile (sameValue column · row)

/-- The run of a column that a row ends. -/
def lastRun (column : Nat) (before : List Row) (row : Row) : List Row :=
  openRun column before row ++ [row]

/-- The group columns with a run that ends before the next row of the section, the innermost first.
At the end of the section all of them do. -/
def endingGroups (columns : List Column) (row : Row) (next : Option Row) : List Nat :=
  (groupIndexes columns).reverse.filter fun column => next.all fun next => !sameValue column row next

namespace Design

/-- The totals of the run of a column that a row ends. -/
def groupLine (design : Design) (before : List Row) (row : Row) (column : Nat) : TotalsLine :=
  ⟨" " ++ design.plainText (row.getD column .null), column,
    Level.subtotal.sums design.columns (lastRun column before row)⟩

/-- The totals of a section, with the label of the key of its first row. -/
def sectionLine (design : Design) (first : Row) (rows : List Row) : TotalsLine :=
  ⟨(SectionKey.ofRow design.columns first).totalsLabel design.columns, 0,
    Level.subtotal.sums design.columns rows⟩

/-- The totals of all rows. -/
def grandLine (design : Design) (rows : List Row) : TotalsLine :=
  ⟨"", 0, Level.grand.sums design.columns rows⟩

/-- A row and the totals of the groups whose runs end with it. -/
def rowBlocks (design : Design) (before : List Row) (row : Row) (next : Option Row) : List Block :=
  .dataRow row before.getLast? ::
    (endingGroups design.columns row next).map fun column =>
      .groupTotals (design.groupLine before row column)

/-- The rows of a section with the totals of groups, from some row on. -/
def rowsBlocks (design : Design) : (before rest : List Row) → List Block
  | _, [] => []
  | before, row :: rest =>
    design.rowBlocks before row rest.head? ++ rowsBlocks design (before ++ [row]) rest

/-- A section: its headers, its rows with the totals of groups, and its totals. -/
def sectionBlocks (design : Design) : List Row → List Block
  | [] => []
  | first :: rest =>
    [.sectionHeader (.ofRow design.columns first), .columnHeader] ++
      design.rowsBlocks [] (first :: rest) ++
      [.sectionTotals (design.sectionLine first (first :: rest))]

/-- The end of a report: its grand totals, if they are wanted. -/
def grandBlocks (design : Design) (rows : List Row) : List Block :=
  if design.options.grandTotals then [.grandTotals (design.grandLine rows)] else []

/-- A report, section by section. -/
def outline (design : Design) (rows : List Row) : List Block :=
  (sections design.columns rows).flatMap design.sectionBlocks ++ design.grandBlocks rows

end Design

example :
    let region := { Column.plain "Region" 40 with role := .sectionBreak }
    sections [region] [[.text "A"], [.text "A"], [.text "B"]] = [[[.text "A"], [.text "A"]], [[.text "B"]]] :=
  rfl

theorem groupIndexes_pairwise_lt (columns : List Column) : (groupIndexes columns).Pairwise (· < ·) := by
  have sub : (groupIndexes columns).Sublist (columns.zipIdx.map (·.2)) := List.filter_sublist.map _
  refine List.Pairwise.sublist sub ?_
  rw [List.zipIdx_map_snd]
  exact List.pairwise_lt_range' ..

theorem groupIndexes_reverse_nodup (columns : List Column) : (groupIndexes columns).reverse.Nodup :=
  List.pairwise_reverse.mpr ((groupIndexes_pairwise_lt columns).imp fun less => less.ne')

/-- A row with the value of the one before it lengthens the run, any other row begins a new one. -/
theorem openRun_concat (column : Nat) (before : List Row) (row next : Row) :
    openRun column (before ++ [row]) next =
      if sameValue column row next then lastRun column before row else [] := by
  rw [openRun, List.rtakeWhile_concat]
  split
  · next same => rw [lastRun, openRun, sameValue_congr same]
  · rfl

/-- The rows of a section agree with its first one. -/
theorem sameSection_of_isChain {columns : List Column} {first : Row} {rest : List Row}
    (chain : (first :: rest).IsChain fun row other => sameSection columns row other) :
    ∀ other ∈ rest, sameSection columns first other = true := by
  induction rest generalizing first with
  | nil => simp
  | cons next rest ih =>
    obtain ⟨same, others⟩ := List.isChain_cons_cons.mp chain
    intro other member
    rcases List.mem_cons.mp member with rfl | member
    · exact same
    · rw [sameSection_congr same]
      exact ih others other member

/-- The row after a section does not agree with its first one. -/
private theorem sameSection_of_next {columns : List Column} {first : Row} {rest : List Row}
    {groups : List (List Row)} (same : ∀ other ∈ rest, sameSection columns first other = true)
    (apart : ((first :: rest) :: groups).IsChain fun earlier later => ∃ last first,
      sameSection columns (earlier.getLast last) (later.head first) = false) :
    ∀ next ∈ groups.flatten.head?, sameSection columns first next = false := by
  cases groups with
  | nil => simp
  | cons group groups =>
    obtain ⟨⟨nonempty, filled, differ⟩, _⟩ := List.isChain_cons_cons.mp apart
    intro next member
    obtain rfl : group.head filled = next := by
      obtain ⟨row, others, rfl⟩ := List.exists_cons_of_ne_nil filled
      simpa using member
    have agree : sameSection columns first ((first :: rest).getLast nonempty) = true := by
      rcases List.mem_cons.mp (List.getLast_mem nonempty) with last | last
      · rw [last]
        exact sameSection_refl columns first
      · exact same _ last
    rw [sameSection_congr agree]
    exact differ

namespace Account

variable {design : Design} {all current : List Row} {runs : Nat → List Row}

/-- Each of the groups that are flushed has a line with the sums of its open run. -/
private theorem flushGroups_eq (row : Row) (groups : List Nat) (distinct : groups.Nodup)
    (known : ∀ column ∈ groups, column ∈ groupIndexes design.columns) {totals : TotalsTracker}
    (tracks : totals.Tracks design.columns all current runs) :
    (flushGroups design row groups totals).1 =
        (groups.map fun column => .groupTotals ⟨" " ++ design.plainText (row.getD column .null), column,
          Level.subtotal.sums design.columns (runs column)⟩) ∧
      (flushGroups design row groups totals).2.Tracks design.columns all current fun column =>
        if column ∈ groups then [] else runs column := by
  induction groups generalizing totals runs with
  | nil => exact ⟨rfl, by simpa [flushGroups] using tracks⟩
  | cons column rest ih =>
    obtain ⟨new, distinct⟩ := List.nodup_cons.mp distinct
    obtain ⟨flushed, found, emptied⟩ := tracks.flushGroup (known column List.mem_cons_self)
      (" " ++ design.plainText (row.getD column .null))
    obtain ⟨lines, left⟩ :=
      ih distinct (fun other member => known other (List.mem_cons_of_mem _ member)) emptied
    simp only [flushGroups, found]
    constructor
    · rw [lines, List.map_cons]
      apply congrArg (List.cons _)
      apply List.map_congr_left
      intro other member
      have apart : other ≠ column := fun same => new (same ▸ member)
      rw [if_neg apart]
    · apply left.congr
      intro other _
      by_cases same : other = column <;> simp [same]

/-- The groups whose runs end with a row have the lines of the outline. -/
private theorem flushGroups_endingGroups {before : List Row} {row : Row} (next : Option Row)
    {totals : TotalsTracker}
    (tracks : totals.Tracks design.columns all current fun column => lastRun column before row) :
    let ending := endingGroups design.columns row next
    (flushGroups design row ending totals).1 =
        (ending.map fun column => .groupTotals (design.groupLine before row column)) ∧
      (flushGroups design row ending totals).2.Tracks design.columns all current fun column =>
        if column ∈ ending then [] else lastRun column before row := by
  have distinct : (endingGroups design.columns row next).Nodup :=
    (groupIndexes_reverse_nodup design.columns).filter _
  have known (column : Nat) (member : column ∈ endingGroups design.columns row next) :
      column ∈ groupIndexes design.columns :=
    List.mem_reverse.mp (List.mem_filter.mp member).1
  exact flushGroups_eq row _ distinct known tracks

/-- Between two rows of a section the totals of the groups whose values differ are due. -/
private theorem flush_of_sameSection {before : List Row} {first row next : Row} {totals : TotalsTracker}
    (tracks : totals.Tracks design.columns all current fun column => lastRun column before row)
    (same : sameSection design.columns first next = true) :
    let flushed := flush design row (some next) ⟨some (.ofRow design.columns first)⟩ totals
    flushed.1 = ((endingGroups design.columns row (some next)).map fun column =>
        .groupTotals (design.groupLine before row column)) ∧
      flushed.2.Tracks design.columns all current fun column =>
        openRun column (before ++ [row]) next := by
  have ending : totals.groupColumns.filter (fun column =>
      !(row.getD column .null).agrees (next.getD column .null)) =
      endingGroups design.columns row (some next) := by
    rw [tracks.groupColumns_eq]
    rfl
  have stays : startsSection (some (.ofRow design.columns first)) (.ofRow design.columns next) = false :=
    (congrArg not same : _)
  simp only [flush, stays, ending, Bool.false_eq_true, ↓reduceIte]
  obtain ⟨lines, left⟩ := flushGroups_endingGroups (some next) tracks
  constructor
  · exact lines
  · apply left.congr
    intro column group
    rw [openRun_concat]
    cases agree : sameValue column row next <;> simp [endingGroups, group, agree]

/-- After the last row of a section the totals of all groups are due, and those of the section. -/
private theorem flush_of_section_end {before : List Row} {first row : Row} {next : Option Row}
    {totals : TotalsTracker}
    (tracks : totals.Tracks design.columns all current fun column => lastRun column before row)
    (apart : ∀ next' ∈ next, sameSection design.columns first next' = false) :
    let flushed := flush design row next ⟨some (.ofRow design.columns first)⟩ totals
    flushed.1 = ((endingGroups design.columns row none).map fun column =>
        .groupTotals (design.groupLine before row column)) ++
        [.sectionTotals (design.sectionLine first current)] ∧
      flushed.2.Tracks design.columns all [] fun _ => [] := by
  have closes : flush design row next ⟨some (.ofRow design.columns first)⟩ totals =
      flushSection design row ⟨some (.ofRow design.columns first)⟩ totals := by
    cases next with
    | none => rfl
    | some next =>
      have opens : startsSection (some (.ofRow design.columns first)) (.ofRow design.columns next) = true :=
        (congrArg not (apart next rfl) : _)
      simp only [flush, opens, ↓reduceIte]
  have every : totals.groupColumns = endingGroups design.columns row none := by
    rw [tracks.groupColumns_eq]
    exact (List.filter_eq_self.mpr fun _ _ => rfl).symm
  simp only [closes, flushSection, every, Option.map_some, Option.getD_some]
  obtain ⟨lines, left⟩ := flushGroups_endingGroups none tracks
  obtain ⟨line, emptied⟩ := left.flushSection
    ((SectionKey.ofRow design.columns first).totalsLabel design.columns)
  constructor
  · rw [lines, line]
    rfl
  · apply emptied.congr
    intro column group
    simp [endingGroups, group]

/-- An account before a row: the rows of earlier sections are done, and `before` are those before the
row in its own section. -/
structure AtRow (design : Design) (isFirst : Bool) (account : Account) (done before : List Row)
    (row : Row) : Prop where
  totals : account.totals.Tracks design.columns (done ++ before) before fun column =>
    openRun column before row
  observed : ∀ number, account.detector.observe number isFirst (.ofRow design.columns row) =
    .ok (before.isEmpty, ⟨some (.ofRow design.columns (before.headD row))⟩)
  previous : before ≠ [] → account.previous = before.getLast?

/-- An account at the end of a section: the rows of it and of those before are done, and the next
rows open a section. -/
structure AtSection (design : Design) (isFirst : Bool) (account : Account) (done rest : List Row) :
    Prop where
  totals : account.totals.Tracks design.columns done [] fun _ => []
  opens : ∀ row ∈ rest.head?, ∀ number,
    account.detector.observe number isFirst (.ofRow design.columns row) =
      .ok (true, ⟨some (.ofRow design.columns row)⟩)

/-- The key of the first row of a section tells whether a later row belongs to it. -/
private theorem observe_some (columns : List Column) (first next : Row) (number : Nat) :
    (⟨some (.ofRow columns first)⟩ : SectionDetector).observe number false (.ofRow columns next) =
      if sameSection columns first next then .ok (false, ⟨some (.ofRow columns first)⟩)
      else .ok (true, ⟨some (.ofRow columns next)⟩) := by
  cases agree : sameSection columns first next <;>
    simp [SectionDetector.observe, startsSection, show SectionKey.agrees _ _ = _ from agree]

variable {isFirst : Bool} {account : Account} {done before : List Row} {row : Row}

/-- A row is read: the blocks that it adds, and the totals as they are before any are due. -/
theorem AtRow.script_cons (place : AtRow design isFirst account done before row) (rest : List Row)
    (clean : ∀ error, .error error ∉ script design isFirst account (row :: rest)) :
    ∃ totals : TotalsTracker,
      (totals.Tracks design.columns (done ++ before ++ [row]) (before ++ [row]) fun column =>
        lastRun column before row) ∧
      let detector : SectionDetector := ⟨some (.ofRow design.columns (before.headD row))⟩
      let flushed := flush design row rest.head? detector totals
      script design isFirst account (row :: rest) =
        (headers before.isEmpty (.ofRow design.columns row) ++ [Block.dataRow row before.getLast?] ++
          flushed.1).map .ok ++
          script design false ⟨flushed.2, detector, some row, account.rowCount + 1⟩ rest := by
  have previous : (if before.isEmpty then none else account.previous) = before.getLast? := by
    cases before with
    | nil => rfl
    | cons first others => exact place.previous (List.cons_ne_nil _ _)
  cases added : account.totals.accumulate (account.rowCount + 1) row with
  | error error =>
    refine (clean error ?_).elim
    simp [script, place.observed, added]
  | ok totals =>
    refine ⟨totals, place.totals.accumulate added, ?_⟩
    simp only [script, place.observed, added, previous, List.map_append, List.append_assoc]

/-- The rest of a section is read as in the outline. -/
theorem AtRow.script_section {more after : List Row} (place : AtRow design isFirst account done before row)
    (same : ∀ other ∈ more, sameSection design.columns (before.headD row) other = true)
    (apart : ∀ next ∈ after.head?, sameSection design.columns (before.headD row) next = false)
    (clean : ∀ error, .error error ∉ script design isFirst account (row :: (more ++ after))) :
    ∃ reached, AtSection design false reached (done ++ before ++ row :: more) after ∧
      script design isFirst account (row :: (more ++ after)) =
        (headers before.isEmpty (.ofRow design.columns row) ++ design.rowsBlocks before (row :: more) ++
          [Block.sectionTotals (design.sectionLine (before.headD row) (before ++ row :: more))]).map .ok ++
          script design false reached after := by
  -- What has been read of the section grows with every row, and its first row stays the same.
  induction more generalizing isFirst account before row with
  | nil =>
    obtain ⟨totals, tracks, read⟩ := place.script_cons after clean
    obtain ⟨lines, emptied⟩ := flush_of_section_end tracks apart
    let detector : SectionDetector := ⟨some (.ofRow design.columns (before.headD row))⟩
    refine ⟨⟨_, detector, some row, account.rowCount + 1⟩, ⟨emptied, ?_⟩, ?_⟩
    · intro next member number
      rw [observe_some, apart next member]
      rfl
    · simp only [List.nil_append, read, lines]
      simp [Design.rowsBlocks, Design.rowBlocks, detector]
  | cons next more ih =>
    obtain ⟨totals, tracks, read⟩ := place.script_cons (next :: (more ++ after)) clean
    have agree := same next List.mem_cons_self
    obtain ⟨lines, left⟩ := flush_of_sameSection tracks agree
    rw [List.cons_append, read] at clean
    have reached : AtRow design false
        ⟨(flush design row (some next) ⟨some (.ofRow design.columns (before.headD row))⟩ totals).2,
          ⟨some (.ofRow design.columns (before.headD row))⟩, some row, account.rowCount + 1⟩
        done (before ++ [row]) next := by
      constructor
      · rw [← List.append_assoc]
        exact left
      · intro number
        rw [observe_some, agree]
        cases before <;> rfl
      · intro _
        exact (List.getLast?_concat ..).symm
    have first : (before ++ [row]).headD next = before.headD row := by cases before <;> rfl
    rw [← first] at same apart
    have others : ∀ other ∈ more, sameSection design.columns ((before ++ [row]).headD next) other = true :=
      fun other member => same other (List.mem_cons_of_mem _ member)
    obtain ⟨ended, place, rest⟩ := ih reached others apart
      fun error member => clean error (List.mem_append_right _ member)
    refine ⟨ended, ?_, ?_⟩
    · simpa using place
    · rw [List.cons_append, read]
      simp only [List.head?_cons, lines]
      rw [rest, first]
      simp [Design.rowsBlocks, Design.rowBlocks, headers]

/-- Sections are read one after the other as in the outline. -/
theorem AtSection.script_eq {groups : List (List Row)}
    (place : AtSection design isFirst account done groups.flatten) (filled : [] ∉ groups)
    (agree : ∀ group ∈ groups, group.IsChain fun row other => sameSection design.columns row other)
    (apart : groups.IsChain fun earlier later => ∃ last first,
      sameSection design.columns (earlier.getLast last) (later.head first) = false)
    (clean : ∀ error, .error error ∉ script design isFirst account groups.flatten) :
    script design isFirst account groups.flatten =
      (groups.flatMap design.sectionBlocks ++ design.grandBlocks (done ++ groups.flatten)).map .ok := by
  induction groups generalizing isFirst account done with
  | nil =>
    simp only [List.flatten_nil, List.append_nil, script, place.totals.flushGrand]
    cases wanted : design.options.grandTotals <;> simp [Design.grandBlocks, Design.grandLine, wanted]
  | cons group groups ih =>
    cases group with
    | nil => exact absurd List.mem_cons_self filled
    | cons row more =>
      have same := sameSection_of_isChain (agree _ List.mem_cons_self)
      have opened : AtRow design isFirst account done [] row := by
        constructor
        · rw [List.append_nil]
          exact place.totals
        · exact place.opens row rfl
        · intro nonempty
          exact absurd rfl nonempty
      obtain ⟨reached, ended, read⟩ :=
        opened.script_section same (sameSection_of_next same apart) clean
      have filled' : [] ∉ groups := fun empty => filled (List.mem_cons_of_mem _ empty)
      have rest := ih ended filled'
        (fun group member => agree group (List.mem_cons_of_mem _ member)) apart.tail ?_
      · rw [List.flatten_cons, List.cons_append, read, rest]
        simp [Design.sectionBlocks, headers]
      · intro error member
        refine clean error ?_
        rw [List.flatten_cons, List.cons_append, read]
        exact List.mem_append_right _ member

theorem atSection_start (design : Design) (rows : List Row) :
    AtSection design true (.start design) [] rows where
  totals := .start design.columns design.options.nullSubtotals
  opens _ _ _ := rfl

end Account

/-- A script without an error is the outline of the report. -/
theorem script_eq_outline {design : Design} {rows : List Row}
    (clean : ∀ error, .error error ∉ Account.script design true (.start design) rows) :
    Account.script design true (.start design) rows = (design.outline rows).map .ok := by
  have split' : (sections design.columns rows).flatten = rows := List.flatten_splitBy _ rows
  have place := Account.atSection_start design (sections design.columns rows).flatten
  have read := place.script_eq (List.nil_notMem_splitBy _ rows) (fun _ => List.isChain_of_mem_splitBy)
    (List.isChain_getLast_head_splitBy _ rows) (split'.symm ▸ clean)
  rwa [List.nil_append, split'] at read

/-- The blocks of the sheets of a transcript are the outline of the report. -/
theorem body_eq_outline {design : Design} {rows : List Row} {sheets : List Sheet}
    (run : transcript design rows = .ok sheets) :
    (body sheets).map Batch.block = design.outline rows := by
  have whole := script_eq_body run
  have clean (error : ReportError) :
      .error error ∉ Account.script design true (.start design) rows := by
    rw [whole]
    simp
  rw [script_eq_outline clean] at whole
  exact (List.map_injective_iff.mpr (fun _ _ => Except.ok.inj) whole).symm

end PagedReport
