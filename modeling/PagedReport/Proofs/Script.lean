import PagedReport.Proofs.Printing
import PagedReport.Proofs.Walk

/-! # The script of a layout

Which blocks a report has does not depend on its pages: sections, groups and totals follow from the
rows alone. The `script` of a layout is the list of its blocks, cut off by the error of the first row
that does not fit. A layout prints its script, and this module proves that it does nothing else.
-/

namespace PagedReport

/-- What decides which blocks follow. -/
structure Account where
  totals : TotalsTracker
  detector : SectionDetector
  /-- The row before, if it is of the same section. -/
  previous : Option Row
  rowCount : Nat
deriving DecidableEq, Repr

/-- The blocks of a report in order, up to an error. -/
abbrev Script := List (Except ReportError Block)

namespace Account

/-- Nothing read. -/
def start (design : Design) : Account :=
  ⟨.start design.columns design.options.nullSubtotals, .empty, none, 0⟩

/-- The totals of group columns at a row, one column after the other. -/
def flushGroups (design : Design) (row : Row) : List Nat → TotalsTracker → List Block × TotalsTracker
  | [], totals => ([], totals)
  | column :: rest, totals =>
    match totals.flushGroup column (" " ++ design.plainText (row.getD column .null)) with
    | none => flushGroups design row rest totals
    | some (line, totals) =>
      ((.groupTotals line :: (flushGroups design row rest totals).1),
        (flushGroups design row rest totals).2)

/-- The totals of a section that ends with a row, those of its groups first. -/
def flushSection (design : Design) (row : Row) (detector : SectionDetector) (totals : TotalsTracker) :
    List Block × TotalsTracker :=
  let label := (detector.current.map fun key => key.totalsLabel design.columns).getD ""
  let flushed := flushGroups design row totals.groupColumns totals
  (flushed.1 ++ [.sectionTotals (flushed.2.flushSection label).1],
    (flushed.2.flushSection label).2)

/-- The totals that are due between a row and the next one. -/
def flush (design : Design) (row : Row) (next : Option Row) (detector : SectionDetector)
    (totals : TotalsTracker) : List Block × TotalsTracker :=
  match next with
  | none => flushSection design row detector totals
  | some next =>
    if startsSection detector.current (.ofRow design.columns next) then
      flushSection design row detector totals
    else
      flushGroups design row (totals.groupColumns.filter fun column =>
        !(row.getD column .null).agrees (next.getD column .null)) totals

/-- The headers of a section that a row opens. -/
def headers (isNew : Bool) (key : SectionKey) : List Block :=
  if isNew then [.sectionHeader key, .columnHeader] else []

/-- The blocks that rows add to a report, and its grand totals at the end. -/
def script (design : Design) : (isFirst : Bool) → Account → List Row → Script
  | _, account, [] =>
    if design.options.grandTotals then [.ok (.grandTotals account.totals.flushGrand)] else []
  | isFirst, account, row :: rest =>
    let number := account.rowCount + 1
    let key := SectionKey.ofRow design.columns row
    match account.detector.observe number isFirst key with
    | .error error => [.error error]
    | .ok (isNew, detector) =>
      let previous := if isNew then none else account.previous
      let entered := (headers isNew key ++ [Block.dataRow row previous]).map .ok
      match account.totals.accumulate number row with
      | .error error => entered ++ [.error error]
      | .ok totals =>
        let flushed := flush design row rest.head? detector totals
        entered ++ flushed.1.map .ok ++
          script design false ⟨flushed.2, detector, some row, number⟩ rest

end Account

/-- A layout has come as far as a press, as regards pages and headers. -/
structure Shows (design : Design) (account : Account) (press : Press) (run : LayoutRun) : Prop where
  totals : run.totals = account.totals
  detector : run.detector = account.detector
  previous : run.previous = account.previous
  rowCount : run.rowCount = account.rowCount
  paginator : run.paginator = press.paginator
  sectionHeader : ∃ y, run.sectionHeader =
    atHeight y (press.heading.elim [] fun key => [design.sectionHeader key 0])
  columnHeader : ∃ y, run.columnHeader =
    atHeight y (press.heading.elim [] fun _ => design.columnHeader 0)

namespace Shows

open LayoutRun Account

variable {design : Design} {account : Account} {press : Press} {run : LayoutRun}

theorem start (design : Design) :
    Shows design (.start design) (.start design.options.pageHeight) (.start design) where
  totals := rfl
  detector := rfl
  previous := rfl
  rowCount := rfl
  paginator := rfl
  sectionHeader := ⟨0, rfl⟩
  columnHeader := ⟨0, rfl⟩

theorem y_eq (shows : Shows design account press run) : run.paginator.y = press.y :=
  congrArg Paginator.y shows.paginator

private theorem put (shows : Shows design account press run) (block : Block) (placement : Placement)
    {cells : List Cell} (level : atHeight press.y cells = cells) :
    Shows design account (press.put block placement cells) (run.append cells) where
  totals := shows.totals
  detector := shows.detector
  previous := shows.previous
  rowCount := shows.rowCount
  paginator := by rw [Press.paginator_put, level, ← shows.paginator]; rfl
  sectionHeader := by rw [Press.heading_put]; exact shows.sectionHeader
  columnHeader := by rw [Press.heading_put]; exact shows.columnHeader

private theorem putCopy (shows : Shows design account press run) (block : Block) (y : Int)
    (cells : List Cell) :
    Shows design account (press.put block .copy cells)
      { run with paginator := (run.paginator.appendCopy (atHeight y cells)).2 } where
  totals := shows.totals
  detector := shows.detector
  previous := shows.previous
  rowCount := shows.rowCount
  paginator := by
    rw [Press.paginator_put, Paginator.appendCopy_atHeight, shows.paginator]
    rfl
  sectionHeader := by rw [Press.heading_put]; exact shows.sectionHeader
  columnHeader := by rw [Press.heading_put]; exact shows.columnHeader

private theorem newSheet (shows : Shows design account press run) :
    Shows design account press.newSheet { run with paginator := run.paginator.newPage } where
  totals := shows.totals
  detector := shows.detector
  previous := shows.previous
  rowCount := shows.rowCount
  paginator := by rw [Press.paginator_newSheet, ← shows.paginator]
  sectionHeader := shows.sectionHeader
  columnHeader := shows.columnHeader

private theorem skip (shows : Shows design account press run) (dy : Int) :
    Shows design account (press.skip dy) { run with paginator := run.paginator.skip dy } where
  totals := shows.totals
  detector := shows.detector
  previous := shows.previous
  rowCount := shows.rowCount
  paginator := by rw [Press.paginator_skip, ← shows.paginator]
  sectionHeader := shows.sectionHeader
  columnHeader := shows.columnHeader

private theorem repeatHeaders (shows : Shows design account press run) :
    Shows design account (press.repeatHeaders design)
      (repeatIf design.options.repeatColumnHeader
        (repeatIf design.options.repeatSectionHeader run run.sectionHeader)
        (repeatIf design.options.repeatSectionHeader run run.sectionHeader).columnHeader) := by
  obtain ⟨top, header⟩ := shows.sectionHeader
  obtain ⟨middle, columns⟩ := shows.columnHeader
  cases heading : press.heading with
  | none =>
    rw [heading] at header columns
    have same (wanted : Bool) : repeatIf wanted run [] = run := by cases wanted <;> rfl
    simp only [Press.repeatHeaders, heading, header, Option.elim_none, atHeight_nil, same, columns]
    exact shows
  | some key =>
    rw [heading] at header columns
    have section' : Shows design account
        (if design.options.repeatSectionHeader then
          press.put (.sectionHeader key) .copy [design.sectionHeader key press.y] else press)
        (repeatIf design.options.repeatSectionHeader run run.sectionHeader) := by
      cases design.options.repeatSectionHeader with
      | false => exact shows
      | true =>
        have copy := shows.putCopy (.sectionHeader key) top [design.sectionHeader key 0]
        rw [← Press.put_atHeight _ _ _ _ press.y] at copy
        rw [show run.sectionHeader = _ from header, design.sectionHeader_atY key press.y]
        exact copy
    have kept : (repeatIf design.options.repeatSectionHeader run run.sectionHeader).columnHeader =
        atHeight middle (design.columnHeader 0) := by
      rw [show atHeight middle (design.columnHeader 0) = run.columnHeader from columns.symm]
      cases design.options.repeatSectionHeader <;> rfl
    simp only [Press.repeatHeaders, heading]
    rw [kept]
    cases design.options.repeatColumnHeader with
    | false => exact section'
    | true =>
      rw [if_pos rfl, design.columnHeader_atHeight, Press.put_atHeight]
      exact section'.putCopy .columnHeader middle (design.columnHeader 0)

/-- The cells of a data row that a layout places are those that are printed. -/
private theorem rowCells (shows : Shows design account press run) (row : Row) (showRepeats : Bool) :
    Lockstep (fun cells placed => cells = placed ∧ atHeight press.y cells = cells)
      (design.cells (.dataRow row account.previous) showRepeats press.y)
      (design.dataRow row run.previous run.paginator.y showRepeats) := by
  rw [shows.previous, shows.y_eq]
  change Lockstep _ _ (design.cells (.dataRow row account.previous) showRepeats press.y)
  cases made : design.cells (.dataRow row account.previous) showRepeats press.y with
  | error error => exact .error error
  | ok cells => exact .ok ⟨rfl, Design.level_of_cells_eq_ok made⟩

/-- A data row is placed as it is printed. -/
theorem placeRow (shows : Shows design account press run) (row : Row) :
    Lockstep (Shows design account) (press.print design (.dataRow row account.previous))
      (LayoutRun.placeRow design run row) := by
  refine (shows.rowCells row design.options.showGroupsAsRepeat).bind ?_
  rintro cells _ ⟨rfl, level⟩
  have same : run.paginator.needsBreak (batchHeight cells) =
      press.paginator.needsBreak (batchHeight cells) := by rw [shows.paginator]
  simp only [Block.isDataRow, Bool.true_and, same]
  by_cases full : press.paginator.needsBreak (batchHeight cells) = true
  · rw [if_pos full, if_pos full]
    have opened := shows.newSheet.repeatHeaders
    refine (opened.rowCells row true).bind ?_
    rintro cells _ ⟨rfl, level⟩
    exact .ok (opened.put _ .overflow level)
  · rw [if_neg full, if_neg full]
    refine .ok ?_
    change Shows design account (Press.skip _ 0) _
    rw [Press.skip_zero]
    exact shows.put _ .flow level

/-- The headers of a new section are printed as they are placed. -/
theorem startSection (shows : Shows design account press run) (key : SectionKey) :
    Lockstep (Shows design { account with previous := none })
      (press.printAll design ((headers true key).map .ok))
      (.ok (LayoutRun.startSection design run key)) := by
  have header : atHeight press.y [design.sectionHeader key press.y] =
      [design.sectionHeader key run.paginator.y] := by
    rw [shows.y_eq]
    have made : design.cells (.sectionHeader key) false press.y = .ok _ := rfl
    exact Design.level_of_cells_eq_ok made
  let named := (press.put (.sectionHeader key) .flow [design.sectionHeader key press.y]).note
    (.sectionHeader key)
  let placed : LayoutRun := { run with
    previous := none
    sectionHeader := [design.sectionHeader key run.paginator.y] }.append
      [design.sectionHeader key run.paginator.y]
  have below : placed.paginator = named.paginator := by
    rw [Press.paginator_note, Press.paginator_put, header, ← shows.paginator]
    rfl
  have columns : atHeight named.y (design.columnHeader named.y) =
      design.columnHeader placed.paginator.y := by
    rw [below]
    have made : design.cells .columnHeader false named.y = .ok _ := rfl
    exact Design.level_of_cells_eq_ok made
  have printed : press.printAll design ((headers true key).map .ok) =
      .ok (named.put .columnHeader .flow (design.columnHeader named.y)) := by
    simp [headers, named]
  rw [printed]
  refine .ok ⟨shows.totals, shows.detector, rfl, shows.rowCount, ?_, ⟨run.paginator.y, ?_⟩,
    ⟨placed.paginator.y, ?_⟩⟩
  · rw [Press.paginator_put, columns, ← below]
    rfl
  · rw [Press.heading_put]
    exact congrArg (fun cell => [cell]) (design.sectionHeader_atY key run.paginator.y)
  · rw [Press.heading_put]
    exact design.columnHeader_atHeight placed.paginator.y

/-- A line of totals is placed as it is printed, the gap below it aside. -/
private theorem appendTotals (shows : Shows design account press run) (block : Block)
    {line : TotalsLine} {grand : Bool} (other : block.isDataRow = false)
    (same : ∀ y, design.cells block design.options.showGroupsAsRepeat y = design.totals line grand y)
    (unnamed : ∀ press : Press, press.note block = press) :
    Lockstep
      (fun printed placed => Shows design account printed
        { placed with paginator := placed.paginator.skip block.gap })
      (press.print design block) (LayoutRun.appendTotals design run line grand) := by
  rw [Press.print_eq_put design press other, LayoutRun.appendTotals, ← same, shows.y_eq]
  cases made : design.cells block design.options.showGroupsAsRepeat press.y with
  | error error => exact .error error
  | ok cells =>
    refine .ok ?_
    dsimp only
    rw [unnamed]
    exact (shows.put block .flow (Design.level_of_cells_eq_ok made)).skip block.gap

/-- The totals of a group column are placed as they are printed. -/
theorem appendGroup (shows : Shows design account press run) (line : TotalsLine) :
    Lockstep (Shows design account) (press.print design (.groupTotals line))
      (LayoutRun.appendTotals design run line false) := by
  refine (shows.appendTotals (.groupTotals line) rfl (fun _ => rfl) fun _ => rfl).mono ?_
  intro printed placed related
  simpa [Block.gap] using related

/-- The grand totals are placed as they are printed. -/
theorem appendGrand (shows : Shows design account press run) (line : TotalsLine) :
    Lockstep (Shows design account) (press.print design (.grandTotals line))
      (LayoutRun.appendTotals design run line true) := by
  refine (shows.appendTotals (.grandTotals line) rfl (fun _ => rfl) fun _ => rfl).mono ?_
  intro printed placed related
  simpa [Block.gap] using related

/-- The totals of groups are placed as they are printed. -/
theorem closeGroups (shows : Shows design account press run) (row : Row) (columns : List Nat) :
    let flushed := flushGroups design row columns account.totals
    Lockstep (Shows design { account with totals := flushed.2 })
      (press.printAll design (flushed.1.map .ok))
      (columns.foldlM (closeGroup design row) run) := by
  induction columns generalizing account press run with
  | nil => exact .ok shows
  | cons column rest ih =>
    rw [List.foldlM_cons]
    simp only [closeGroup, shows.totals, flushGroups]
    cases account.totals.flushGroup column (" " ++ design.plainText (row.getD column .null)) with
    | none => exact ih shows
    | some flushed =>
      obtain ⟨line, totals⟩ := flushed
      have taken : Shows design { account with totals } press { run with totals } :=
        { shows with totals := rfl }
      exact (taken.appendGroup line).bind fun press run shows => ih shows

/-- The totals of a section are placed as they are printed. -/
theorem closeSection (shows : Shows design account press run) (row : Row) :
    let flushed := flushSection design row account.detector account.totals
    Lockstep (Shows design { account with totals := flushed.2 })
      (press.printAll design (flushed.1.map .ok)) (LayoutRun.closeSection design row run) := by
  simp only [flushSection, LayoutRun.closeSection, List.map_append, Press.printAll_append, shows.totals]
  apply (shows.closeGroups row account.totals.groupColumns).bind
  intro press run shows
  simp only [shows.detector, shows.totals]
  let label := (account.detector.current.map fun key => key.totalsLabel design.columns).getD ""
  let flushed := (flushGroups design row account.totals.groupColumns account.totals).2.flushSection label
  have taken : Shows design { account with totals := flushed.2 } press
      { run with totals := flushed.2, detector := account.detector } :=
    { shows with totals := rfl, detector := rfl }
  have placed := taken.appendTotals (.sectionTotals flushed.1) rfl (fun _ => rfl) fun _ => rfl
  exact placed.bind fun press run shows => .ok shows

/-- The totals that are due after a row are placed as they are printed. -/
theorem closeAfter (shows : Shows design account press run) (row : Row) (next : Option Row) :
    let flushed := flush design row next account.detector account.totals
    Lockstep (Shows design { account with totals := flushed.2 })
      (press.printAll design (flushed.1.map .ok)) (LayoutRun.closeAfter design row next run) := by
  cases next with
  | none => exact shows.closeSection row
  | some next =>
    simp only [flush, LayoutRun.closeAfter, shows.detector]
    split
    · exact shows.closeSection row
    · rw [LayoutRun.closeGroups, shows.totals]
      exact shows.closeGroups row _

/-- A row and the headers of the section that it may open are placed as they are printed. -/
private theorem enterRow (shows : Shows design account press run) (isNew : Bool) (key : SectionKey)
    (row : Row) :
    let previous := if isNew then none else account.previous
    Lockstep (Shows design { account with previous })
      (press.printAll design ((headers isNew key ++ [Block.dataRow row previous]).map .ok))
      (LayoutRun.placeRow design (if isNew then LayoutRun.startSection design run key else run) row) := by
  have opened : Lockstep (Shows design { account with previous := if isNew then none else account.previous })
      (press.printAll design ((headers isNew key).map .ok))
      (.ok (if isNew then LayoutRun.startSection design run key else run)) := by
    cases isNew with
    | true => exact shows.startSection key
    | false => exact .ok shows
  dsimp only
  rw [List.map_append, Press.printAll_append]
  refine opened.bind (f := _) (g := fun run => LayoutRun.placeRow design run row)
    fun press run shows => ?_
  rw [List.map_singleton, Press.printAll_singleton]
  exact shows.placeRow row

/-- A layout prints the script of its rows. -/
theorem visitEach (shows : Shows design account press run) (isFirst : Bool) (rows : List Row) :
    Lockstep (fun printed pages => printed.paginator.pages = pages)
      (press.printAll design (script design isFirst account rows))
      (LayoutRun.visitEach design isFirst rows run >>= LayoutRun.finish design) := by
  induction rows generalizing isFirst account press run with
  | nil =>
    simp only [script, LayoutRun.visitEach, ok_bind, LayoutRun.finish]
    cases design.options.grandTotals with
    | false => exact .ok (congrArg Paginator.pages shows.paginator.symm)
    | true =>
      rw [shows.totals]
      exact (shows.appendGrand account.totals.flushGrand).bind fun press run shows =>
        .ok (congrArg Paginator.pages shows.paginator.symm)
  | cons row rest ih =>
    simp only [script, LayoutRun.visitEach, visitRow, LayoutRun.enterRow, shows.detector,
      shows.rowCount]
    cases account.detector.observe (account.rowCount + 1) isFirst (.ofRow design.columns row) with
    | error error => exact .error error
    | ok observed =>
      obtain ⟨isNew, detector⟩ := observed
      have known : Shows design { account with detector, rowCount := account.rowCount + 1 } press
          { run with detector, rowCount := account.rowCount + 1 } :=
        { shows with detector := rfl, rowCount := rfl }
      have entered := known.enterRow isNew (.ofRow design.columns row) row
      simp only [ok_bind, bind_assoc, pure_eq_ok]
      cases added : account.totals.accumulate (account.rowCount + 1) row with
      | error error =>
        dsimp only
        rw [Press.printAll_append]
        apply entered.bind
        intro press run shows
        rw [shows.totals, added]
        exact .error error
      | ok totals =>
        dsimp only
        rw [List.append_assoc, Press.printAll_append]
        apply entered.bind
        intro press run shows
        have taken : Shows design
            ⟨totals, detector, if isNew then none else account.previous, account.rowCount + 1⟩ press
            { run with totals } := { shows with totals := rfl }
        rw [shows.totals, added, Press.printAll_append]
        apply (taken.closeAfter row rest.head?).bind
        intro press run shows
        have visited : Shows design
            ⟨(flush design row rest.head? detector totals).2, detector, some row, account.rowCount + 1⟩
            press { run with previous := some row } := { shows with previous := rfl }
        exact ih visited false

end Shows

/-- The sheets of a report: its blocks printed in order. -/
def transcript (design : Design) (rows : List Row) : Except ReportError (List Sheet) :=
  ((Press.start design.options.pageHeight).printAll design
    (Account.script design true (.start design) rows)).map Press.sheets

/-- The pages of a layout are the sheets of its report, whatever place the cursor has. -/
theorem layOut_eq_transcript (design : Design) (cursor : Cursor) :
    (LayoutRun.layOut design cursor).1 =
      (transcript design cursor.set.rows).map (List.map Sheet.cells) := by
  have run := (Shows.start design).visitEach true cursor.set.rows
  rw [LayoutRun.layOut_eq_visitEach]
  refine run.eq_map.trans ?_
  rw [transcript]
  cases (Press.start design.options.pageHeight).printAll design
      (Account.script design true (.start design) cursor.set.rows) with
  | error error => rfl
  | ok press => exact congrArg Except.ok press.sheets_map_cells.symm

namespace Report

/-- A report is laid out as the transcript of its rows, if it has a column for each of theirs. -/
theorem layOut_new_eq_transcript (design : Design) (cursor : Cursor) :
    (Report.new cursor design).layOut.1 =
      if design.columns.length = cursor.set.columns.length then
        (transcript design cursor.set.rows).map (List.map Sheet.cells)
      else .error (.columnCountMismatch design.columns.length cursor.set.columns.length) := by
  rw [layOut_new, layOut_eq_transcript]

/-- The pages of a successful layout divide into the sheets of its transcript. -/
theorem exists_transcript {design : Design} {cursor : Cursor} {pages : List Page}
    (success : (Report.new cursor design).layOut.1 = .ok pages) :
    ∃ sheets, transcript design cursor.set.rows = .ok sheets ∧ pages = sheets.map Sheet.cells := by
  rw [layOut_new_eq_transcript] at success
  split at success
  · obtain ⟨sheets, found, same⟩ := map_eq_ok_iff.mp success
    exact ⟨sheets, found, same.symm⟩
  · cases success

/-- The sheets of a transcript are the pages of the layout. -/
theorem layOut_of_transcript {design : Design} {cursor : Cursor} {sheets : List Sheet}
    (width : design.columns.length = cursor.set.columns.length)
    (run : transcript design cursor.set.rows = .ok sheets) :
    (Report.new cursor design).layOut.1 = .ok (sheets.map Sheet.cells) := by
  rw [layOut_new_eq_transcript, if_pos width, run, map_ok]

end Report

/-- Sales by region, a section for each, and by city. -/
def salesDesign (pageHeight : Int) : Design where
  columns := [{ Column.plain "Region" 40 with role := .sectionBreak },
    { Column.plain "City" 50 with role := .group },
    { Column.numeric "Sales" 40 with subtotal := true }]
  options := { pageHeight, grandTotals := true }
  metrics := FixedPitch.standard.metrics

/-- Three sales, two of them in one city. -/
def salesSet : ResultSet where
  columns := ["Region", "City", "Sales"]
  rows := [[.text "A", .text "x", .number (.ofInt 1)], [.text "A", .text "x", .number (.ofInt 2)],
    [.text "B", .text "y", .number (.ofInt 4)]]
  rectangular := by decide

/-- The sales are printed on four sheets of sixty units, far from the ends of the range. -/
theorem exists_transcript_sales :
    ∃ sheets, transcript (salesDesign 60) salesSet.rows = .ok sheets ∧ sheets.length = 4 ∧
      ∀ sheet ∈ sheets, ∀ batch ∈ sheet, batch.InRange (salesDesign 60) := by
  have checked : ((transcript (salesDesign 60) salesSet.rows).toOption.any fun sheets =>
      decide (sheets.length = 4 ∧ ∀ sheet ∈ sheets, ∀ batch ∈ sheet,
        batch.InRange (salesDesign 60))) = true := by
    decide +kernel
  obtain ⟨sheets, run, facts⟩ := exists_ok_of_any checked
  obtain ⟨four, range⟩ := of_decide_eq_true facts
  exact ⟨sheets, run, four, range⟩

/-- The sales are laid out on four pages of sixty units. -/
theorem exists_layOut_sales :
    ∃ pages, (Report.new (Cursor.ofSet salesSet) (salesDesign 60)).layOut.1 = .ok pages ∧
      pages.length = 4 :=
  ⟨_, rfl, rfl⟩

/-- Lines of a great height on pages of the greatest one. -/
def tallDesign : Design where
  columns := [Column.plain "City" 50]
  options := { pageHeight := Coordinate.greatest }
  metrics := FixedPitch.metrics ⟨7, 500000000⟩

/-- Five cities, more than fit on such a page. -/
def tallSet : ResultSet where
  columns := ["City"]
  rows := [[.text "v"], [.text "w"], [.text "x"], [.text "y"], [.text "z"]]
  rectangular := by decide

end PagedReport
