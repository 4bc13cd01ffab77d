import PagedReport.Cursor
import PagedReport.Design
import PagedReport.Page

/-! # Laying out a report

A layout visits the rows of a cursor once, from the first to the last, with a look at the row ahead.
Headers are placed when a section starts, a data row for every row, and lines of totals when the run
of a group or the section ends. A data row that opens a new page has the headers of its section
repeated above it. Either the whole layout succeeds, or there are no pages.
-/

namespace PagedReport

/-- What a layout carries from row to row. -/
structure LayoutRun where
  totals : TotalsTracker
  detector : SectionDetector
  paginator : Paginator
  /-- The headers of the open section as they were first placed. -/
  sectionHeader : List Cell
  columnHeader : List Cell
  /-- The row before, if it is of the same section. -/
  previous : Option Row
  /-- The number of rows visited. -/
  rowCount : Nat
deriving DecidableEq, Repr

namespace LayoutRun

/-- Nothing visited, one empty page. -/
def start (design : Design) : LayoutRun :=
  { totals := .start design.columns design.options.nullSubtotals
    detector := .empty
    paginator := .start design.options.pageHeight
    sectionHeader := [], columnHeader := [], previous := none, rowCount := 0 }

/-- A batch appended to the pages. -/
def append (run : LayoutRun) (cells : List Cell) : LayoutRun :=
  { run with paginator := (run.paginator.append cells).2 }

/-- A copy of an earlier batch appended to the pages, if it is to be repeated. -/
def repeatIf (wanted : Bool) (run : LayoutRun) (cells : List Cell) : LayoutRun :=
  if wanted then { run with paginator := (run.paginator.appendCopy cells).2 } else run

/-- The headers of a new section, which has no previous row. -/
def startSection (design : Design) (run : LayoutRun) (key : SectionKey) : LayoutRun :=
  let header := [design.sectionHeader key run.paginator.y]
  let run := { run with previous := none, sectionHeader := header }.append header
  let columnHeader := design.columnHeader run.paginator.y
  { run with columnHeader }.append columnHeader

/-- A data row at the current height, or at the top of a new page below the repeated headers. There
a repeated group value is always shown. -/
def placeRow (design : Design) (run : LayoutRun) (row : Row) : Except ReportError LayoutRun := do
  let options := design.options
  let cells ← design.dataRow row run.previous run.paginator.y options.showGroupsAsRepeat
  if run.paginator.needsBreak (batchHeight cells) then
    let run := { run with paginator := run.paginator.newPage }
    let run := repeatIf options.repeatSectionHeader run run.sectionHeader
    let run := repeatIf options.repeatColumnHeader run run.columnHeader
    let cells ← design.dataRow row run.previous run.paginator.y true
    return run.append cells
  else return run.append cells

/-- A line of totals appended to the pages. -/
def appendTotals (design : Design) (run : LayoutRun) (line : TotalsLine) (grand : Bool) :
    Except ReportError LayoutRun := do
  return run.append (← design.totals line grand run.paginator.y)

/-- The totals of the run of a group column that ends with a row. -/
def closeGroup (design : Design) (row : Row) (run : LayoutRun) (column : Nat) :
    Except ReportError LayoutRun :=
  match run.totals.flushGroup column (" " ++ design.plainText (row.getD column .null)) with
  | none => .ok run
  | some (line, totals) => appendTotals design { run with totals } line false

/-- The totals of all groups, the innermost first, then those of the section, and a gap. -/
def closeSection (design : Design) (row : Row) (run : LayoutRun) : Except ReportError LayoutRun := do
  let run ← run.totals.groupColumns.foldlM (closeGroup design row) run
  let label := (run.detector.current.map fun key => key.totalsLabel design.columns).getD ""
  let (line, totals) := run.totals.flushSection label
  let run ← appendTotals design { run with totals } line false
  return { run with paginator := run.paginator.skip ruleSpace }

/-- The totals of the groups whose value changes in the next row, the innermost first. -/
def closeGroups (design : Design) (row next : Row) (run : LayoutRun) : Except ReportError LayoutRun :=
  (run.totals.groupColumns.filter fun column =>
    !(row.getD column .null).agrees (next.getD column .null)).foldlM (closeGroup design row) run

/-- What ends with a row: groups before a row of the same section, else the whole section. -/
def closeAfter (design : Design) (row : Row) (next : Option Row) (run : LayoutRun) :
    Except ReportError LayoutRun :=
  match next with
  | none => closeSection design row run
  | some next =>
    if startsSection run.detector.current (.ofRow design.columns next) then
      closeSection design row run
    else closeGroups design row next run

/-- A row taken into the report: its section opened if it is new, its cells placed and its values
added to the totals. -/
def enterRow (design : Design) (isFirst : Bool) (row : Row) (run : LayoutRun) :
    Except ReportError LayoutRun := do
  let number := run.rowCount + 1
  let key := SectionKey.ofRow design.columns row
  let (isNew, detector) ← run.detector.observe number isFirst key
  let run := { run with rowCount := number, detector }
  let run ← placeRow design (if isNew then startSection design run key else run) row
  return { run with totals := ← run.totals.accumulate number row }

/-- A visit to a row, given what the look ahead has found. -/
def visitRow (design : Design) (isFirst : Bool) (row : Row) (ahead : Except ReportError (Option Row))
    (run : LayoutRun) : Except ReportError LayoutRun := do
  let run ← enterRow design isFirst row run
  let run ← closeAfter design row (← ahead) run
  return { run with previous := some row }

/-- The rest of the pages: the grand totals, if they are wanted. -/
def finish (design : Design) (run : LayoutRun) : Except ReportError (List Page) := do
  if design.options.grandTotals then
    let run ← appendTotals design run run.totals.flushGrand true
    return run.paginator.pages
  else return run.paginator.pages

variable {σ : Type} [RowCursor σ]

/-- Visits to the rows ahead of a cursor, with the place at which they end. -/
def visitRows (design : Design) : (fuel : Nat) → σ → LayoutRun → Except ReportError LayoutRun × σ
  | 0, cursor, run => (.ok run, cursor)
  | fuel + 1, cursor, run =>
    match RowCursor.advance cursor with
    | (false, cursor) => (.ok run, cursor)
    | (true, cursor) =>
      match RowCursor.row cursor with
      | .error error => (.error error, cursor)
      | .ok row =>
        let (ahead, after) := RowCursor.peekNext cursor
        match visitRow design (RowCursor.isFirst cursor) row ahead run with
        | .error error => (.error error, after)
        | .ok run => visitRows design fuel after run

/-- The pages of a report over all rows of a cursor, and the place at which the cursor ends. One
step more than there are rows finds the end. -/
def layOut (design : Design) (cursor : σ) : Except ReportError (List Page) × σ :=
  let (run, cursor) :=
    visitRows design (RowCursor.rowBound cursor + 1) (RowCursor.rewind cursor) (start design)
  (run.bind (finish design), cursor)

end LayoutRun

/-- How far a report has come. -/
inductive LayoutState where
  | notStarted
  | inProgress
  | completed
deriving DecidableEq, Repr

/-- A report that can be laid out once. -/
structure Report (σ : Type) where
  cursor : σ
  design : Design
  state : LayoutState

namespace Report

variable {σ : Type} [RowCursor σ]

/-- A report that has not been laid out. -/
def new (cursor : σ) (design : Design) : Report σ := ⟨cursor, design, .notStarted⟩

/-- The pages of the report. A second attempt is refused, even if the first one failed. -/
def layOut (report : Report σ) : Except ReportError (List Page) × Report σ :=
  if report.state ≠ .notStarted then (.error .alreadyLaidOut, report)
  else
    let expected := report.design.columns.length
    let actual := RowCursor.columnCount report.cursor
    if expected ≠ actual then
      (.error (.columnCountMismatch expected actual), { report with state := .inProgress })
    else
      match LayoutRun.layOut report.design report.cursor with
      | (.ok pages, cursor) => (.ok pages, { report with cursor, state := .completed })
      | (.error error, cursor) => (.error error, { report with cursor, state := .inProgress })

end Report

end PagedReport
