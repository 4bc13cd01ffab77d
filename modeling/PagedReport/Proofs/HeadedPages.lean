import PagedReport.Proofs.Agreement
import PagedReport.Proofs.Packing
import PagedReport.Proofs.TallerPages

/-! # Pages opened by a data row

A data row that does not fit the page opens a new one and stands there below copies of the headers of
its section. This holds wherever a layout has come to: at every row it has kept the headers of the open
section, and they are those of the first row of that section, at whatever height they were placed.
-/

namespace PagedReport

/-- Cells that stand side by side and have no negative height. -/
structure LevelBatch (cells : List Cell) : Prop where
  side : ∃ y, atHeight y cells = cells
  nonneg : 0 ≤ batchHeight cells
  range : Coordinate.InRange (batchHeight cells)

namespace LevelBatch

theorem of_cells {design : Design} {block : Block} {showRepeats : Bool} {y : Int} {cells : List Cell}
    (made : design.cells block showRepeats y = .ok cells)
    (tall : ∀ cell ∈ cells, 0 ≤ cell.bounds.height) : LevelBatch cells where
  side := ⟨y, Design.level_of_cells_eq_ok made⟩
  nonneg := batchHeight_nonneg tall
  range := Design.inRange_batchHeight_cells made

theorem ite {cells : List Cell} (level : LevelBatch cells) (wanted : Bool) :
    LevelBatch (if wanted then cells else []) := by
  cases wanted with
  | false => exact ⟨⟨0, rfl⟩, le_refl 0, Coordinate.inRange_zero⟩
  | true => exact level

end LevelBatch

namespace Paginator

variable {paginator : Paginator} {cells : List Cell}

theorem place_place (paginator : Paginator) (cells below : List Cell) (height further : Int) :
    (paginator.place cells height).place below further =
      paginator.place (cells ++ below) (height + further) := by
  simp [place, Int.add_assoc]

/-- A batch for which there is room is placed at the offset. -/
theorem append_of_room (room : paginator.needsBreak (batchHeight cells) = false) :
    (paginator.append cells).2 = paginator.place cells (batchHeight cells) := by
  by_cases occupied : cells = []
  · subst occupied
    simp [append_nil, place, paginator.kept]
  · have nonempty : cells.isEmpty = false := by simpa [List.isEmpty_eq_false_iff] using occupied
    simp [append, nonempty, room]

/-- A copy of a level batch for which there is room is placed at the offset. -/
theorem appendCopy_of_room {y : Int} (level : atHeight y cells = cells)
    (room : paginator.needsBreak (batchHeight cells) = false) :
    (paginator.appendCopy cells).2 =
      paginator.place (atHeight paginator.y cells) (batchHeight cells) := by
  rw [← level, appendCopy_atHeight, append_of_room (by simpa using room), atHeight_atHeight,
    batchHeight_atHeight, batchHeight_atHeight]

/-- Copies of two level batches stand one below the other on a new page that has room for both. -/
theorem appendCopy_newPage {named titled : List Cell} (first : LevelBatch named)
    (second : LevelBatch titled) (room : batchHeight named + batchHeight titled < paginator.pageHeight) :
    ((paginator.newPage.appendCopy named).2.appendCopy titled).2 =
      paginator.newPage.place (atHeight 0 named ++ atHeight (batchHeight named) titled)
        (batchHeight named + batchHeight titled) := by
  obtain ⟨⟨y, level⟩, _, range⟩ := first
  obtain ⟨⟨z, level'⟩, _, range'⟩ := second
  have below : (paginator.newPage.place (atHeight 0 named) (batchHeight named)).y =
      batchHeight named := by
    simpa [place, newPage] using Coordinate.wrap_of_inRange range
  rw [appendCopy_of_room level rfl]
  change ((paginator.newPage.place (atHeight 0 named) (batchHeight named)).appendCopy titled).2 = _
  rw [appendCopy_of_room level' (room_of_lt range'.1 (by rw [below]; exact room)), below, place_place]

end Paginator

namespace LayoutRun

/-- A layout that takes up a row and comes to the point where it places it, and whether the row opens a
section. -/
def takeUp (design : Design) (isFirst : Bool) (row : Row) (run : LayoutRun) :
    Except ReportError (Bool × LayoutRun) := do
  let number := run.rowCount + 1
  let key := SectionKey.ofRow design.columns row
  let (isNew, detector) ← run.detector.observe number isFirst key
  let run := { run with rowCount := number, detector }
  return (isNew, if isNew then startSection design run key else run)

/-- A row is entered by taking it up, placing it and adding its values to the totals. -/
theorem enterRow_eq (design : Design) (isFirst : Bool) (row : Row) (run : LayoutRun) :
    enterRow design isFirst row run = do
      let taken ← takeUp design isFirst row run
      let placed ← placeRow design taken.2 row
      return { placed with totals := ← placed.totals.accumulate (run.rowCount + 1) row } := by
  rw [enterRow, takeUp]
  cases run.detector.observe (run.rowCount + 1) isFirst (.ofRow design.columns row) <;> rfl

/-- The states of a layout between two rows, whatever cursor it follows. The rows are those of the open
section so far. -/
inductive Reachable (design : Design) : List Row → LayoutRun → Prop
  | start : Reachable design [] (start design)
  | visit {rows : List Row} {run taken next : LayoutRun} {isFirst isNew : Bool} {row : Row}
      {ahead : Except ReportError (Option Row)} (reached : Reachable design rows run)
      (takes : takeUp design isFirst row run = .ok (isNew, taken))
      (visited : visitRow design isFirst row ahead run = .ok next) :
      Reachable design ((if isNew then [] else rows) ++ [row]) next

variable {design : Design} {rows : List Row} {run taken next : LayoutRun} {isFirst isNew : Bool}
variable {row : Row}

/-- Every visit to a row leads from one state between rows to another. -/
theorem Reachable.exists_visit (reached : Reachable design rows run)
    {ahead : Except ReportError (Option Row)}
    (visited : visitRow design isFirst row ahead run = .ok next) :
    ∃ rows, Reachable design rows next := by
  obtain ⟨entered, enters, _⟩ := bind_eq_ok_iff.mp visited
  rw [enterRow_eq] at enters
  obtain ⟨⟨isNew, taken⟩, takes, _⟩ := bind_eq_ok_iff.mp enters
  exact ⟨_, reached.visit takes visited⟩

/-- All states between rows that a layout comes to are reachable. -/
theorem Reachable.exists_visitRows {σ : Type} [RowCursor σ] {fuel : Nat} {cursor place : σ}
    (reached : Reachable design rows run)
    (visits : visitRows design fuel cursor run = (.ok next, place)) :
    ∃ rows, Reachable design rows next := by
  -- What the cursor finds is given to the visit as its arguments; nothing else of it matters.
  induction fuel generalizing rows run cursor with
  | zero =>
    cases visits
    exact ⟨rows, reached⟩
  | succ fuel ih =>
    rw [visitRows] at visits
    split at visits
    · cases visits
      exact ⟨rows, reached⟩
    · split at visits
      · cases visits
      · dsimp only at visits
        split at visits
        · cases visits
        · next visited =>
          obtain ⟨_, further⟩ := reached.exists_visit visited
          exact ih further visits

/-- Two states with the same open section and the same headers to repeat. -/
structure SameHeading (run next : LayoutRun) : Prop where
  current : next.detector.current = run.detector.current
  sectionHeader : next.sectionHeader = run.sectionHeader
  columnHeader : next.columnHeader = run.columnHeader
  pageHeight : next.paginator.pageHeight = run.paginator.pageHeight

namespace SameHeading

theorem refl (run : LayoutRun) : run.SameHeading run := ⟨rfl, rfl, rfl, rfl⟩

theorem trans (first : run.SameHeading taken) (second : taken.SameHeading next) :
    run.SameHeading next where
  current := second.current.trans first.current
  sectionHeader := second.sectionHeader.trans first.sectionHeader
  columnHeader := second.columnHeader.trans first.columnHeader
  pageHeight := second.pageHeight.trans first.pageHeight

theorem append (run : LayoutRun) (cells : List Cell) : run.SameHeading (run.append cells) :=
  ⟨rfl, rfl, rfl, (Paginator.Grows.pack run.paginator (.append cells)).pageHeight⟩

theorem repeatIf (wanted : Bool) (run : LayoutRun) (cells : List Cell) :
    run.SameHeading (LayoutRun.repeatIf wanted run cells) := by
  cases wanted with
  | false => exact refl run
  | true =>
    refine ⟨rfl, rfl, rfl, ?_⟩
    simp only [LayoutRun.repeatIf, ↓reduceIte, Paginator.appendCopy]
    split
    · rfl
    · exact (append run _).pageHeight

theorem withTotals (same : run.SameHeading next) (totals : TotalsTracker) :
    run.SameHeading { next with totals } :=
  ⟨same.current, same.sectionHeader, same.columnHeader, same.pageHeight⟩

private theorem ends_cells {x : Except ReportError (List Cell)} :
    Ends (fun _ => True) (fun _ => True) x := by
  cases x <;> trivial

theorem ends_placeRow (run : LayoutRun) (row : Row) :
    Ends run.SameHeading (fun _ => True) (placeRow design run row) := by
  refine ends_cells.bind fun cells _ => ?_
  split
  · let opened : LayoutRun := { run with paginator := run.paginator.newPage }
    have fresh : run.SameHeading opened := ⟨rfl, rfl, rfl, rfl⟩
    have named := fresh.trans (repeatIf design.options.repeatSectionHeader opened opened.sectionHeader)
    refine ends_cells.bind fun cells _ => ?_
    exact (named.trans (repeatIf _ _ _)).trans (append _ cells)
  · exact append run cells

theorem ends_appendTotals (same : run.SameHeading next) (line : TotalsLine) (grand : Bool) :
    Ends run.SameHeading (fun _ => True) (appendTotals design next line grand) :=
  ends_cells.bind fun cells _ => same.trans (append next cells)

theorem ends_closeGroups (same : run.SameHeading next) (row : Row) (columns : List Nat) :
    Ends run.SameHeading (fun _ => True) (columns.foldlM (closeGroup design row) next) := by
  refine Ends.foldlM same fun column _ next same => ?_
  rw [closeGroup]
  split
  · exact same
  · next line totals _ => exact (same.withTotals totals).ends_appendTotals line false

theorem ends_closeSection (run : LayoutRun) (row : Row) :
    Ends run.SameHeading (fun _ => True) (closeSection design row run) := by
  refine ((refl run).ends_closeGroups row _).bind fun next same => ?_
  refine ((same.withTotals _).ends_appendTotals _ false).bind fun last same => ?_
  exact ⟨same.current, same.sectionHeader, same.columnHeader, same.pageHeight⟩

theorem ends_closeAfter (run : LayoutRun) (row : Row) (ahead : Option Row) :
    Ends run.SameHeading (fun _ => True) (closeAfter design row ahead run) := by
  cases ahead with
  | none => exact ends_closeSection run row
  | some ahead =>
    rw [closeAfter]
    split
    · exact ends_closeSection run row
    · exact (refl run).ends_closeGroups row _

/-- A row that has been taken up changes nothing in the headers of its section. -/
theorem of_visitRow {ahead : Except ReportError (Option Row)}
    (takes : takeUp design isFirst row run = .ok (isNew, taken))
    (visited : visitRow design isFirst row ahead run = .ok next) : taken.SameHeading next := by
  obtain ⟨entered, enters, looks⟩ := bind_eq_ok_iff.mp visited
  rw [enterRow_eq, takes, ok_bind] at enters
  obtain ⟨placed, places, adds⟩ := bind_eq_ok_iff.mp enters
  obtain ⟨totals, _, sum⟩ := bind_eq_ok_iff.mp adds
  cases sum
  obtain ⟨following, _, closes⟩ := bind_eq_ok_iff.mp looks
  obtain ⟨closed, closedAfter, last⟩ := bind_eq_ok_iff.mp closes
  cases last
  have onPage := (ends_placeRow taken row).of_ok places
  have done := (onPage.withTotals totals).trans ((ends_closeAfter _ row following).of_ok closedAfter)
  exact ⟨done.current, done.sectionHeader, done.columnHeader, done.pageHeight⟩

end SameHeading

/-- The open section has these rows, and its headers are those of its first row. -/
structure Heads (design : Design) (rows : List Row) (run : LayoutRun) : Prop where
  pageHeight : run.paginator.pageHeight = design.options.pageHeight
  current : run.detector.current = rows.head?.map (SectionKey.ofRow design.columns)
  member : ∀ first ∈ rows.head?, ∀ row ∈ rows, sameSection design.columns first row = true
  sectionHeader : ∀ first ∈ rows.head?, ∃ y, run.sectionHeader =
    [design.sectionHeader (.ofRow design.columns first) y]
  columnHeader : ∀ first ∈ rows.head?, ∃ y, run.columnHeader = design.columnHeader y

namespace Heads

theorem start (design : Design) : (LayoutRun.start design).Heads design [] where
  pageHeight := rfl
  current := rfl
  member := nofun
  sectionHeader := nofun
  columnHeader := nofun

theorem of_sameHeading (heads : run.Heads design rows) (same : run.SameHeading next) :
    next.Heads design rows where
  pageHeight := same.pageHeight.trans heads.pageHeight
  current := same.current.trans heads.current
  member := heads.member
  sectionHeader := same.sectionHeader ▸ heads.sectionHeader
  columnHeader := same.columnHeader ▸ heads.columnHeader

/-- The headers that a section starts with are those of the row that opens it. -/
theorem startSection (pageHeight : run.paginator.pageHeight = design.options.pageHeight)
    (current : run.detector.current = some (.ofRow design.columns row)) :
    (LayoutRun.startSection design run (.ofRow design.columns row)).Heads design [row] where
  pageHeight :=
    ((SameHeading.append _ _).pageHeight.trans (SameHeading.append _ _).pageHeight).trans pageHeight
  current := current
  member := by
    rintro first ⟨⟩ other alone
    rw [List.mem_singleton.mp alone]
    exact sameSection_refl design.columns row
  sectionHeader := by
    rintro first ⟨⟩
    exact ⟨_, rfl⟩
  columnHeader := by
    rintro first ⟨⟩
    exact ⟨_, rfl⟩

/-- A row with the key of the open section belongs to it. -/
theorem follow (heads : run.Heads design rows)
    (follows : startsSection run.detector.current (.ofRow design.columns row) = false) (number : Nat) :
    { run with rowCount := number }.Heads design (rows ++ [row]) := by
  cases rows with
  | nil => simp [startsSection, heads.current] at follows
  | cons first rest =>
    refine ⟨heads.pageHeight, heads.current, ?_, heads.sectionHeader, heads.columnHeader⟩
    rintro _ ⟨⟩ other member
    rcases List.mem_append.mp member with earlier | last
    · exact heads.member first rfl other earlier
    · rw [List.mem_singleton.mp last]
      simpa [startsSection, heads.current, sameSection] using follows

/-- A row that is taken up belongs to the open section, as its first row if it opens it. -/
theorem takeUp (heads : run.Heads design rows)
    (takes : takeUp design isFirst row run = .ok (isNew, taken)) :
    taken.Heads design ((if isNew then [] else rows) ++ [row]) := by
  obtain ⟨⟨fresh, detector⟩, observed, same⟩ := bind_eq_ok_iff.mp takes
  cases same
  rw [SectionDetector.observe] at observed
  split at observed
  · cases observed
  · split at observed
    · cases observed
      exact startSection heads.pageHeight rfl
    · next follows =>
      cases observed
      simp only [Bool.or_eq_true, not_or, Bool.not_eq_true] at follows
      exact heads.follow follows.2 _

end Heads

/-- The headers that a layout has kept are those of the open section, wherever it has come to. -/
theorem Reachable.heads (reached : Reachable design rows run) : run.Heads design rows := by
  induction reached with
  | start => exact Heads.start design
  | visit _ takes visited heads => exact (heads.takeUp takes).of_sameHeading (.of_visitRow takes visited)

theorem repeatIf_eq (wanted : Bool) (run : LayoutRun) (cells : List Cell) :
    repeatIf wanted run cells =
      { run with paginator := (run.paginator.appendCopy (if wanted then cells else [])).2 } := by
  cases wanted <;> rfl

/-- A row that does not fit the page goes to a new one, below the headers that are repeated there, if
the page has room for all of them. -/
theorem placeRow_of_overflow {cells named titled : List Cell}
    (made : design.dataRow row run.previous run.paginator.y design.options.showGroupsAsRepeat =
      .ok cells)
    (full : run.paginator.needsBreak (batchHeight cells) = true)
    (names : (if design.options.repeatSectionHeader then run.sectionHeader else []) = named)
    (titles : (if design.options.repeatColumnHeader then run.columnHeader else []) = titled)
    (first : LevelBatch named) (second : LevelBatch titled) (tall : 0 ≤ batchHeight cells)
    (room : batchHeight named + batchHeight titled + batchHeight cells < run.paginator.pageHeight)
    (coordinate : run.paginator.pageHeight ≤ Coordinate.greatest) :
    ∃ shown, design.dataRow row run.previous (batchHeight named + batchHeight titled) true = .ok shown ∧
      batchHeight shown = batchHeight cells ∧
      placeRow design run row = .ok { run with
        paginator := run.paginator.newPage.place
          (atHeight 0 named ++ atHeight (batchHeight named) titled ++ shown)
          (batchHeight named + batchHeight titled + batchHeight cells) } := by
  -- The row is made again below the headers. It then has the height that was tested before.
  have alike := cells_alike design (.dataRow row run.previous) true design.options.showGroupsAsRepeat
    (batchHeight named + batchHeight titled) run.paginator.y
  rw [Design.cells, Design.cells, made] at alike
  obtain ⟨shown, again, related⟩ := alike.exists_ok
  have height : batchHeight shown = batchHeight cells := batchHeight_eq_of_alike related
  have printed : design.cells (.dataRow row run.previous) true _ = .ok shown := again
  refine ⟨shown, again, height, ?_⟩
  have headed : ((run.paginator.newPage.appendCopy named).2.appendCopy titled).2 = _ :=
    Paginator.appendCopy_newPage first second (by omega)
  have offset : (run.paginator.newPage.place (atHeight 0 named ++ atHeight (batchHeight named) titled)
      (batchHeight named + batchHeight titled)).y = batchHeight named + batchHeight titled := by
    have nonneg := Int.add_nonneg first.nonneg second.nonneg
    simpa [Paginator.place, Paginator.newPage] using
      Coordinate.wrap_of_nonneg nonneg (by omega)
  have low := (Design.inRange_batchHeight_cells printed).1
  simp only [placeRow, made, ok_bind, full, ↓reduceIte, repeatIf_eq, names, titles, headed, offset,
    again, LayoutRun.append, pure_eq_ok]
  rw [Paginator.append_of_room (Paginator.room_of_lt low (by rw [offset, height]; exact room)), height,
    Paginator.place_place]

/-- The second of the sales, in the same city as the first one. -/
def secondSale : Row := [.text "A", .text "x", .number (.ofInt 2)]

/-- The fourth of the cities. -/
def fourthCity : Row := [.text "y"]

end LayoutRun

end PagedReport
