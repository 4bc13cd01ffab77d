import PagedReport.Proofs.Geometry
import PagedReport.Proofs.Outline

/-! # Reports on one page

On a page without end the blocks of a report would stand one below the other, with gaps between
sections. A layout whose page is higher than that gives just this page.
-/

namespace PagedReport

namespace Design

/-- Blocks one below the other, from a height on: their cells, and the height where they end. -/
def scroll (design : Design) : (y : Int) → List Block → Except ReportError (List Cell × Int)
  | y, [] => .ok ([], y)
  | y, block :: rest => do
    let cells ← design.cells block design.options.showGroupsAsRepeat y
    let (below, bottom) ← scroll design (y + design.blockHeight block + block.gap) rest
    return (cells ++ below, bottom)

variable {design : Design}

theorem scroll_cons_eq_ok {y : Int} {block : Block} {rest : List Block} {cells : List Cell}
    {bottom : Int} (run : design.scroll y (block :: rest) = .ok (cells, bottom)) :
    ∃ first below, design.cells block design.options.showGroupsAsRepeat y = .ok first ∧
      design.scroll (y + design.blockHeight block + block.gap) rest = .ok (below, bottom) ∧
      cells = first ++ below := by
  obtain ⟨first, made, others⟩ := bind_eq_ok_iff.mp run
  obtain ⟨⟨below, _⟩, run, same⟩ := bind_eq_ok_iff.mp others
  cases same
  exact ⟨first, below, made, run, rfl⟩

/-- Blocks end nowhere above their start. -/
theorem le_of_scroll (lines : design.metrics.PositiveLines) {blocks : List Block} {y bottom : Int}
    {cells : List Cell} (run : design.scroll y blocks = .ok (cells, bottom)) : y ≤ bottom := by
  induction blocks generalizing y cells with
  | nil => cases run; exact Int.le_refl _
  | cons block rest ih =>
    obtain ⟨_, _, _, others, _⟩ := scroll_cons_eq_ok run
    have height := blockHeight_nonneg lines block
    have gap := block.gap_nonneg
    have lower := ih others
    omega

end Design

namespace Press

variable {design : Design} {press : Press}

/-- Blocks that can be printed can be put one below the other, from any height on. -/
theorem exists_scroll {blocks : List Block} {printed : Press}
    (run : press.printAll design (blocks.map .ok) = .ok printed) (y : Int) :
    ∃ cells bottom, design.scroll y blocks = .ok (cells, bottom) := by
  induction blocks generalizing press y with
  | nil => exact ⟨[], y, rfl⟩
  | cons block rest ih =>
    rw [List.map_cons, printAll_ok_cons] at run
    obtain ⟨next, first, others⟩ := bind_eq_ok_iff.mp run
    obtain ⟨cells, made, _⟩ := bind_eq_ok_iff.mp first
    have here := Design.cells_eq_ok_atHeight made y
    obtain ⟨below, bottom, scrolled⟩ := ih others (y + design.blockHeight block + block.gap)
    refine ⟨atHeight y cells ++ below, bottom, ?_⟩
    rw [Design.scroll, here, ok_bind, scrolled]
    rfl

/-- A block for which there is room goes below the others. -/
theorem print_of_room {block : Block} {cells : List Cell}
    (made : design.cells block design.options.showGroupsAsRepeat press.y = .ok cells)
    (room : press.y + batchHeight cells < press.pageHeight) :
    press.print design block = .ok (((press.stack block .flow cells).skip block.gap).note block) := by
  have free : press.paginator.needsBreak (batchHeight cells) = false :=
    Paginator.room_of_lt (Design.inRange_batchHeight_cells made).1 room
  simp [print, made, put, free]

/-- Blocks that end above the page height all go on the page that is open. The page height is a
coordinate, so the height of each block is one, and so is that where it ends. -/
theorem printAll_of_scroll (press : Press) (lines : design.metrics.PositiveLines)
    (coordinate : press.pageHeight ≤ Coordinate.greatest) (nonneg : 0 ≤ press.y) {blocks : List Block}
    {cells : List Cell} {bottom : Int} (run : design.scroll press.y blocks = .ok (cells, bottom))
    (room : bottom < press.pageHeight) :
    ∃ printed, press.printAll design (blocks.map .ok) = .ok printed ∧
      printed.closed = press.closed ∧ Sheet.cells printed.last = Sheet.cells press.last ++ cells := by
  induction blocks generalizing press cells with
  | nil =>
    cases run
    exact ⟨press, rfl, rfl, (List.append_nil _).symm⟩
  | cons block rest ih =>
    obtain ⟨first, below, made, others, rfl⟩ := Design.scroll_cons_eq_ok run
    have lower := Design.le_of_scroll lines others
    have gap := block.gap_nonneg
    have tall := Design.blockHeight_nonneg lines block
    have height : batchHeight first = design.blockHeight block :=
      Design.batchHeight_cells lines (by omega) made
    let next := ((press.stack block .flow first).skip block.gap).note block
    have kept : next.y = ((press.stack block .flow first).skip block.gap).y ∧
        next.pageHeight = press.pageHeight ∧ next.closed = press.closed ∧
        next.last = press.last ++ [⟨block, .flow, press.y, atHeight press.y first⟩] := by
      cases block <;> exact ⟨rfl, rfl, rfl, rfl⟩
    obtain ⟨y, pageHeight, closed, last⟩ := kept
    rw [y_skip_stack (by omega) (by omega), height] at y
    obtain ⟨printed, done, sheets, page⟩ :=
      ih next (pageHeight ▸ coordinate) (by omega) (y ▸ others) (pageHeight ▸ room)
    refine ⟨printed, ?_, sheets.trans closed, ?_⟩
    · rw [List.map_cons, printAll_ok_cons, print_of_room made (by omega), ok_bind]
      exact done
    · rw [page, last, Design.level_of_cells_eq_ok made]
      simp [Sheet.cells]

end Press

/-- A layout whose page height, like any a coordinate, exceeds the height of all blocks of the report, with
the gaps between sections, gives one page: the blocks of the outline one below the other. -/
theorem layOut_eq_scroll {design : Design} {cursor : Cursor} {pages : List Page}
    (lines : design.metrics.PositiveLines)
    (coordinate : design.options.pageHeight ≤ Coordinate.greatest)
    (success : (Report.new cursor design).layOut.1 = .ok pages) :
    ∃ cells bottom, design.scroll 0 (design.outline cursor.set.rows) = .ok (cells, bottom) ∧
      (bottom < design.options.pageHeight → pages = [cells]) := by
  obtain ⟨sheets, run, rfl⟩ := Report.exists_transcript success
  have read : Account.script design true (.start design) cursor.set.rows =
      (design.outline cursor.set.rows).map .ok := by
    rw [script_eq_body run, body_eq_outline run]
  obtain ⟨press, printed, rfl⟩ := map_eq_ok_iff.mp run
  rw [read] at printed
  obtain ⟨cells, bottom, scrolled⟩ := Press.exists_scroll printed 0
  refine ⟨cells, bottom, scrolled, ?_⟩
  intro room
  obtain ⟨reached, again, closed, page⟩ :=
    (Press.start design.options.pageHeight).printAll_of_scroll lines coordinate (le_refl 0) scrolled room
  obtain rfl := Except.ok.inj (printed.symm.trans again)
  rw [Press.sheets, closed]
  exact congrArg (fun cells => [cells]) (page.trans (List.nil_append cells))

/-- A page of 400 units has room for a report of 210. -/
theorem layOut_sales_eq_scroll :
    (salesDesign 400).metrics.PositiveLines ∧
      (salesDesign 400).options.pageHeight ≤ Coordinate.greatest ∧
      ∃ cells, (salesDesign 400).scroll 0 ((salesDesign 400).outline salesSet.rows) = .ok (cells, 210) ∧
        (Report.new (Cursor.ofSet salesSet) (salesDesign 400)).layOut.1 = .ok [cells] := by
  have lines : (salesDesign 400).metrics.PositiveLines := fun _ => show (1 : Int) ≤ 12 by decide
  have success : (Report.new (Cursor.ofSet salesSet) (salesDesign 400)).layOut.1 = .ok _ := rfl
  obtain ⟨cells, bottom, scrolled, page⟩ := layOut_eq_scroll lines (by decide) success
  have height : (salesDesign 400).scroll 0 ((salesDesign 400).outline salesSet.rows) = .ok (_, 210) := rfl
  obtain rfl : bottom = 210 := congrArg Prod.snd (Except.ok.inj (scrolled.symm.trans height))
  exact ⟨lines, by decide, cells, scrolled, success.trans (congrArg Except.ok (page (by decide)))⟩

end PagedReport
