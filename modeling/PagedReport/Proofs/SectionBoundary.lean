import PagedReport.Proofs.Scroll

/-! # Reports in succession

Nothing is carried over from one section to the next: no sum, no group value, no header. So the rows
of two reports, one after the other, give the cells of both reports if a new section starts between
them, those of the second one moved down by the height of the first.
-/

namespace PagedReport

namespace Design

/-- The height of all blocks of a report, and of a gap below each of its sections. -/
def reportHeight (design : Design) (rows : List Row) : Int :=
  ((design.outline rows).map design.blockHeight).sum +
    ruleSpace * (sections design.columns rows).length

variable {design : Design}

/-- Blocks end where their heights and gaps add up. -/
theorem bottom_of_scroll {blocks : List Block} {y bottom : Int} {cells : List Cell}
    (run : design.scroll y blocks = .ok (cells, bottom)) :
    bottom = y + (blocks.map design.blockHeight).sum + (blocks.map Block.gap).sum := by
  induction blocks generalizing y cells with
  | nil => cases run; simp
  | cons block rest ih =>
    obtain ⟨_, _, _, others, _⟩ := scroll_cons_eq_ok run
    rw [ih others, List.map_cons, List.sum_cons, List.map_cons, List.sum_cons]
    omega

theorem scroll_cons_of_ok {y bottom : Int} {block : Block} {rest : List Block} {first below : List Cell}
    (made : design.cells block design.options.showGroupsAsRepeat y = .ok first)
    (others : design.scroll (y + design.blockHeight block + block.gap) rest = .ok (below, bottom)) :
    design.scroll y (block :: rest) = .ok (first ++ below, bottom) := by
  rw [scroll, made, ok_bind, others]
  rfl

/-- Blocks that start further down have the same cells further down. -/
theorem scroll_lowered {blocks : List Block} {y bottom : Int} {cells : List Cell}
    (run : design.scroll y blocks = .ok (cells, bottom)) (distance : Int) :
    design.scroll (y + distance) blocks = .ok (cells.map (Cell.lowered distance), bottom + distance) := by
  induction blocks generalizing y cells with
  | nil => cases run; rfl
  | cons block rest ih =>
    obtain ⟨first, below, made, others, rfl⟩ := scroll_cons_eq_ok run
    have here := cells_eq_ok_atHeight made (y + distance)
    rw [← lowered_atHeight, level_of_cells_eq_ok made] at here
    rw [List.map_append]
    apply scroll_cons_of_ok here
    rw [show y + distance + design.blockHeight block + block.gap =
      y + design.blockHeight block + block.gap + distance by omega]
    exact ih others

/-- Two lists of blocks stand one below the other. -/
theorem scroll_append {first second : List Block} {y middle bottom : Int} {above below : List Cell}
    (upper : design.scroll y first = .ok (above, middle))
    (lower : design.scroll middle second = .ok (below, bottom)) :
    design.scroll y (first ++ second) = .ok (above ++ below, bottom) := by
  induction first generalizing y above with
  | nil => cases upper; exact lower
  | cons block rest ih =>
    obtain ⟨here, others, made, run, rfl⟩ := scroll_cons_eq_ok upper
    rw [List.append_assoc]
    exact scroll_cons_of_ok made (ih run)

/-- There is no gap below the rows of a section. -/
private theorem gap_of_mem_rowsBlocks {before rest : List Row} {block : Block}
    (member : block ∈ design.rowsBlocks before rest) : block.gap = 0 := by
  induction rest generalizing before with
  | nil => cases member
  | cons row rest ih =>
    rcases List.mem_append.mp member with here | later
    · rcases List.mem_cons.mp here with rfl | line
      · rfl
      · obtain ⟨column, _, rfl⟩ := List.mem_map.mp line
        rfl
    · exact ih later

private theorem sum_gap_sectionBlocks {group : List Row} (filled : group ≠ []) :
    ((design.sectionBlocks group).map Block.gap).sum = ruleSpace := by
  obtain ⟨first, rest, rfl⟩ := List.exists_cons_of_ne_nil filled
  have rows : ((design.rowsBlocks [] (first :: rest)).map Block.gap).sum = 0 := by
    apply List.sum_eq_zero
    intro gap member
    obtain ⟨block, inside, rfl⟩ := List.mem_map.mp member
    exact gap_of_mem_rowsBlocks inside
  simp [sectionBlocks, Block.gap, rows]

/-- A report has a gap below each of its sections, and no other. -/
theorem sum_gap_outline (design : Design) (rows : List Row) :
    ((design.outline rows).map Block.gap).sum = ruleSpace * (sections design.columns rows).length := by
  have grand : ((design.grandBlocks rows).map Block.gap).sum = 0 := by
    rw [grandBlocks]
    split <;> rfl
  have each : (sections design.columns rows).map
      (List.sum ∘ fun group => (design.sectionBlocks group).map Block.gap) =
      List.replicate (sections design.columns rows).length ruleSpace :=
    List.map_eq_replicate_iff.mpr fun group member =>
      sum_gap_sectionBlocks (List.ne_nil_of_mem_splitBy member)
  rw [outline, List.map_append, List.sum_append, grand, add_zero, List.map_flatMap, List.flatMap_def,
    List.sum_flatten, List.map_map, each, List.sum_replicate, nsmul_eq_mul, mul_comm]

/-- The rows of two reports fall into the sections of both if a section starts between them. -/
theorem sections_append {columns : List Column} {first second : List Row}
    (apart : ∀ row ∈ first.getLast?, ∀ next ∈ second.head?, sameSection columns row next = false) :
    sections columns (first ++ second) = sections columns first ++ sections columns second :=
  List.splitBy_append apart

/-- Without grand totals two reports with a section boundary between them follow one another. -/
theorem outline_append {first second : List Row} (noGrand : design.options.grandTotals = false)
    (apart : ∀ row ∈ first.getLast?, ∀ next ∈ second.head?,
      sameSection design.columns row next = false) :
    design.outline (first ++ second) = design.outline first ++ design.outline second := by
  simp [outline, grandBlocks, noGrand, sections_append apart]

theorem reportHeight_append {first second : List Row} (noGrand : design.options.grandTotals = false)
    (apart : ∀ row ∈ first.getLast?, ∀ next ∈ second.head?,
      sameSection design.columns row next = false) :
    design.reportHeight (first ++ second) = design.reportHeight first + design.reportHeight second := by
  simp only [reportHeight, outline_append noGrand apart, sections_append apart, List.map_append,
    List.sum_append, List.length_append, Nat.cast_add]
  ring

end Design

/-- The blocks of a report that is laid out have cells one below the other, down to the height of the
report. They make up its only page if that is higher. -/
private theorem exists_scroll_of_layOut {design : Design} {cursor : Cursor} {pages : List Page}
    (lines : design.metrics.PositiveLines)
    (coordinate : design.options.pageHeight ≤ Coordinate.greatest)
    (success : (Report.new cursor design).layOut.1 = .ok pages) :
    ∃ cells, design.scroll 0 (design.outline cursor.set.rows) =
        .ok (cells, design.reportHeight cursor.set.rows) ∧
      (design.reportHeight cursor.set.rows < design.options.pageHeight → pages = [cells]) := by
  obtain ⟨sheets, run, rfl⟩ := Report.exists_transcript success
  obtain ⟨press, printed, rfl⟩ := map_eq_ok_iff.mp run
  rw [script_eq_body run, body_eq_outline run] at printed
  obtain ⟨cells, bottom, scrolled⟩ := Press.exists_scroll printed 0
  have height : bottom = design.reportHeight cursor.set.rows := by
    rw [Design.bottom_of_scroll scrolled, Design.sum_gap_outline, zero_add]
    rfl
  subst height
  refine ⟨cells, scrolled, fun room => ?_⟩
  obtain ⟨reached, again, closed, page⟩ :=
    (Press.start design.options.pageHeight).printAll_of_scroll lines coordinate (le_refl 0) scrolled room
  obtain rfl := Except.ok.inj (printed.symm.trans again)
  rw [Press.sheets, closed]
  exact congrArg (fun cells => [cells]) page

/-- Two reports without grand totals, of which the second one starts a new section, are laid out in
succession as they are laid out by themselves: on a page with room for both, the height of which is a
coordinate like that of any page, the cells of the second one follow those of the first, moved down by
its height and otherwise the same. -/
theorem layOut_append {design : Design} {first second both : Cursor} {pages pages' joined : List Page}
    (lines : design.metrics.PositiveLines)
    (coordinate : design.options.pageHeight ≤ Coordinate.greatest)
    (noGrand : design.options.grandTotals = false)
    (rows : both.set.rows = first.set.rows ++ second.set.rows)
    (occupied : first.set.rows ≠ []) (occupied' : second.set.rows ≠ [])
    (apart : sameSection design.columns (first.set.rows.getLast occupied)
      (second.set.rows.head occupied') = false)
    (room : design.reportHeight both.set.rows < design.options.pageHeight)
    (success : (Report.new first design).layOut.1 = .ok pages)
    (success' : (Report.new second design).layOut.1 = .ok pages')
    (joint : (Report.new both design).layOut.1 = .ok joined) :
    ∃ above below, pages = [above] ∧ pages' = [below] ∧
      joined = [above ++ below.map (Cell.lowered (design.reportHeight first.set.rows))] := by
  have boundary : ∀ row ∈ first.set.rows.getLast?, ∀ next ∈ second.set.rows.head?,
      sameSection design.columns row next = false := by
    intro row last next head
    rw [← List.getLast_of_mem_getLast? last, ← List.head_of_mem_head? head]
    exact apart
  obtain ⟨above, upper, page⟩ := exists_scroll_of_layOut lines coordinate success
  obtain ⟨below, lower, page'⟩ := exists_scroll_of_layOut lines coordinate success'
  obtain ⟨cells, whole, sheet⟩ := exists_scroll_of_layOut lines coordinate joint
  have start := Design.le_of_scroll lines upper
  have start' := Design.le_of_scroll lines lower
  have height := Design.reportHeight_append noGrand boundary
  rw [← rows] at height
  have moved := Design.scroll_lowered lower (design.reportHeight first.set.rows)
  rw [zero_add] at moved
  have stacked := Design.scroll_append upper moved
  rw [← Design.outline_append noGrand boundary, ← rows, whole] at stacked
  obtain ⟨rfl, _⟩ := Prod.mk.inj (Except.ok.inj stacked)
  exact ⟨above, below, page (by omega), page' (by omega), sheet room⟩

/-- The sales of one region. -/
def firstSales : Cursor := Cursor.ofSet
  { columns := ["Region", "City", "Sales"]
    rows := [[.text "A", .text "x", .number (.ofInt 1)], [.text "A", .text "x", .number (.ofInt 2)]]
    rectangular := by decide }

/-- The sale of another one. -/
def otherSales : Cursor := Cursor.ofSet
  { columns := ["Region", "City", "Sales"]
    rows := [[.text "B", .text "y", .number (.ofInt 4)]]
    rectangular := by decide }

/-- The sales of both. -/
def allSales : Cursor := Cursor.ofSet salesSet

/-- Sales as they are laid out without grand totals, on a page of 400 units. -/
def regionalDesign : Design := { salesDesign 400 with options := { pageHeight := 400 } }

/-- The sales of two regions are laid out as those of the one, and those of the other 100 units
below. -/
theorem layOut_regional_sales_append :
    regionalDesign.metrics.PositiveLines ∧ regionalDesign.options.pageHeight ≤ Coordinate.greatest ∧
      regionalDesign.options.grandTotals = false ∧
      allSales.set.rows = firstSales.set.rows ++ otherSales.set.rows ∧
      (∃ occupied occupied', sameSection regionalDesign.columns (firstSales.set.rows.getLast occupied)
        (otherSales.set.rows.head occupied') = false) ∧
      regionalDesign.reportHeight allSales.set.rows < regionalDesign.options.pageHeight ∧
      regionalDesign.reportHeight firstSales.set.rows = 100 ∧ ∃ above below,
        (Report.new firstSales regionalDesign).layOut.1 = .ok [above] ∧
        (Report.new otherSales regionalDesign).layOut.1 = .ok [below] ∧
        (Report.new allSales regionalDesign).layOut.1 = .ok [above ++
          below.map (Cell.lowered (regionalDesign.reportHeight firstSales.set.rows))] := by
  have lines : regionalDesign.metrics.PositiveLines := fun _ => show (1 : Int) ≤ 12 by decide
  have rows : allSales.set.rows = firstSales.set.rows ++ otherSales.set.rows := rfl
  have occupied : firstSales.set.rows ≠ [] := List.cons_ne_nil _ _
  have occupied' : otherSales.set.rows ≠ [] := List.cons_ne_nil _ _
  have apart : sameSection regionalDesign.columns (firstSales.set.rows.getLast occupied)
      (otherSales.set.rows.head occupied') = false := rfl
  have room : regionalDesign.reportHeight allSales.set.rows < regionalDesign.options.pageHeight := by
    decide
  have success : (Report.new firstSales regionalDesign).layOut.1 = .ok _ := rfl
  have success' : (Report.new otherSales regionalDesign).layOut.1 = .ok _ := rfl
  have joint : (Report.new allSales regionalDesign).layOut.1 = .ok _ := rfl
  obtain ⟨above, below, page, page', joined⟩ :=
    layOut_append lines (by decide) rfl rows occupied occupied' apart room success success' joint
  exact ⟨lines, by decide, rfl, rows, ⟨occupied, occupied', apart⟩, room, rfl, above, below,
    success.trans (congrArg Except.ok page), success'.trans (congrArg Except.ok page'),
    joint.trans (congrArg Except.ok joined)⟩

end PagedReport
