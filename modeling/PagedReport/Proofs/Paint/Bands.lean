import PagedReport.Paint.Text
import PagedReport.Proofs.Paint.Lines

/-! # Painted pages

The bands of a page stand in ascending order and divide its cells by their heights. A page is painted
band by band: the upper rule, text lines to which the cells of the band are allotted, the lower rule.
Only a band none of whose cells covers a position leaves no lines.
-/

namespace PagedReport

namespace Band

/-- Bands in ascending order. -/
def Ascending (bands : List Band) : Prop := bands.Pairwise fun upper lower => upper.y < lower.y

/-- The cells of the bands at a height. -/
def cellsAt (y : Int) (bands : List Band) : List Cell :=
  (bands.filter fun band => band.y = y).flatMap Band.cells

/-- The bands divide the cells of a page by height. -/
structure Divide (page : Page) (bands : List Band) : Prop where
  ascending : Ascending bands
  filled : ∀ band ∈ bands, band.cells ≠ []
  cells : ∀ y, cellsAt y bands = page.filter fun cell => cell.bounds.y = y

theorem cellsAt_append (y : Int) (first second : List Band) :
    cellsAt y (first ++ second) = cellsAt y first ++ cellsAt y second := by
  rw [cellsAt, List.filter_append, List.flatMap_append]
  rfl

theorem cellsAt_cons (y : Int) (band : Band) (rest : List Band) :
    cellsAt y (band :: rest) = (if band.y = y then band.cells else []) ++ cellsAt y rest := by
  rw [cellsAt, List.filter_cons]
  by_cases here : band.y = y <;> simp [here, cellsAt]

theorem cellsAt_eq_nil {y : Int} {bands : List Band} (apart : ∀ band ∈ bands, band.y ≠ y) :
    cellsAt y bands = [] := by
  rw [cellsAt, List.filter_eq_nil_iff.mpr fun band member => by simpa using apart band member]
  rfl

/-- The bands at a height are the one that stands there. -/
theorem cellsAt_of_mem {band : Band} {bands : List Band} (ascending : Ascending bands)
    (member : band ∈ bands) : cellsAt band.y bands = band.cells := by
  obtain ⟨above, below, rfl⟩ := List.append_of_mem member
  obtain ⟨_, later, earlier⟩ := List.pairwise_append.mp ascending
  have high : cellsAt band.y above = [] := cellsAt_eq_nil fun other known =>
    Int.ne_of_lt (earlier other known band List.mem_cons_self)
  have low : cellsAt band.y below = [] := cellsAt_eq_nil fun other known =>
    Int.ne_of_gt ((List.pairwise_cons.mp later).1 other known)
  rw [cellsAt_append, cellsAt_cons, if_pos rfl, high, low, List.nil_append, List.append_nil]

theorem exists_of_cellsAt_ne_nil {y : Int} {bands : List Band} (found : cellsAt y bands ≠ []) :
    ∃ band ∈ bands, band.y = y := by
  obtain ⟨cell, inside⟩ := List.exists_mem_of_ne_nil _ found
  obtain ⟨band, member, _⟩ := List.mem_flatMap.mp inside
  obtain ⟨known, here⟩ := List.mem_filter.mp member
  exact ⟨band, known, of_decide_eq_true here⟩

/-- A cell goes to the band at its height, or to a new one between those above and below it. -/
theorem exists_insert_eq (cell : Cell) {bands : List Band} (ascending : Ascending bands) :
    ∃ above below, ∃ here : Option Band, bands = above ++ (here.toList ++ below) ∧
      insert cell bands =
        above ++ ⟨cell.bounds.y, (here.map Band.cells).getD [] ++ [cell]⟩ :: below ∧
      (∀ band ∈ above, band.y < cell.bounds.y) ∧ (∀ band ∈ here, band.y = cell.bounds.y) ∧
      ∀ band ∈ below, cell.bounds.y < band.y := by
  induction bands with
  | nil => exact ⟨[], [], none, rfl, rfl, by simp, by simp, by simp⟩
  | cons first rest ih =>
    obtain ⟨later, others⟩ := List.pairwise_cons.mp ascending
    rw [insert]
    split
    · next before =>
      refine ⟨[], first :: rest, none, rfl, rfl, by simp, by simp, ?_⟩
      exact List.forall_mem_cons.mpr
        ⟨before, fun band member => Int.lt_trans before (later band member)⟩
    · split
      · next same =>
        refine ⟨[], rest, some first, rfl, ?_, by simp, by simp [same], ?_⟩
        · rw [same]
          rfl
        · rw [same]
          exact later
      · obtain ⟨above, below, here, rfl, added, high, level, low⟩ := ih others
        refine ⟨first :: above, below, here, rfl, congrArg (first :: ·) added, ?_, level, low⟩
        exact List.forall_mem_cons.mpr ⟨by omega, high⟩

theorem ascending_insert (cell : Cell) {bands : List Band} (ascending : Ascending bands) :
    Ascending (insert cell bands) := by
  obtain ⟨above, below, here, rfl, added, high, _, low⟩ := exists_insert_eq cell ascending
  obtain ⟨upper, rest, apart⟩ := List.pairwise_append.mp ascending
  have lower : Ascending below := (List.pairwise_append.mp rest).2.1
  rw [added]
  refine List.pairwise_append.mpr ⟨upper, List.pairwise_cons.mpr ⟨low, lower⟩, ?_⟩
  intro band known other member
  rcases List.mem_cons.mp member with rfl | later
  · exact high band known
  · exact apart band known other (List.mem_append_right _ later)

theorem cells_ne_nil_of_mem_insert {cell : Cell} {bands : List Band} (ascending : Ascending bands)
    (filled : ∀ band ∈ bands, band.cells ≠ []) {band : Band} (member : band ∈ insert cell bands) :
    band.cells ≠ [] := by
  obtain ⟨above, below, here, rfl, added, _⟩ := exists_insert_eq cell ascending
  rw [added] at member
  rcases List.mem_append.mp member with earlier | member
  · exact filled band (List.mem_append_left _ earlier)
  · rcases List.mem_cons.mp member with rfl | later
    · exact List.append_ne_nil_of_right_ne_nil _ (List.cons_ne_nil _ _)
    · exact filled band (List.mem_append_right _ (List.mem_append_right _ later))

/-- A cell is added at its height and nowhere else. -/
theorem cellsAt_insert (cell : Cell) {bands : List Band} (ascending : Ascending bands) (y : Int) :
    cellsAt y (insert cell bands) =
      cellsAt y bands ++ if cell.bounds.y = y then [cell] else [] := by
  obtain ⟨above, below, here, rfl, added, high, level, low⟩ := exists_insert_eq cell ascending
  rw [added, cellsAt_append, cellsAt_append, cellsAt_append, cellsAt_cons]
  by_cases same : cell.bounds.y = y
  · have noneAbove : cellsAt y above = [] :=
      cellsAt_eq_nil fun band known => same ▸ Int.ne_of_lt (high band known)
    have noneBelow : cellsAt y below = [] :=
      cellsAt_eq_nil fun band known => same ▸ Int.ne_of_gt (low band known)
    have old : cellsAt y here.toList = (here.map Band.cells).getD [] := by
      cases here with
      | none => rfl
      | some band => simp [cellsAt, (level band rfl).trans same]
    simp [same, old, noneAbove, noneBelow]
  · have old : cellsAt y here.toList = [] := by
      refine cellsAt_eq_nil fun band known => ?_
      rw [level band (Option.mem_toList.mp known)]
      exact same
    simp [same, old]

theorem Divide.insert {page : Page} {bands : List Band} (divide : Divide page bands) (cell : Cell) :
    Divide (page ++ [cell]) (insert cell bands) where
  ascending := ascending_insert cell divide.ascending
  filled _ member := cells_ne_nil_of_mem_insert divide.ascending divide.filled member
  cells y := by
    rw [cellsAt_insert cell divide.ascending, divide.cells, List.filter_append, List.filter_singleton,
      Bool.cond_decide]

/-- The bands of a page divide its cells by height. -/
theorem divide_ofPage (page : Page) : Divide page (ofPage page) := by
  induction page using List.reverseRecOn with
  | nil => exact ⟨.nil, fun _ member => (nomatch member), fun _ => rfl⟩
  | append_singleton page cell ih =>
    rw [ofPage, List.foldl_concat]
    exact ih.insert cell

/-- A band of a page holds the cells of the page at its height in their order, and at least one. -/
theorem mem_ofPage_iff {page : Page} {band : Band} :
    band ∈ ofPage page ↔
      band.cells = (page.filter fun cell => cell.bounds.y = band.y) ∧ band.cells ≠ [] := by
  have divide := divide_ofPage page
  constructor
  · intro member
    exact ⟨(cellsAt_of_mem divide.ascending member).symm.trans (divide.cells band.y),
      divide.filled band member⟩
  · rintro ⟨cells, filled⟩
    rw [← divide.cells] at cells
    obtain ⟨other, member, same⟩ := exists_of_cellsAt_ne_nil (cells ▸ filled)
    have whole := cellsAt_of_mem divide.ascending member
    rw [same, ← cells] at whole
    cases band
    cases other
    exact (congrArg₂ Band.mk same whole.symm) ▸ member

/-- A band is painted if any of its cells covers a position. -/
theorem lines_eq (charWidth : Int) (band : Band) :
    band.lines charWidth =
      if band.cells.any (Cell.coversAny charWidth) then
        visibleRule (ruleLine charWidth .top band.cells) ++
          (textLines charWidth band.cells).map PaintedLine.line ++
          visibleRule (ruleLine charWidth .bottom band.cells)
      else [] := by
  have empty : (band.cells.all fun cell => (cell.span charWidth).isEmpty) =
      !band.cells.any (Cell.coversAny charWidth) :=
    List.all_eq_not_any_not
  rw [lines, empty]
  cases band.cells.any (Cell.coversAny charWidth) <;> rfl

theorem flatMap_lines (charWidth : Int) (bands : List Band) :
    bands.flatMap (lines charWidth) =
      (bands.filter fun band => band.cells.any (Cell.coversAny charWidth)).flatMap fun band =>
        visibleRule (ruleLine charWidth .top band.cells) ++
          (textLines charWidth band.cells).map PaintedLine.line ++
          visibleRule (ruleLine charWidth .bottom band.cells) := by
  induction bands with
  | nil => rfl
  | cons band rest ih =>
    rw [List.flatMap_cons, ih, lines_eq, List.filter_cons]
    split <;> rfl

end Band

/-- The character of a rule: two strokes for a double line. -/
def Line.stroke : Line → Glyph
  | .none => .plain ' '
  | .single => .plain '-'
  | .double => .plain '='

/-- A rule along an edge of cells: at each position it shows the line of the last cell that covers the
position and has one there. -/
structure TextLine.IsRule (charWidth : Int) (edge : Edge) (cells : List Cell) (rule : TextLine) : Prop where
  shown : ∀ before cell after, cells = before ++ cell :: after → cell.borders.line edge ≠ .none →
    ∀ position, (cell.span charWidth).Covers position →
      (∀ later ∈ after, (later.span charWidth).Covers position → later.borders.line edge = .none) →
      rule.glyph position = (cell.borders.line edge).stroke
  blank : ∀ position, (∀ cell ∈ cells, (cell.span charWidth).Covers position →
    cell.borders.line edge = .none) → rule.glyph position = .blank

/-- Whether any cell that covers a position has a line along an edge. -/
def drawsRule (charWidth : Int) (edge : Edge) (cells : List Cell) : Bool :=
  cells.any fun cell => cell.coversAny charWidth && cell.borders.has edge

section Rules

variable {charWidth : Int} {edge : Edge} {cells : List Cell}

/-- A character drawn along a span is seen on the span. -/
private theorem glyph_stroke (line : TextLine) (charWidth : Int) (cell : Cell) (stroke : Glyph)
    (position : Nat) [Decidable ((cell.span charWidth).Covers position)] :
    (line.overlay (cell.span charWidth).start
        (List.replicate (cell.span charWidth).width stroke)).glyph position =
      if (cell.span charWidth).Covers position then stroke else line.glyph position := by
  have stop := cell.stop_span charWidth
  rw [TextLine.glyph_overlay, List.length_replicate, ← stop]
  by_cases covers : (cell.span charWidth).Covers position
  · rw [if_pos covers]
    obtain ⟨start, inside⟩ := covers
    rw [if_pos ⟨start, inside⟩, TextLine.glyph_eq, List.getElem?_replicate, if_pos (by omega),
      Option.getD_some]
  · exact (if_neg covers).trans (if_neg covers).symm

/-- The last cell is drawn over the rule of those before it. -/
theorem glyph_ruleLine_concat (charWidth : Int) (edge : Edge) (cells : List Cell) (cell : Cell)
    (position : Nat) [Decidable ((cell.span charWidth).Covers position)] :
    (ruleLine charWidth edge (cells ++ [cell])).glyph position =
      if cell.borders.line edge ≠ .none ∧ (cell.span charWidth).Covers position then
        (cell.borders.line edge).stroke
      else (ruleLine charWidth edge cells).glyph position := by
  rw [ruleLine, List.foldl_concat, ← ruleLine]
  cases line : cell.borders.line edge with
  | none => exact (if_neg fun drawn => drawn.1 rfl).symm
  | single =>
    simp only [Line.ruleChar?, glyph_stroke, ne_eq, reduceCtorEq, not_false_eq_true, true_and]
    rfl
  | double =>
    simp only [Line.ruleChar?, glyph_stroke, ne_eq, reduceCtorEq, not_false_eq_true, true_and]
    rfl

/-- What is drawn along an edge is a rule. -/
theorem isRule_ruleLine (charWidth : Int) (edge : Edge) (cells : List Cell) :
    (ruleLine charWidth edge cells).IsRule charWidth edge cells := by
  classical
  induction cells using List.reverseRecOn with
  | nil => exact ⟨fun before cell after parts => by simp at parts, fun _ _ => rfl⟩
  | append_singleton cells last ih =>
    refine ⟨?_, ?_⟩
    · intro before cell after parts drawn position covers hidden
      rw [glyph_ruleLine_concat]
      rcases List.eq_nil_or_concat after with rfl | ⟨others, final, rfl⟩
      · obtain ⟨rfl, rfl⟩ := List.append_singleton_inj.mp parts
        exact if_pos ⟨drawn, covers⟩
      · rw [List.concat_eq_append, ← List.cons_append, ← List.append_assoc] at parts
        obtain ⟨rfl, rfl⟩ := List.append_singleton_inj.mp parts
        rw [if_neg fun above => above.1 (hidden last (by simp) above.2)]
        exact ih.shown before cell others rfl drawn position covers fun later member =>
          hidden later (by simp [member])
    · intro position empty
      rw [glyph_ruleLine_concat, if_neg fun drawn => drawn.1 (empty last (by simp) drawn.2)]
      exact ih.blank position fun cell member => empty cell (by simp [member])

/-- A rule shows something wherever a cell with a line covers the position. -/
theorem isBlank_glyph_ruleLine (charWidth : Int) (edge : Edge) (cells : List Cell) (position : Nat) :
    ((ruleLine charWidth edge cells).glyph position).isBlank = false ↔
      ∃ cell ∈ cells, cell.borders.line edge ≠ .none ∧ (cell.span charWidth).Covers position := by
  classical
  induction cells using List.reverseRecOn with
  | nil => simp [ruleLine, Glyph.isBlank, Glyph.blank]
  | append_singleton cells last ih =>
    rw [glyph_ruleLine_concat]
    by_cases drawn : last.borders.line edge ≠ .none ∧ (last.span charWidth).Covers position
    · rw [if_pos drawn]
      refine iff_of_true ?_ ⟨last, by simp, drawn⟩
      cases line : last.borders.line edge with
      | none => exact absurd line drawn.1
      | single => rfl
      | double => rfl
    · rw [if_neg drawn, ih]
      simp only [List.mem_append, List.mem_singleton]
      constructor
      · rintro ⟨cell, member, seen⟩
        exact ⟨cell, .inl member, seen⟩
      · rintro ⟨cell, member | rfl, seen⟩
        · exact ⟨cell, member, seen⟩
        · exact absurd seen drawn

/-- A band has a rule exactly if a cell that covers a position has a line along the edge. -/
theorem Band.visibleRule_ruleLine (charWidth : Int) (edge : Edge) (cells : List Cell) :
    Band.visibleRule (ruleLine charWidth edge cells) =
      if drawsRule charWidth edge cells then [ruleLine charWidth edge cells] else [] := by
  have seen : (ruleLine charWidth edge cells).all Glyph.isBlank = !drawsRule charWidth edge cells := by
    rw [Bool.eq_iff_iff, List.all_eq_true, Bool.not_eq_true', drawsRule, List.any_eq_false]
    constructor
    · intro blank cell member drawn
      rw [Bool.and_eq_true, Cell.coversAny_iff] at drawn
      obtain ⟨wide, drawn⟩ := drawn
      have filled := (isBlank_glyph_ruleLine charWidth edge cells (cell.span charWidth).start).mpr
        ⟨cell, member, bne_iff_ne.mp drawn, Cell.covers_span_iff.mpr ⟨0, wide, rfl⟩⟩
      rw [TextLine.glyph_eq] at filled
      cases found : (ruleLine charWidth edge cells)[(cell.span charWidth).start]? with
      | none => rw [found] at filled; cases filled
      | some glyph =>
        rw [found, Option.getD_some, blank glyph (List.mem_of_getElem? found)] at filled
        cases filled
    · intro absent glyph member
      by_contra filled
      obtain ⟨position, inside, rfl⟩ := List.getElem_of_mem member
      have shown : (ruleLine charWidth edge cells).glyph position =
          (ruleLine charWidth edge cells)[position] := by
        rw [TextLine.glyph_eq, List.getElem?_eq_getElem inside, Option.getD_some]
      rw [Bool.not_eq_true, ← shown, isBlank_glyph_ruleLine] at filled
      obtain ⟨cell, known, drawn, covers⟩ := filled
      refine absent cell known ?_
      obtain ⟨place, within, _⟩ := Cell.covers_span_iff.mp covers
      rw [Bool.and_eq_true, Cell.coversAny_iff]
      exact ⟨Nat.zero_lt_of_lt within, bne_iff_ne.mpr drawn⟩
  rw [Band.visibleRule, seen]
  cases drawsRule charWidth edge cells <;> rfl

end Rules

end PagedReport
