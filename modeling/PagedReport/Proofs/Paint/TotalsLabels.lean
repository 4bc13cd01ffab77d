import PagedReport.Proofs.Paint.StyledText
import PagedReport.Proofs.Paint.TableRows

/-! # Painted labels of totals

The label of a line of totals is as wide as its text, with one unit and its padding to spare, so no part
of it is cut off when its width is counted in characters. It may reach across the totals of the line, and
these then move to the next line of text: on the line on which a cell is painted no other cell has a
position in common with it. Written out, a line keeps all of its characters but the blanks at its end.
-/

namespace PagedReport

namespace TextLine

/-- Only blanks are cut off at the end of a line. -/
theorem char_trimmed (line : TextLine) (position : Nat) :
    (line.trimmed.glyph position).char = (line.glyph position).char := by
  obtain ⟨blanks, parts, empty, _⟩ := line.exists_trimmed_append
  have blank (place : Nat) : (glyph blanks place).char = ' ' := by
    rw [glyph_eq]
    cases found : blanks[place]? with
    | none => rfl
    | some other => exact beq_iff_eq.mp (empty other (List.mem_of_getElem? found))
  have whole : (glyph (line.trimmed ++ blanks) position).char =
      (line.trimmed.glyph position).char := by
    rw [glyph_append]
    split
    · rfl
    · next past => rw [blank, glyph_of_length_le _ (Nat.le_of_not_lt past)]; rfl
  rw [← whole, ← parts]

/-- A line written without emphasis has its characters in their places. -/
theorem getD_line_plain (line : TextLine) (position : Nat) :
    (Styling.plain.line line).getD position ' ' = (line.glyph position).char := by
  have chars : Styling.plain.line line = line.trimmed.map Glyph.char :=
    line.trimmed.isRuns_runs.flatMap_chars
  rw [chars, ← char_trimmed, glyph_eq, List.getD_eq_getElem?_getD, List.getElem?_map]
  cases line.trimmed[position]? <;> rfl

end TextLine

namespace Cell

variable {cell : Cell} {width : Nat}

/-- A cell without bars, aligned to the left, shows its text from its first position on if there is
room for it. -/
theorem glyphAt_of_fits (borders : cell.borders = .none) (alignment : cell.alignment = .left)
    (fits : cell.text.toList.length ≤ width) {place : Nat} (inside : place < cell.text.toList.length) :
    cell.glyphAt width place = ⟨cell.text.toList[place], cell.font.emphasis⟩ := by
  have left : cell.leftBars = 0 := by rw [leftBars, borders]; rfl
  have right : cell.rightBars width = 0 := by rw [rightBars, borders]; rfl
  have shown : cell.shownText width = cell.text.toList := by
    rw [shownText, room, left, right]
    exact List.take_of_length_le fits
  have start : cell.textStart width = 0 := by rw [textStart, left, alignment]; rfl
  have within : place < (cell.shownText width).length := by
    rw [shown]
    exact inside
  have painted := (cell.glyphAt_text within).2
  simp only [start, Nat.zero_add, shown] at painted
  exact painted

end Cell

/-- A cell starts at the position of its left edge, or at the first one if that edge is further left. -/
theorem Cell.start_span (cell : Cell) {charWidth : Int} (unit : 1 ≤ charWidth) :
    (cell.span charWidth).start = (cell.bounds.x / charWidth).toNat := by
  rw [Cell.span]
  rcases Int.le_total 0 cell.bounds.x with right | left
  · rw [Int.tdiv_eq_ediv_of_nonneg right]
  · have mirrored : 0 ≤ (-cell.bounds.x).tdiv charWidth :=
      Int.tdiv_nonneg (by omega) (by omega)
    rw [Int.neg_tdiv] at mirrored
    have quotient : cell.bounds.x / charWidth ≤ 0 := Int.ediv_nonpos_of_nonpos_of_neg left unit
    dsimp only
    omega

/-- Every cell of a page that covers a position is painted on one of its lines, beside cells that have
no position in common with it. -/
theorem Page.exists_line_of_cell {page : Page} {cell : Cell} {charWidth : Int} (member : cell ∈ page)
    (covers : cell.coversAny charWidth = true) :
    ∃ (painted : PaintedLine) (before after : List Cell), painted.line ∈ Page.lines charWidth page ∧
      painted.Shows charWidth (before ++ cell :: after) := by
  let band : Band := ⟨cell.bounds.y, page.filter fun other => other.bounds.y = cell.bounds.y⟩
  have here : cell ∈ band.cells := List.mem_filter.mpr ⟨member, decide_eq_true rfl⟩
  have inPage : band ∈ Band.ofPage page := Band.mem_ofPage_iff.mpr ⟨rfl, List.ne_nil_of_mem here⟩
  obtain ⟨allotment, allots⟩ := exists_allotment charWidth band.cells
  have allotted : cell ∈ allotment.flatten :=
    allots.once.mem_iff.mpr (List.mem_filter.mpr ⟨here, covers⟩)
  obtain ⟨part, known, inside⟩ := List.mem_flatten.mp allotted
  obtain ⟨painted, drawn, shows⟩ := exists_of_mem_right allots.shows known
  obtain ⟨before, after, rfl⟩ := List.append_of_mem inside
  refine ⟨painted, before, after, List.mem_flatMap.mpr ⟨band, inPage, ?_⟩, shows⟩
  rw [Band.lines_eq, if_pos (List.any_eq_true.mpr ⟨cell, here, covers⟩)]
  exact List.mem_append_left _ (List.mem_append_right _ (List.mem_map_of_mem drawn))

/-- A cell without bars, aligned to the left, with room for its text is written in full on a line of its
page, and no other cell that is painted on this line covers a position of the text. -/
theorem Page.exists_line_of_fits {page : Page} {cell : Cell} {charWidth : Int} (member : cell ∈ page)
    (borders : cell.borders = .none) (alignment : cell.alignment = .left)
    (filled : 0 < cell.text.toList.length)
    (fits : cell.text.toList.length ≤ (cell.span charWidth).width) :
    ∃ (painted : PaintedLine) (before after : List Cell), painted.line ∈ Page.lines charWidth page ∧
      painted.Shows charWidth (before ++ cell :: after) ∧
      ∀ place, (inside : place < cell.text.toList.length) →
        painted.line.glyph ((cell.span charWidth).start + place) =
          ⟨cell.text.toList[place], cell.font.emphasis⟩ ∧
        ∀ other ∈ before ++ after,
          ¬(other.span charWidth).Covers ((cell.span charWidth).start + place) := by
  have covers : cell.coversAny charWidth = true := Cell.coversAny_iff.mpr (filled.trans_le fits)
  obtain ⟨painted, before, after, drawn, shows⟩ := Page.exists_line_of_cell member covers
  refine ⟨painted, before, after, drawn, shows, fun place inside => ⟨?_, fun other known => ?_⟩⟩
  · rw [shows.shown cell (by simp) place (inside.trans_le fits)]
    exact Cell.glyphAt_of_fits borders alignment fits inside
  · obtain ⟨_, behind, ahead⟩ := List.pairwise_append.mp shows.apart
    have apart : (cell.span charWidth).isApart (other.span charWidth) = true := by
      rcases List.mem_append.mp known with earlier | later
      · rw [Span.isApart_comm]
        exact ahead other earlier cell List.mem_cons_self
      · exact (List.pairwise_cons.mp behind).1 other later
    have within := Cell.covers_span_iff.mpr ⟨place, inside.trans_le fits, rfl⟩
    exact Span.not_covers_of_isApart apart within

/-- The line of totals that a block shows, and whether it is that of the whole report. -/
def Block.totalsLine? : Block → Option (TotalsLine × Bool)
  | groupTotals line | sectionTotals line => some (line, false)
  | grandTotals line => some (line, true)
  | _ => none

namespace Design

variable {design : Design} {line : TotalsLine} {grand : Bool} {y : Int} {cells : List Cell}

/-- A line of totals that has any total begins with its label. -/
theorem exists_totals_eq (some : line.sums.hasTotals = true)
    (made : design.totals line grand y = .ok cells) :
    ∃ values, cells = design.totalsLabel line grand y :: values := by
  rw [totals, if_pos some] at made
  obtain ⟨found, _, same⟩ := bind_eq_ok_iff.mp made
  exact ⟨found.filterMap id, (Except.ok.inj same).symm⟩

theorem cells_of_totalsLine? {block : Block} (shown : block.totalsLine? = some (line, grand))
    (showRepeats : Bool) (y : Int) : design.cells block showRepeats y = design.totals line grand y := by
  cases block <;> cases shown <;> rfl

theorem horizontal_padding_nonneg (style : BorderStyle) : 0 ≤ style.padding.horizontal := by
  cases style <;> decide

/-- A label whose width is in the range of coordinates is no narrower than its text. -/
theorem length_le_width_totalsLabel {pitch : FixedPitch} (fixed : design.metrics = pitch.metrics)
    (wide : 1 ≤ pitch.charWidth) (line : TotalsLine) (grand : Bool) (y : Int)
    (range : pitch.charWidth * (totalsText line grand).length + 1 +
      design.options.borderStyle.padding.horizontal ≤ Coordinate.greatest) :
    (totalsText line grand).toList.length ≤
      ((design.totalsLabel line grand y).span pitch.charWidth).width := by
  rw [← String.length_toList] at range
  have spare := horizontal_padding_nonneg design.options.borderStyle
  have text : (0 : Int) ≤ pitch.charWidth * (totalsText line grand).toList.length :=
    Int.mul_nonneg (by omega) (Int.natCast_nonneg _)
  have measured : design.metrics.textWidth design.options.headerFont (totalsText line grand) =
      pitch.charWidth * (totalsText line grand).toList.length := by
    rw [fixed, FixedPitch.metrics, String.length_toList]
    rw [String.length_toList] at text range
    exact Coordinate.wrap_of_nonneg text (by omega)
  have width : (design.totalsLabel line grand y).bounds.width =
      pitch.charWidth * (totalsText line grand).toList.length + 1 +
        design.options.borderStyle.padding.horizontal := by
    simp only [totalsLabel, measured]
    exact Coordinate.wrap_of_nonneg (by omega) range
  have quotient : ((totalsText line grand).toList.length : Int) ≤
      (design.totalsLabel line grand y).bounds.width.tdiv pitch.charWidth := by
    rw [Int.tdiv_eq_ediv_of_nonneg (by omega)]
    apply Int.le_ediv_of_mul_le (by omega)
    rw [Int.mul_comm]
    omega
  rw [Cell.span, Span.width, Nat.add_sub_cancel_left]
  omega

theorem length_totalsText_pos (line : TotalsLine) (grand : Bool) :
    0 < (totalsText line grand).toList.length := by
  cases grand with
  | true =>
    rw [totalsText, if_pos rfl]
    decide
  | false =>
    rw [totalsText, if_neg Bool.false_ne_true, String.toList_append, List.length_append]
    exact Nat.add_pos_left (by decide) _

end Design

/-- Sales by city, with so many units to a character that nine of them are beyond the range of
coordinates. -/
def broadDesign : Design where
  columns := [{ Column.plain "City" 1000000000 with role := .group },
    { Column.numeric "Sales" 1000000000 with subtotal := true }]
  options := {}
  metrics := FixedPitch.metrics ⟨1000000000, 12⟩

/-- One sale. -/
def broadSet : ResultSet where
  columns := ["City", "Sales"]
  rows := [[.text "x", .number (.ofInt 4)]]
  rectangular := by decide

end PagedReport
