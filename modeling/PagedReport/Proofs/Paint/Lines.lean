import Mathlib.Data.List.Forall2
import Mathlib.Data.List.Induction
import Mathlib.Data.List.Perm.Basic
import PagedReport.Paint.Grid

/-! # Cells on text lines

A cell owns the positions of its span: on the line on which it is painted they show what the cell shows
when it is alone. The cells of a band are allotted to text lines so that no two on one line have a
position in common, and each cell that covers a position goes to exactly one line.
-/

namespace PagedReport

namespace TextLine

/-- The glyph at a position of a line; past its end all positions are empty. -/
def glyph (line : TextLine) (position : Nat) : Glyph := line.getD position .blank

theorem glyph_eq (glyphs : TextLine) (position : Nat) :
    glyphs.glyph position = glyphs[position]?.getD .blank :=
  List.getD_eq_getElem?_getD

@[simp] theorem glyph_nil (position : Nat) : glyph [] position = .blank := rfl

theorem glyph_append (line more : TextLine) (position : Nat) :
    glyph (line ++ more) position =
      if position < line.length then line.glyph position else more.glyph (position - line.length) := by
  simp only [glyph_eq, List.getElem?_append]
  split <;> rfl

@[simp] theorem glyph_replicate_blank (count position : Nat) :
    glyph (List.replicate count .blank) position = .blank := by
  rw [glyph_eq, List.getElem?_replicate]
  split <;> rfl

theorem glyph_of_length_le (line : TextLine) {position : Nat} (past : line.length ≤ position) :
    line.glyph position = .blank := by
  rw [glyph_eq, List.getElem?_eq_none past, Option.getD_none]

/-- What is painted over a line is seen on its own positions, and the line on all others. -/
theorem glyph_overlay (line : TextLine) (start : Nat) (glyphs : TextLine) (position : Nat) :
    (line.overlay start glyphs).glyph position =
      if start ≤ position ∧ position < start + glyphs.length then glyphs.glyph (position - start)
      else line.glyph position := by
  unfold overlay
  split
  · next empty =>
    rw [List.isEmpty_iff.mp empty, if_neg (by simp)]
  · let front : TextLine := line.take start ++ List.replicate (start - line.length) .blank
    have length : front.length = start := by
      simp only [front, List.length_append, List.length_take, List.length_replicate]
      omega
    have before (low : position < start) : front.glyph position = line.glyph position := by
      rw [glyph_append, glyph_replicate_blank]
      split
      · rw [glyph_eq, List.getElem?_take_of_lt low, glyph_eq]
      · next past =>
        rw [List.length_take] at past
        exact (glyph_of_length_le line (by omega)).symm
    have behind (high : start + glyphs.length ≤ position) :
        glyph (line.drop (start + glyphs.length)) (position - (start + glyphs.length)) =
          line.glyph position := by
      rw [glyph_eq, List.getElem?_drop, Nat.add_sub_cancel' high, glyph_eq]
    change glyph (front ++ glyphs ++ line.drop (start + glyphs.length)) position = _
    rw [glyph_append, glyph_append, List.length_append, length]
    by_cases low : position < start
    · rw [if_pos (by omega), if_pos low, if_neg (by omega), before low]
    · by_cases high : position < start + glyphs.length
      · rw [if_pos high, if_neg low, if_pos ⟨by omega, high⟩]
      · rw [if_neg high, if_neg (by omega), behind (by omega)]

end TextLine

namespace Cell

/-- The number of bars at the left end of a cell. -/
def leftBars (cell : Cell) : Nat := if cell.borders.has .left then 1 else 0

/-- The number of bars at the right end of a cell, which yields to the left one. -/
def rightBars (cell : Cell) (width : Nat) : Nat :=
  if cell.borders.has .right && cell.leftBars < width then 1 else 0

/-- The positions that are left between the bars. -/
def room (cell : Cell) (width : Nat) : Nat := width - cell.leftBars - cell.rightBars width

/-- As much of the text as there is room for. -/
def shownText (cell : Cell) (width : Nat) : List Char := cell.text.toList.take (cell.room width)

/-- The first position of the text. -/
def textStart (cell : Cell) (width : Nat) : Nat :=
  cell.leftBars + indent cell.alignment (cell.room width) (cell.shownText width).length

/-- The glyph that a cell shows at a place of a span of so many positions: a bar at each end that
carries a line, the characters of the text from its first position on, and blanks elsewhere. -/
def glyphAt (cell : Cell) (width place : Nat) : Glyph :=
  if place < cell.leftBars ∨ width ≤ place + cell.rightBars width then bar
  else if place < cell.textStart width then .blank
  else match (cell.shownText width)[place - cell.textStart width]? with
    | some c => ⟨c, cell.font.emphasis⟩
    | none => .blank

theorem indent_add_le (alignment : Alignment) {room length : Nat} (fits : length ≤ room) :
    indent alignment room length + length ≤ room := by
  cases alignment <;> simp only [indent] <;> omega

/-- The text of a cell, with the blanks before it. -/
private def body (cell : Cell) (width : Nat) : TextLine :=
  if (cell.shownText width).isEmpty then [] else
    List.replicate (cell.textStart width - cell.leftBars) .blank ++
      (cell.shownText width).map fun c => ⟨c, cell.font.emphasis⟩

private theorem length_body_le (cell : Cell) (width : Nat) :
    (cell.body width).length ≤ cell.room width := by
  have short : (cell.shownText width).length ≤ cell.room width := List.length_take_le ..
  have fits := indent_add_le cell.alignment short
  rw [body]
  split
  · exact Nat.zero_le _
  · rw [List.length_append, List.length_replicate, List.length_map, textStart]
    omega

private theorem glyph_body (cell : Cell) (width place : Nat) :
    (cell.body width).glyph place =
      if cell.leftBars + place < cell.textStart width then .blank
      else match (cell.shownText width)[cell.leftBars + place - cell.textStart width]? with
        | some c => ⟨c, cell.font.emphasis⟩
        | none => .blank := by
  have start : cell.leftBars ≤ cell.textStart width := Nat.le_add_right ..
  rw [body]
  split
  · next empty =>
    rw [List.isEmpty_iff.mp empty]
    simp [TextLine.glyph]
  · rw [TextLine.glyph_append, TextLine.glyph_replicate_blank, List.length_replicate]
    by_cases low : cell.leftBars + place < cell.textStart width
    · rw [if_pos low, if_pos (by omega)]
    · rw [if_neg low, if_neg (by omega), TextLine.glyph_eq, List.getElem?_map, show
        place - (cell.textStart width - cell.leftBars) =
          cell.leftBars + place - cell.textStart width by omega]
      cases (cell.shownText width)[cell.leftBars + place - cell.textStart width]? <;> rfl

/-- The blanks between the text of a cell and its right bar. -/
private def gap (cell : Cell) (width : Nat) : TextLine :=
  if cell.rightBars width = 0 then []
  else List.replicate (cell.room width - (cell.body width).length) .blank

private theorem glyphs_eq (cell : Cell) (width : Nat) :
    cell.glyphs width =
      List.replicate cell.leftBars bar ++ cell.body width ++ cell.gap width ++
        List.replicate (cell.rightBars width) bar := by
  have left : (if cell.borders.has .left then [bar] else []) = List.replicate cell.leftBars bar := by
    rw [leftBars]
    split <;> rfl
  have right : (if cell.borders.has .right && cell.leftBars < width then [bar] else []) =
      List.replicate (cell.rightBars width) bar := by
    rw [rightBars]
    split <;> rfl
  have start : cell.textStart width - cell.leftBars =
      indent cell.alignment (cell.room width) (cell.shownText width).length :=
    Nat.add_sub_cancel_left ..
  simp only [glyphs, left, List.length_replicate, right, body, gap, start, List.isEmpty_replicate,
    decide_eq_true_eq]
  rfl

private theorem length_gap (cell : Cell) (width : Nat) (bars : cell.rightBars width ≠ 0) :
    (cell.gap width).length = cell.room width - (cell.body width).length := by
  rw [gap, if_neg bars, List.length_replicate]

private theorem glyph_gap (cell : Cell) (width place : Nat) :
    (cell.gap width).glyph place = .blank := by
  rw [gap]
  split
  · rfl
  · exact TextLine.glyph_replicate_blank _ _

private theorem glyph_bars {count place : Nat} (inside : place < count) :
    TextLine.glyph (List.replicate count bar) place = bar := by
  rw [TextLine.glyph_eq, List.getElem?_replicate, if_pos inside, Option.getD_some]

private theorem bars_le (cell : Cell) {width : Nat} (wide : 0 < width) :
    cell.leftBars + cell.rightBars width ≤ width := by
  rw [rightBars, leftBars]
  split <;> split <;> simp_all <;> omega

/-- A cell paints within its span. -/
theorem length_glyphs_le (cell : Cell) {width : Nat} (wide : 0 < width) :
    (cell.glyphs width).length ≤ width := by
  have bars := cell.bars_le wide
  have text := cell.length_body_le width
  simp only [glyphs_eq, List.length_append, List.length_replicate, gap]
  split <;> simp only [List.length_nil, List.length_replicate, room] at text ⊢ <;> omega

/-- What a cell paints is what it shows at each place of its span. -/
theorem glyph_glyphs (cell : Cell) {width place : Nat} (inside : place < width) :
    TextLine.glyph (cell.glyphs width) place = cell.glyphAt width place := by
  have bars := cell.bars_le (Nat.zero_lt_of_lt inside)
  have text := cell.length_body_le width
  have room : cell.room width + cell.leftBars + cell.rightBars width = width := by
    rw [Cell.room]
    omega
  rw [glyphAt, glyphs_eq, TextLine.glyph_append, TextLine.glyph_append, TextLine.glyph_append,
    List.length_append, List.length_append, List.length_replicate]
  by_cases left : place < cell.leftBars
  · rw [if_pos (by omega), if_pos (by omega), if_pos left, if_pos (.inl left), glyph_bars left]
  · by_cases right : width ≤ place + cell.rightBars width
    · have gap := cell.length_gap width (by omega)
      rw [if_neg (by omega), if_pos (.inr right), glyph_bars (by omega)]
    · have shown := cell.glyph_body width (place - cell.leftBars)
      rw [Nat.add_sub_cancel' (Nat.le_of_not_lt left)] at shown
      rw [if_neg (not_or.mpr ⟨left, right⟩), ← shown, if_neg left]
      by_cases inText : place < cell.leftBars + (cell.body width).length
      · rw [if_pos (by omega), if_pos inText]
      · rw [if_neg inText, glyph_gap,
          TextLine.glyph_of_length_le (cell.body width) (by omega)]
        split
        · rfl
        · next past =>
          by_cases none : cell.rightBars width = 0
          · rw [none, List.replicate_zero, TextLine.glyph_nil]
          · have gap := cell.length_gap width none
            omega

end Cell

/-- Whether a position belongs to a span. -/
def Span.Covers (span : Span) (position : Nat) : Prop :=
  span.start ≤ position ∧ position < span.stop

/-- Spans that are apart have no position in common. -/
theorem Span.not_covers_of_isApart {span other : Span} (apart : span.isApart other = true)
    {position : Nat} (inside : span.Covers position) : ¬other.Covers position := by
  rw [Span.isApart, Bool.or_eq_true, decide_eq_true_eq, decide_eq_true_eq] at apart
  rintro ⟨start, stop⟩
  obtain ⟨start', stop'⟩ := inside
  omega

theorem Span.isApart_comm (span other : Span) : span.isApart other = other.isApart span :=
  Bool.or_comm _ _

namespace Cell

variable {charWidth : Int} {cell : Cell}

theorem stop_span (charWidth : Int) (cell : Cell) :
    (cell.span charWidth).stop = (cell.span charWidth).start + (cell.span charWidth).width := by
  simp only [span, Span.width]
  omega

/-- Whether a cell covers any position. -/
def coversAny (charWidth : Int) (cell : Cell) : Bool := !(cell.span charWidth).isEmpty

theorem coversAny_iff : cell.coversAny charWidth = true ↔ 0 < (cell.span charWidth).width := by
  have stop := cell.stop_span charWidth
  rw [coversAny, Bool.not_eq_true', Span.isEmpty, beq_eq_false_iff_ne]
  omega

/-- A cell without a width covers no position. -/
theorem coversAny_of_width_eq_zero (width : cell.bounds.width = 0) (charWidth : Int) :
    cell.coversAny charWidth = false := by
  rw [← Bool.not_eq_true, coversAny_iff, span, Span.width, width, Int.zero_tdiv]
  simp

theorem filter_coversAny_singleton (covers : cell.coversAny charWidth = true) :
    [cell].filter (coversAny charWidth) = [cell] := by
  rw [List.filter_singleton, covers, cond_true]

theorem covers_span_iff {position : Nat} :
    (cell.span charWidth).Covers position ↔
      ∃ place < (cell.span charWidth).width, position = (cell.span charWidth).start + place := by
  rw [Span.Covers, stop_span]
  constructor
  · rintro ⟨start, stop⟩
    exact ⟨position - (cell.span charWidth).start, by omega, by omega⟩
  · rintro ⟨place, inside, rfl⟩
    omega

end Cell

namespace PaintedLine

/-- A line with a cell painted on its span. -/
def withCell (charWidth : Int) (cell : Cell) (painted : PaintedLine) : PaintedLine :=
  ⟨painted.line.overlay (cell.span charWidth).start (cell.glyphs (cell.span charWidth).width),
    painted.taken ++ [cell.span charWidth]⟩

/-- Whether a span is free on a line. -/
def isFree (span : Span) (painted : PaintedLine) : Bool := painted.taken.all span.isApart

theorem add_eq (charWidth : Int) (lines : List PaintedLine) (cell : Cell) :
    add charWidth lines cell =
      if cell.coversAny charWidth then
        match lines.findIdx? (isFree (cell.span charWidth)) with
        | some index => lines.modify index (withCell charWidth cell)
        | none => lines ++ [withCell charWidth cell ⟨[], []⟩]
      else lines := by
  rw [Cell.coversAny]
  cases covers : (cell.span charWidth).isEmpty <;> simp only [add, covers] <;> rfl

/-- A line shows cells, no two of which have a position in common: on the span of each of them what
the cell shows by itself, and nothing elsewhere. -/
structure Shows (charWidth : Int) (painted : PaintedLine) (cells : List Cell) : Prop where
  taken : painted.taken = cells.map fun cell => cell.span charWidth
  apart : cells.Pairwise fun cell other =>
    (cell.span charWidth).isApart (other.span charWidth) = true
  shown : ∀ cell ∈ cells, ∀ place < (cell.span charWidth).width,
    painted.line.glyph ((cell.span charWidth).start + place) =
      cell.glyphAt (cell.span charWidth).width place
  blank : ∀ position, (∀ cell ∈ cells, ¬(cell.span charWidth).Covers position) →
    painted.line.glyph position = .blank

namespace Shows

variable {charWidth : Int} {painted : PaintedLine} {cells : List Cell} {cell : Cell}

theorem empty (charWidth : Int) : Shows charWidth ⟨[], []⟩ [] where
  taken := rfl
  apart := .nil
  shown _ member := nomatch member
  blank _ _ := rfl

/-- On a line on which its span is free, a cell leaves all other cells as they are. -/
theorem withCell (shows : painted.Shows charWidth cells)
    (covers : cell.coversAny charWidth = true)
    (free : painted.isFree (cell.span charWidth) = true) :
    (painted.withCell charWidth cell).Shows charWidth (cells ++ [cell]) := by
  have short := cell.length_glyphs_le (Cell.coversAny_iff.mp covers)
  have apart (other : Cell) (member : other ∈ cells) :
      (cell.span charWidth).isApart (other.span charWidth) = true := by
    rw [isFree, shows.taken, List.all_map, List.all_eq_true] at free
    exact free other member
  have kept (position : Nat) (outside : ¬(cell.span charWidth).Covers position) :
      (painted.withCell charWidth cell).line.glyph position = painted.line.glyph position := by
    rw [PaintedLine.withCell, TextLine.glyph_overlay, if_neg]
    rintro ⟨start, stop⟩
    exact outside ⟨start, by rw [Cell.stop_span]; omega⟩
  constructor
  · rw [PaintedLine.withCell, shows.taken, List.map_append, List.map_singleton]
  · refine List.pairwise_append.mpr ⟨shows.apart, List.pairwise_singleton _ _, ?_⟩
    intro other member last inside
    rw [List.mem_singleton.mp inside, Span.isApart_comm]
    exact apart other member
  · intro other member place inside
    rcases List.mem_append.mp member with earlier | last
    · rw [kept _ (Span.not_covers_of_isApart ((Span.isApart_comm _ _).trans (apart other earlier))
        (Cell.covers_span_iff.mpr ⟨place, inside, rfl⟩))]
      exact shows.shown other earlier place inside
    · obtain rfl := List.mem_singleton.mp last
      rw [PaintedLine.withCell, TextLine.glyph_overlay, ← Cell.glyph_glyphs other inside]
      split
      · rw [Nat.add_sub_cancel_left]
      · -- Behind what it paints, the span of the cell is as empty as it was.
        have free : painted.line.glyph ((other.span charWidth).start + place) = .blank :=
          shows.blank _ fun earlier known => Span.not_covers_of_isApart (apart earlier known)
            (Cell.covers_span_iff.mpr ⟨place, inside, rfl⟩)
        rw [free, TextLine.glyph_of_length_le _ (by omega)]
  · intro position outside
    rw [kept position (outside cell (by simp))]
    exact shows.blank position fun other member => outside other (List.mem_append_left _ member)

end Shows

end PaintedLine

section Lists

variable {α β : Type}

private theorem forall₂_modify {R : α → β → Prop} {f : α → α} {g : β → β} {as : List α} {bs : List β}
    (pairs : List.Forall₂ R as bs) {index : Nat}
    (step : ∀ a b, as[index]? = some a → R a b → R (f a) (g b)) :
    List.Forall₂ R (as.modify index f) (bs.modify index g) := by
  induction pairs generalizing index with
  | nil => simp
  | @cons a b as bs first others ih =>
    cases index with
    | zero => exact .cons (step a b rfl first) others
    | succ index => exact .cons first (ih fun a b found => step a b found)

private theorem flatten_modify_perm (parts : List (List α)) {index : Nat} (bound : index < parts.length)
    (item : α) : (parts.modify index (· ++ [item])).flatten.Perm (parts.flatten ++ [item]) := by
  rw [List.modify_eq_take_cons_drop bound]
  have whole : parts.flatten =
      (parts.take index).flatten ++ (parts[index] ++ (parts.drop (index + 1)).flatten) := by
    rw [← List.flatten_cons, ← List.flatten_append, List.getElem_cons_drop, List.take_append_drop]
  rw [whole, List.flatten_append, List.flatten_cons, List.append_assoc, List.append_assoc,
    List.append_assoc]
  exact (List.perm_append_comm.append_left _).append_left _

private theorem nil_notMem_modify {parts : List (List α)} (filled : [] ∉ parts) {index : Nat}
    (bound : index < parts.length) (item : α) : [] ∉ parts.modify index (· ++ [item]) := by
  rw [List.modify_eq_take_cons_drop bound]
  intro empty
  rcases List.mem_append.mp empty with before | there
  · exact filled (List.mem_of_mem_take before)
  · rcases List.mem_cons.mp there with here | after
    · exact List.append_ne_nil_of_right_ne_nil _ (List.cons_ne_nil _ _) here.symm
    · exact filled (List.mem_of_mem_drop after)

end Lists

/-- The cells of a band as they are allotted to its text lines: every cell that covers a position goes
to one line, every line has a cell, and it shows its cells. -/
structure Allots (charWidth : Int) (cells : List Cell) (lines : List PaintedLine)
    (allotment : List (List Cell)) : Prop where
  once : allotment.flatten.Perm (cells.filter (Cell.coversAny charWidth))
  filled : [] ∉ allotment
  shows : List.Forall₂ (PaintedLine.Shows charWidth) lines allotment

namespace Allots

variable {charWidth : Int} {cells : List Cell} {lines : List PaintedLine}
  {allotment : List (List Cell)} {cell : Cell}

private theorem once_concat (allots : Allots charWidth cells lines allotment)
    (covers : cell.coversAny charWidth = true) :
    (allotment.flatten ++ [cell]).Perm ((cells ++ [cell]).filter (Cell.coversAny charWidth)) := by
  rw [List.filter_append, Cell.filter_coversAny_singleton covers]
  exact allots.once.append_right [cell]

/-- A cell can be added on a line on which it is free. -/
theorem modify (allots : Allots charWidth cells lines allotment)
    (covers : cell.coversAny charWidth = true) {index : Nat} (bound : index < lines.length)
    (free : lines[index].isFree (cell.span charWidth) = true) :
    Allots charWidth (cells ++ [cell]) (lines.modify index (PaintedLine.withCell charWidth cell))
      (allotment.modify index (· ++ [cell])) := by
  have bound' : index < allotment.length := allots.shows.length_eq ▸ bound
  constructor
  · exact (flatten_modify_perm allotment bound' cell).trans (allots.once_concat covers)
  · exact nil_notMem_modify allots.filled bound' cell
  · refine forall₂_modify allots.shows fun painted part here shows => shows.withCell covers ?_
    rw [List.getElem?_eq_getElem bound] at here
    exact Option.some.inj here ▸ free

/-- A cell can be added on a line of its own. -/
theorem concat (allots : Allots charWidth cells lines allotment)
    (covers : cell.coversAny charWidth = true) :
    Allots charWidth (cells ++ [cell]) (lines ++ [PaintedLine.withCell charWidth cell ⟨[], []⟩])
      (allotment ++ [[cell]]) := by
  have alone := (PaintedLine.Shows.empty charWidth).withCell covers rfl
  constructor
  · simpa using allots.once_concat covers
  · simpa using allots.filled
  · exact List.rel_append allots.shows (.cons alone .nil)

/-- One cell more is allotted to the first line on which it is free, or to a new one. -/
theorem exists_add (allots : Allots charWidth cells lines allotment) (cell : Cell) :
    ∃ more, Allots charWidth (cells ++ [cell]) (PaintedLine.add charWidth lines cell) more := by
  rw [PaintedLine.add_eq]
  cases covers : cell.coversAny charWidth with
  | false =>
    refine ⟨allotment, ?_, allots.filled, allots.shows⟩
    simpa [List.filter_append, covers] using allots.once
  | true =>
    rw [if_pos rfl]
    split
    · next index found =>
      obtain ⟨bound, free, _⟩ := List.findIdx?_eq_some_iff_getElem.mp found
      exact ⟨_, allots.modify covers bound free⟩
    · exact ⟨_, allots.concat covers⟩

end Allots

/-- The cells of a band are allotted to its text lines. -/
theorem exists_allotment (charWidth : Int) (cells : List Cell) :
    ∃ allotment, Allots charWidth cells (textLines charWidth cells) allotment := by
  induction cells using List.reverseRecOn with
  | nil => exact ⟨[], .rfl, List.not_mem_nil, .nil⟩
  | append_singleton cells cell ih =>
    obtain ⟨allotment, allots⟩ := ih
    rw [textLines, List.foldl_concat]
    exact allots.exists_add cell

/-- The second cell moves down, since it overlaps the first one; the third stands beside the first. -/
example : (textLines 1 [.bare "abc" .standard ⟨0, 0, 3, 1⟩, .bare "de" .standard ⟨2, 0, 2, 1⟩,
    .bare "f" .standard ⟨3, 0, 1, 1⟩]).map PaintedLine.taken = [[⟨0, 3⟩, ⟨3, 4⟩], [⟨2, 4⟩]] := by
  decide

/-- Cells that have no position in common share one text line, if any of them covers a position. -/
theorem textLines_of_pairwise_apart {charWidth : Int} {cells : List Cell}
    (apart : (cells.filter (Cell.coversAny charWidth)).Pairwise fun cell next =>
      (cell.span charWidth).isApart (next.span charWidth) = true) :
    (textLines charWidth cells = [] ∧ cells.filter (Cell.coversAny charWidth) = []) ∨
      ∃ painted, textLines charWidth cells = [painted] ∧
        painted.Shows charWidth (cells.filter (Cell.coversAny charWidth)) := by
  induction cells using List.reverseRecOn with
  | nil => exact .inl ⟨rfl, rfl⟩
  | append_singleton cells cell ih =>
    rw [List.filter_append] at apart ⊢
    obtain ⟨earlier, _, last⟩ := List.pairwise_append.mp apart
    rw [textLines, List.foldl_concat, ← textLines, PaintedLine.add_eq]
    cases covers : cell.coversAny charWidth with
    | false => simpa [covers] using ih earlier
    | true =>
      rw [Cell.filter_coversAny_singleton covers, if_pos rfl]
      refine .inr ?_
      rcases ih earlier with ⟨noLine, none⟩ | ⟨painted, line, shows⟩
      · rw [noLine, none]
        exact ⟨_, rfl, (PaintedLine.Shows.empty charWidth).withCell covers rfl⟩
      · -- The one line there is turns out to be free, so no second one is begun.
        have free : painted.isFree (cell.span charWidth) = true := by
          rw [PaintedLine.isFree, shows.taken, List.all_map, List.all_eq_true]
          intro other member
          rw [Function.comp_apply, Span.isApart_comm]
          exact last other member cell (by simp [covers])
        rw [line, List.findIdx?_cons, free]
        exact ⟨_, rfl, shows.withCell covers free⟩

/-- A cell that covers a position is painted alone on one line. -/
theorem exists_textLines_singleton {charWidth : Int} {cell : Cell}
    (covers : cell.coversAny charWidth = true) :
    ∃ alone, textLines charWidth [cell] = [alone] ∧ alone.Shows charWidth [cell] := by
  have lines := @textLines_of_pairwise_apart charWidth [cell]
  rw [Cell.filter_coversAny_singleton covers] at lines
  exact (lines (List.pairwise_singleton _ _)).resolve_left fun none => List.cons_ne_nil _ _ none.2

/-- On its span a cell is painted as it is alone, whatever stands beside it. -/
theorem PaintedLine.Shows.eq_alone {charWidth : Int} {painted alone : PaintedLine}
    {cells : List Cell} {cell : Cell} (shows : painted.Shows charWidth cells) (member : cell ∈ cells)
    (single : alone.Shows charWidth [cell]) {position : Nat}
    (inside : (cell.span charWidth).Covers position) :
    painted.line.glyph position = alone.line.glyph position := by
  obtain ⟨place, within, rfl⟩ := Cell.covers_span_iff.mp inside
  rw [shows.shown cell member place within, single.shown cell List.mem_cons_self place within]

/-- Only the cells that cover a position leave something on a rule. -/
theorem ruleLine_filter (charWidth : Int) (edge : Edge) (cells : List Cell) :
    ruleLine charWidth edge (cells.filter (Cell.coversAny charWidth)) =
      ruleLine charWidth edge cells := by
  rw [ruleLine, ruleLine, List.foldl_filter]
  refine List.foldl_ext _ _ _ fun line cell _ => ?_
  cases covers : cell.coversAny charWidth with
  | true => rfl
  | false =>
    have none : (cell.span charWidth).width = 0 := by
      rw [← Bool.not_eq_true, Cell.coversAny_iff] at covers
      omega
    rw [if_neg (by decide)]
    split
    · rfl
    · dsimp only
      rw [none, List.replicate_zero]
      rfl

end PagedReport
