import Mathlib.Data.List.Chain
import Mathlib.Data.List.DropRight
import PagedReport.Proofs.Outcome
import PagedReport.Proofs.Paint.Bands

/-! # Emphasis in painted text

Text with escape sequences has the lines of the text without them. A line is written as its longest runs
of one emphasis up to its last character that is no blank, and a run with an emphasis is put between the
sequences that switch it on and off. On the lines of text the characters of a cell have the emphasis of
its font. Everything else on a page has none: bars, rules, and the blanks between them.
-/

namespace PagedReport

namespace TextLine

/-- A division of a line into its longest runs of one emphasis. -/
structure IsRuns (line : TextLine) (runs : List (Emphasis × List Char)) : Prop where
  glyphs : (runs.flatMap fun run => run.2.map fun c => Glyph.mk c run.1) = line
  filled : ∀ run ∈ runs, run.2 ≠ []
  maximal : runs.IsChain fun run next => run.1 ≠ next.1

/-- A glyph in front of a line either lengthens the first run or is a run of its own. -/
theorem isRuns_runs (line : TextLine) : IsRuns line line.runs := by
  induction line with
  | nil => exact ⟨rfl, fun _ member => (nomatch member), .nil⟩
  | cons glyph rest ih =>
    rw [runs]
    split
    · next none =>
      rw [none] at ih
      obtain rfl : rest = [] := ih.glyphs.symm
      exact ⟨rfl, by simp, List.isChain_singleton _⟩
    · next emphasis chars more found =>
      rw [found] at ih
      obtain ⟨_, filled⟩ := List.forall_mem_cons.mp ih.filled
      split
      · next same =>
        refine ⟨?_, List.forall_mem_cons.mpr ⟨List.cons_ne_nil _ _, filled⟩, ?_⟩
        · rw [← ih.glyphs, ← same]
          rfl
        · exact List.isChain_cons.mpr (List.isChain_cons.mp ih.maximal)
      · next apart =>
        refine ⟨?_, List.forall_mem_cons.mpr ⟨List.cons_ne_nil _ _, ih.filled⟩, ?_⟩
        · rw [← ih.glyphs]
          rfl
        · exact List.isChain_cons_cons.mpr ⟨apart, ih.maximal⟩

/-- The runs have the characters of the line. -/
theorem IsRuns.flatMap_chars {line : TextLine} {runs : List (Emphasis × List Char)}
    (division : IsRuns line runs) : (runs.flatMap fun run => run.2) = line.map Glyph.char := by
  rw [← division.glyphs, List.map_flatMap]
  simp only [List.map_map, Function.comp_def, List.map_id']

/-- What is kept of a line ends with its last glyph that is no blank. -/
theorem exists_trimmed_append (line : TextLine) :
    ∃ blanks, line = line.trimmed ++ blanks ∧ (∀ glyph ∈ blanks, glyph.isBlank = true) ∧
      ∀ glyph ∈ line.trimmed.getLast?, glyph.isBlank = false := by
  refine ⟨line.rtakeWhile Glyph.isBlank, (List.rdropWhile_append_rtakeWhile ..).symm,
    fun _ => List.mem_rtakeWhile_imp, ?_⟩
  intro glyph last
  obtain ⟨filled, rfl⟩ := List.mem_getLast?_eq_getLast last
  exact Bool.eq_false_iff.mpr (List.rdropWhile_last_not Glyph.isBlank line filled)

/-- What is painted over a line adds its glyphs and perhaps blanks before them. -/
theorem mem_overlay {line : TextLine} {start : Nat} {glyphs : List Glyph} {glyph : Glyph}
    (member : glyph ∈ line.overlay start glyphs) :
    glyph ∈ line ∨ glyph = .blank ∨ glyph ∈ glyphs := by
  unfold overlay at member
  split at member
  · exact .inl member
  · simp only [List.mem_append] at member
    rcases member with ((before | gap) | here) | behind
    · exact .inl (List.mem_of_mem_take before)
    · exact .inr (.inl (List.eq_of_mem_replicate gap))
    · exact .inr (.inr here)
    · exact .inl (List.mem_of_mem_drop behind)

end TextLine

/-- A rule has no emphasis. -/
theorem emphasis_of_mem_ruleLine {charWidth : Int} {edge : Edge} {cells : List Cell} {glyph : Glyph}
    (member : glyph ∈ ruleLine charWidth edge cells) : glyph.emphasis = .plain := by
  induction cells using List.reverseRecOn generalizing glyph with
  | nil => cases member
  | append_singleton cells cell ih =>
    rw [ruleLine, List.foldl_concat, ← ruleLine] at member
    split at member
    · exact ih member
    · rcases TextLine.mem_overlay member with before | rfl | here
      · exact ih before
      · rfl
      · rw [List.eq_of_mem_replicate here]
        rfl

/-- Characters between the sequences that switch an emphasis on and off. -/
def Emphasis.wrapped : Emphasis → List Char → List Char
  | ⟨false, false⟩, chars => chars
  | ⟨true, false⟩, chars => "\x1b[1m".toList ++ chars ++ "\x1b[0m".toList
  | ⟨false, true⟩, chars => "\x1b[3m".toList ++ chars ++ "\x1b[0m".toList
  | ⟨true, true⟩, chars => "\x1b[1m\x1b[3m".toList ++ chars ++ "\x1b[0m".toList

/-- A run is written with the sequences of its emphasis. -/
theorem Styling.run_escapes (emphasis : Emphasis) (chars : List Char) :
    Styling.escapes.run emphasis chars = emphasis.wrapped chars := by
  obtain ⟨bold, italic⟩ := emphasis
  cases bold <;> cases italic <;> rfl

/-- A line is written without emphasis as its characters up to the last one that is no blank, and with
emphasis as its longest runs of one emphasis, which have these characters. -/
theorem Styling.exists_runs (line : TextLine) :
    ∃ kept blanks runs, line = kept ++ blanks ∧ (∀ glyph ∈ blanks, glyph.isBlank = true) ∧
      (∀ glyph ∈ kept.getLast?, glyph.isBlank = false) ∧ TextLine.IsRuns kept runs ∧
      Styling.plain.line line = kept.map Glyph.char ∧
      Styling.plain.line line = (runs.flatMap fun run => run.2) ∧
      Styling.escapes.line line = runs.flatMap fun run => run.1.wrapped run.2 := by
  obtain ⟨blanks, parts, empty, last⟩ := line.exists_trimmed_append
  have division := line.trimmed.isRuns_runs
  refine ⟨line.trimmed, blanks, line.trimmed.runs, parts, empty, last, division,
    division.flatMap_chars, rfl, ?_⟩
  exact List.flatMap_congr fun run _ => run_escapes run.1 run.2

namespace Cell

/-- A cell shows each character of its text, as far as there is room for it, in the emphasis of its
font. -/
theorem glyphAt_text (cell : Cell) {width index : Nat} (inside : index < (cell.shownText width).length) :
    cell.textStart width + index < width ∧
      cell.glyphAt width (cell.textStart width + index) =
        ⟨(cell.shownText width)[index], cell.font.emphasis⟩ := by
  have short : (cell.shownText width).length ≤ cell.room width := List.length_take_le ..
  have fits := indent_add_le cell.alignment short
  have start : cell.textStart width =
      cell.leftBars + indent cell.alignment (cell.room width) (cell.shownText width).length := rfl
  have room : cell.room width = width - cell.leftBars - cell.rightBars width := rfl
  refine ⟨by omega, ?_⟩
  rw [glyphAt, if_neg (by omega), if_neg (by omega), Nat.add_sub_cancel_left,
    List.getElem?_eq_getElem inside]

/-- Apart from its text a cell shows bars and blanks. -/
theorem glyphAt_cases (cell : Cell) (width place : Nat) :
    (∃ index < (cell.shownText width).length, place = cell.textStart width + index) ∨
      cell.glyphAt width place = .plain '|' ∨ cell.glyphAt width place = .plain ' ' := by
  rw [glyphAt]
  split
  · exact .inr (.inl rfl)
  · split
    · exact .inr (.inr rfl)
    · next behind =>
      split
      · next c found =>
        obtain ⟨inside, _⟩ := List.getElem?_eq_some_iff.mp found
        exact .inl ⟨_, inside, by omega⟩
      · exact .inr (.inr rfl)

/-- The characters of the text of a cell for which there is room on its span. -/
def paintedText (cell : Cell) (charWidth : Int) : List Char :=
  cell.shownText (cell.span charWidth).width

/-- The position on a line at which a character of the text of a cell is painted. -/
def textPosition (cell : Cell) (charWidth : Int) (index : Nat) : Nat :=
  (cell.span charWidth).start + (cell.textStart (cell.span charWidth).width + index)

end Cell

/-- A line on which the texts of cells are painted, each in the emphasis of the font of its cell, with
nothing beside them but bars and blanks without emphasis. -/
structure TextLine.ShowsTexts (charWidth : Int) (line : TextLine) (cells : List Cell) : Prop where
  text : ∀ cell ∈ cells, ∀ index, (inside : index < (cell.paintedText charWidth).length) →
    line.glyph (cell.textPosition charWidth index) =
      ⟨(cell.paintedText charWidth)[index], cell.font.emphasis⟩
  rest : ∀ position, (∀ cell ∈ cells, ∀ index < (cell.paintedText charWidth).length,
      position ≠ cell.textPosition charWidth index) →
    line.glyph position = .plain '|' ∨ line.glyph position = .plain ' '

theorem PaintedLine.Shows.showsTexts {charWidth : Int} {painted : PaintedLine} {cells : List Cell}
    (shows : painted.Shows charWidth cells) : painted.line.ShowsTexts charWidth cells where
  text cell member index inside := by
    obtain ⟨within, glyph⟩ := cell.glyphAt_text inside
    exact (shows.shown cell member _ within).trans glyph
  rest position apart := by
    by_cases covered : ∃ cell ∈ cells, (cell.span charWidth).Covers position
    · obtain ⟨cell, member, inside⟩ := covered
      obtain ⟨place, within, rfl⟩ := Cell.covers_span_iff.mp inside
      rw [shows.shown cell member place within]
      refine (cell.glyphAt_cases _ place).resolve_left ?_
      rintro ⟨index, short, rfl⟩
      exact apart cell member index short rfl
    · exact .inr (shows.blank position fun cell member inside => covered ⟨cell, member, inside⟩)

/-- A line of a page is a rule of one of its bands or a line of text with cells of the band. -/
theorem Page.rule_or_text_of_mem_lines {charWidth : Int} {page : Page} {line : TextLine}
    (member : line ∈ Page.lines charWidth page) :
    ∃ band ∈ Band.ofPage page, (∃ edge, line = ruleLine charWidth edge band.cells) ∨
      ∃ cells ⊆ band.cells, ∃ painted ∈ textLines charWidth band.cells, line = painted.line ∧
        painted.Shows charWidth cells := by
  obtain ⟨band, inPage, inBand⟩ := List.mem_flatMap.mp member
  refine ⟨band, inPage, ?_⟩
  have rule (edge : Edge) (drawn : line ∈ Band.visibleRule (ruleLine charWidth edge band.cells)) :
      line = ruleLine charWidth edge band.cells := by
    unfold Band.visibleRule at drawn
    split at drawn
    · cases drawn
    · exact List.mem_singleton.mp drawn
  rw [Band.lines_eq] at inBand
  split at inBand
  · rcases List.mem_append.mp inBand with above | lower
    · rcases List.mem_append.mp above with upper | text
      · exact .inl ⟨.top, rule .top upper⟩
      · obtain ⟨painted, drawn, rfl⟩ := List.mem_map.mp text
        obtain ⟨allotment, allots⟩ := exists_allotment charWidth band.cells
        obtain ⟨cells, known, shows⟩ := exists_of_mem_left allots.shows drawn
        refine .inr ⟨cells, fun cell inside => ?_, painted, drawn, rfl, shows⟩
        have allotted : cell ∈ allotment.flatten := List.mem_flatten.mpr ⟨cells, known, inside⟩
        exact List.mem_of_mem_filter (allots.once.subset allotted)
    · exact .inl ⟨.bottom, rule .bottom lower⟩
  · cases inBand

/-- A line of a painted document: a gap between pages, the divider above a page, or a line of a page. -/
inductive DocumentLine where
  | gap
  | divider (number count : Nat)
  | painted (line : TextLine)

namespace DocumentLine

/-- The line of a page, if it is one. -/
def painted? : DocumentLine → Option TextLine
  | painted line => some line
  | _ => none

/-- The line as it is written. -/
def text (styling : Styling) : DocumentLine → List Char
  | gap => []
  | divider number count => styling.divider (dividerText number count).toList
  | painted line => styling.line line

end DocumentLine

/-- The lines of a page below its divider, with a gap above every page but the first. -/
def documentPage (charWidth : Int) (count : Nat) (entry : Page × Nat) : List DocumentLine :=
  (if entry.2 = 0 then [] else [.gap]) ++ .divider (entry.2 + 1) count ::
    (Page.lines charWidth entry.1).map .painted

/-- The lines of a document. -/
def documentLines (charWidth : Int) (pages : List Page) : List DocumentLine :=
  pages.zipIdx.flatMap (documentPage charWidth pages.length)

/-- However emphasis is written, a document has the same lines. -/
theorem paintedLines_eq (styling : Styling) (charWidth : Int) (pages : List Page) :
    paintedLines styling charWidth pages =
      (documentLines charWidth pages).map (DocumentLine.text styling) := by
  rw [documentLines, List.map_flatMap, paintedLines]
  refine List.flatMap_congr fun entry _ => ?_
  rw [documentPage, List.map_append, List.map_cons, List.map_map]
  by_cases first : entry.2 = 0 <;> simp only [first] <;> rfl

theorem filterMap_documentPage (charWidth : Int) (count : Nat) (entry : Page × Nat) :
    (documentPage charWidth count entry).filterMap DocumentLine.painted? =
      Page.lines charWidth entry.1 := by
  have gap : (if entry.2 = 0 then [] else [.gap]).filterMap DocumentLine.painted? = [] := by
    split <;> rfl
  rw [documentPage, List.filterMap_append, gap, List.nil_append, List.filterMap_cons_none rfl,
    List.filterMap_map]
  exact List.filterMap_some

theorem filterMap_flatMap_documentPage (charWidth : Int) (count start : Nat) (pages : List Page) :
    ((pages.zipIdx start).flatMap (documentPage charWidth count)).filterMap DocumentLine.painted? =
      pages.flatMap (Page.lines charWidth) := by
  rw [List.filterMap_flatMap]
  simp only [filterMap_documentPage]
  rw [← List.flatMap_map, List.zipIdx_map_fst]

/-- The painted lines of a document are those of its pages, from the first one to the last. -/
theorem filterMap_documentLines (charWidth : Int) (pages : List Page) :
    (documentLines charWidth pages).filterMap DocumentLine.painted? =
      pages.flatMap (Page.lines charWidth) :=
  filterMap_flatMap_documentPage charWidth pages.length 0 pages

/-- A document is written line by line, every line with its end. -/
theorem renderText_eq (styling : Styling) (charWidth : Int) (pages : List Page) :
    renderText styling charWidth pages =
      String.ofList ((documentLines charWidth pages).flatMap fun line => line.text styling ++ ['\n']) := by
  rw [renderText, paintedLines_eq, List.flatMap_map]

/-- Lines that stand together on a page and in the text of the document. There the lines of the earlier
pages and those of the page before them stand above, and the others below. -/
structure Page.Writes (charWidth : Int) (pages : List Page) (page : Page)
    (before lines after : List TextLine) : Prop where
  onPage : Page.lines charWidth page = before ++ (lines ++ after)
  inText : ∃ (earlier later : List Page) (above below : List DocumentLine),
    pages = earlier ++ page :: later ∧
      (∀ styling, renderText styling charWidth pages =
        String.ofList ((above ++ (lines.map DocumentLine.painted ++ below)).flatMap
          fun line => DocumentLine.text styling line ++ ['\n'])) ∧
      above.filterMap DocumentLine.painted? = earlier.flatMap (Page.lines charWidth) ++ before ∧
      below.filterMap DocumentLine.painted? = after ++ later.flatMap (Page.lines charWidth)

theorem Page.Writes.mem_lines {charWidth : Int} {pages : List Page} {page : Page}
    {before lines after : List TextLine} (writes : Page.Writes charWidth pages page before lines after)
    {line : TextLine} (member : line ∈ lines) : line ∈ Page.lines charWidth page := by
  rw [writes.onPage]
  exact List.mem_append_right _ (List.mem_append_left _ member)

theorem filterMap_map_painted (lines : List TextLine) :
    (lines.map DocumentLine.painted).filterMap DocumentLine.painted? = lines := by
  rw [List.filterMap_map]
  exact List.filterMap_some

/-- What stands together on a page stands together in the text. -/
theorem Page.writes_of_mem {charWidth : Int} {pages : List Page} {page : Page} (member : page ∈ pages)
    {before lines after : List TextLine}
    (onPage : Page.lines charWidth page = before ++ (lines ++ after)) :
    Page.Writes charWidth pages page before lines after := by
  obtain ⟨earlier, later, rfl⟩ := List.append_of_mem member
  let count := (earlier ++ page :: later).length
  let head : List DocumentLine := (if earlier.length = 0 then [] else [.gap]) ++
    [.divider (earlier.length + 1) count]
  let above := earlier.zipIdx.flatMap (documentPage charWidth count) ++ head ++ before.map .painted
  let below := after.map .painted ++
    (later.zipIdx (earlier.length + 1)).flatMap (documentPage charWidth count)
  have whole : documentLines charWidth (earlier ++ page :: later) =
      above ++ (lines.map .painted ++ below) := by
    rw [documentLines, List.zipIdx_append, List.zipIdx_cons, List.flatMap_append, List.flatMap_cons,
      documentPage, onPage]
    simp [above, below, head, count]
  have frame : head.filterMap DocumentLine.painted? = [] := by
    rw [List.filterMap_append]
    split <;> rfl
  refine ⟨onPage, earlier, later, above, below, rfl, fun styling => ?_, ?_, ?_⟩
  · rw [renderText_eq, whole]
  · rw [List.filterMap_append, List.filterMap_append, filterMap_flatMap_documentPage, frame,
      filterMap_map_painted, List.append_nil]
  · rw [List.filterMap_append, filterMap_map_painted, filterMap_flatMap_documentPage]

/-- A document with escape sequences has the lines of the document without them. The dividers are
dimmed. Every line of a page, up to its last glyph that is no blank, is written as its longest runs of
one emphasis, each with the sequences of its emphasis around it, and the runs are the line without
emphasis. It is a rule, without emphasis, or a line with the texts of cells of one band, each in the
emphasis of its cell, and nothing beside them but bars and blanks without emphasis. -/
theorem renderText_wraps_runs (charWidth : Int) (pages : List Page) :
    (∀ styling, renderText styling charWidth pages =
      String.ofList ((documentLines charWidth pages).flatMap fun line => line.text styling ++ ['\n'])) ∧
    (documentLines charWidth pages).filterMap DocumentLine.painted? =
      pages.flatMap (Page.lines charWidth) ∧
    (∀ number count,
      (DocumentLine.divider number count).text .plain = (dividerText number count).toList ∧
      (DocumentLine.divider number count).text .escapes =
        "\x1b[2m".toList ++ (dividerText number count).toList ++ "\x1b[0m".toList) ∧
    ∀ page ∈ pages, ∀ line ∈ Page.lines charWidth page,
      (∃ kept blanks runs, line = kept ++ blanks ∧ (∀ glyph ∈ blanks, glyph.isBlank = true) ∧
        (∀ glyph ∈ kept.getLast?, glyph.isBlank = false) ∧ TextLine.IsRuns kept runs ∧
        (DocumentLine.painted line).text .plain = kept.map Glyph.char ∧
        (DocumentLine.painted line).text .plain = (runs.flatMap fun run => run.2) ∧
        (DocumentLine.painted line).text .escapes = runs.flatMap fun run => run.1.wrapped run.2) ∧
      ∃ band ∈ Band.ofPage page,
        (∃ edge, line = ruleLine charWidth edge band.cells ∧ ∀ glyph ∈ line, glyph.emphasis = .plain) ∨
          ∃ cells ⊆ band.cells, ∃ painted ∈ textLines charWidth band.cells, line = painted.line ∧
            (cells.Pairwise fun cell other =>
              (cell.span charWidth).isApart (other.span charWidth) = true) ∧
            line.ShowsTexts charWidth cells := by
  refine ⟨fun styling => renderText_eq styling charWidth pages, filterMap_documentLines charWidth pages,
    fun _ _ => ⟨rfl, rfl⟩, ?_⟩
  intro page _ line member
  constructor
  · exact Styling.exists_runs line
  · obtain ⟨band, inPage, ⟨edge, rfl⟩ | ⟨cells, part, painted, drawn, rfl, shows⟩⟩ :=
      Page.rule_or_text_of_mem_lines member
    · exact ⟨band, inPage, .inl ⟨edge, rfl, fun glyph => emphasis_of_mem_ruleLine⟩⟩
    · exact ⟨band, inPage, .inr ⟨cells, part, painted, drawn, rfl, shows.apart, shows.showsTexts⟩⟩

/-- The blank behind the text of the first cell belongs to the text and is bold like it; the bar of that
cell and the text of the second cell are one run without emphasis. -/
example : (textLines 1 [
    { Cell.bare "ab " { Font.standard with bold := true } ⟨0, 0, 5, 1⟩ with
      borders := Borders.none.withLine .right .single },
    .bare "c " .standard ⟨5, 0, 3, 1⟩]).map (fun painted => Styling.escapes.line painted.line) =
      ["\x1b[1mab \x1b[0m |c".toList] := by
  decide

end PagedReport
