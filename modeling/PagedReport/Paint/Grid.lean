import PagedReport.Cell

/-! # The character grid

Painted text is made of glyphs: characters with their emphasis. A cell covers a span of character
positions. On its span it shows upright bars at the edges that carry a line, and between them as much
of its text as there is room for, placed by its alignment. Cells whose spans overlap go to different
lines.
-/

namespace PagedReport

/-- The emphasis of a painted character. -/
structure Emphasis where
  bold : Bool
  italic : Bool
deriving DecidableEq, Repr

/-- No emphasis. -/
def Emphasis.plain : Emphasis := ⟨false, false⟩

/-- The emphasis of a font. -/
def Font.emphasis (font : Font) : Emphasis := ⟨font.bold, font.italic⟩

/-- A painted character. -/
structure Glyph where
  char : Char
  emphasis : Emphasis
deriving DecidableEq, Repr

namespace Glyph

/-- An empty position. -/
def blank : Glyph := ⟨' ', .plain⟩

/-- A character without emphasis. -/
def plain (c : Char) : Glyph := ⟨c, .plain⟩

/-- Whether the glyph shows nothing. -/
def isBlank (glyph : Glyph) : Bool := glyph.char == ' '

end Glyph

/-- A line of painted text, from its first position on; positions past its end are empty. -/
abbrev TextLine := List Glyph

namespace TextLine

/-- The line with glyphs painted from a position on, over what was there. -/
def overlay (line : TextLine) (start : Nat) (glyphs : List Glyph) : TextLine :=
  if glyphs.isEmpty then line
  else line.take start ++ List.replicate (start - line.length) .blank ++ glyphs ++
    line.drop (start + glyphs.length)

/-- The line without the blanks at its end. -/
def trimmed (line : TextLine) : TextLine := (line.reverse.dropWhile Glyph.isBlank).reverse

/-- The longest runs of one emphasis, each with its characters. -/
def runs : TextLine → List (Emphasis × List Char)
  | [] => []
  | glyph :: rest =>
    match runs rest with
    | [] => [(glyph.emphasis, [glyph.char])]
    | (emphasis, chars) :: more =>
      if glyph.emphasis = emphasis then (emphasis, glyph.char :: chars) :: more
      else (glyph.emphasis, [glyph.char]) :: (emphasis, chars) :: more

end TextLine

/-- The positions from `start` up to, and not including, `stop`. -/
structure Span where
  start : Nat
  stop : Nat
deriving DecidableEq, Repr

namespace Span

/-- The number of positions. -/
def width (span : Span) : Nat := span.stop - span.start

/-- Whether there is no position in the span. -/
def isEmpty (span : Span) : Bool := span.start == span.stop

/-- Whether one span ends before the other begins. -/
def isApart (a b : Span) : Bool := a.stop ≤ b.start || b.stop ≤ a.start

end Span

namespace Cell

/-- The positions that a cell covers, with so many units to a character. Parts of a character count
for nothing, on the left and in the width. -/
def span (cell : Cell) (charWidth : Int) : Span :=
  let start := (cell.bounds.x.tdiv charWidth).toNat
  ⟨start, start + (cell.bounds.width.tdiv charWidth).toNat⟩

/-- The bar of an upright edge. -/
def bar : Glyph := .plain '|'

/-- The empty positions before a text of this length in a room of a given width. -/
def indent (alignment : Alignment) (room length : Nat) : Nat :=
  match alignment with
  | .left => 0
  | .right => room - length
  | .center => (room - length) / 2

/-- What a cell paints on a span of this many positions, from the first one on. The right bar yields
to the left one where there is room for one only. -/
def glyphs (cell : Cell) (width : Nat) : List Glyph :=
  let left := if cell.borders.has .left then [bar] else []
  let right := if cell.borders.has .right && left.length < width then [bar] else []
  let room := width - left.length - right.length
  let text := cell.text.toList.take room
  let body := if text.isEmpty then [] else
    List.replicate (indent cell.alignment room text.length) .blank ++
      text.map fun c => ⟨c, cell.font.emphasis⟩
  let gap := if right.isEmpty then [] else List.replicate (room - body.length) .blank
  left ++ body ++ gap ++ right

end Cell

/-- A line of text with the spans of the cells painted on it. -/
structure PaintedLine where
  line : TextLine
  taken : List Span
deriving DecidableEq, Repr

namespace PaintedLine

/-- A cell painted on the first line on which its span is free, or else on a new one. A cell that
covers no position is not painted. -/
def add (charWidth : Int) (lines : List PaintedLine) (cell : Cell) : List PaintedLine :=
  let span := cell.span charWidth
  if span.isEmpty then lines
  else
    let paintOn (target : PaintedLine) : PaintedLine :=
      ⟨target.line.overlay span.start (cell.glyphs span.width), target.taken ++ [span]⟩
    let isFree (target : PaintedLine) : Bool := target.taken.all span.isApart
    match lines.findIdx? isFree with
    | some index => lines.modify index paintOn
    | none => lines ++ [paintOn ⟨[], []⟩]

end PaintedLine

/-- The text lines of a band: each cell on the first line where it covers no other. -/
def textLines (charWidth : Int) (cells : List Cell) : List PaintedLine :=
  cells.foldl (PaintedLine.add charWidth) []

/-- The character of a rule. -/
def Line.ruleChar? : Line → Option Char
  | .none => .none
  | .single => some '-'
  | .double => some '='

/-- The rule along the upper or lower edges of a band. Where cells overlap, the later one's line is
seen. -/
def ruleLine (charWidth : Int) (edge : Edge) (cells : List Cell) : TextLine :=
  cells.foldl (fun line cell =>
    match (cell.borders.line edge).ruleChar? with
    | none => line
    | some c =>
      let span := cell.span charWidth
      line.overlay span.start (List.replicate span.width (.plain c))) []

end PagedReport
