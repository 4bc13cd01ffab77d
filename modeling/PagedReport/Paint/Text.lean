import PagedReport.Page
import PagedReport.Paint.Grid

/-! # Pages as text

A page is painted band by band from the top. A band holds the cells that share one height; it is
painted as its upper rule, its text lines and its lower rule. Every page follows a divider line, and
an empty line stands between pages. Emphasis is written with the escape sequences of terminals, or
left out.
-/

namespace PagedReport

/-- The cells of a page that share one height. -/
structure Band where
  y : Int
  cells : List Cell
deriving DecidableEq, Repr

namespace Band

/-- A cell added to its band among bands of ascending heights. -/
def insert (cell : Cell) : List Band → List Band
  | [] => [⟨cell.bounds.y, [cell]⟩]
  | band :: rest =>
    if cell.bounds.y < band.y then ⟨cell.bounds.y, [cell]⟩ :: band :: rest
    else if cell.bounds.y = band.y then { band with cells := band.cells ++ [cell] } :: rest
    else band :: insert cell rest

/-- The bands of a page, from the top. -/
def ofPage (page : Page) : List Band := page.foldl (fun bands cell => insert cell bands) []

/-- A rule, if anything of it is seen. -/
def visibleRule (line : TextLine) : List TextLine := if line.all Glyph.isBlank then [] else [line]

/-- The lines of a band: upper rule, text, lower rule. A band of cells that cover no position has no
lines. -/
def lines (charWidth : Int) (band : Band) : List TextLine :=
  if band.cells.all fun cell => (cell.span charWidth).isEmpty then []
  else
    visibleRule (ruleLine charWidth .top band.cells) ++
      (textLines charWidth band.cells).map PaintedLine.line ++
      visibleRule (ruleLine charWidth .bottom band.cells)

end Band

/-- The lines of a page. -/
def Page.lines (charWidth : Int) (page : Page) : List TextLine :=
  (Band.ofPage page).flatMap (Band.lines charWidth)

/-- How emphasis is written. -/
inductive Styling where
  | plain
  | escapes
deriving DecidableEq, Repr

namespace Styling

/-- An escape sequence that selects a rendition by its number. -/
def escapeSequence (rendition : Char) : List Char := ['\x1b', '[', rendition, 'm']

/-- Characters between the sequences that switch renditions on and off. -/
def wrap (renditions : List Char) (chars : List Char) : List Char :=
  if renditions.isEmpty then chars
  else renditions.flatMap escapeSequence ++ chars ++ escapeSequence '0'

/-- The renditions of an emphasis: one for bold, three for italic. -/
def renditions (emphasis : Emphasis) : List Char :=
  (if emphasis.bold then ['1'] else []) ++ (if emphasis.italic then ['3'] else [])

/-- A run of characters of one emphasis. -/
def run (styling : Styling) (emphasis : Emphasis) (chars : List Char) : List Char :=
  match styling with
  | .plain => chars
  | .escapes => wrap (renditions emphasis) chars

/-- A divider, which is dimmed. -/
def divider (styling : Styling) (chars : List Char) : List Char :=
  match styling with
  | .plain => chars
  | .escapes => wrap ['2'] chars

/-- A line up to its last character that is no blank. -/
def line (styling : Styling) (line : TextLine) : List Char :=
  line.trimmed.runs.flatMap fun (emphasis, chars) => styling.run emphasis chars

end Styling

/-- The divider above a page. -/
def dividerText (number count : Nat) : String := s!"--- Page {number} of {count} ---"

/-- Pages as text lines. -/
def paintedLines (styling : Styling) (charWidth : Int) (pages : List Page) : List (List Char) :=
  pages.zipIdx.flatMap fun (page, index) =>
    (if index = 0 then [] else [[]]) ++
      styling.divider (dividerText (index + 1) pages.length).toList ::
        (Page.lines charWidth page).map styling.line

/-- Pages as text, every line with its end. -/
def renderText (styling : Styling) (charWidth : Int) (pages : List Page) : String :=
  String.ofList ((paintedLines styling charWidth pages).flatMap fun line => line ++ ['\n'])

end PagedReport
