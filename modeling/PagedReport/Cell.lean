import PagedReport.Column
import PagedReport.Font

/-! # Cells

A cell is a text with everything that a painter needs to know: font, rectangle, padding, alignment
and border lines. Once placed, a cell is never changed; moving it gives a new one. The numbers of
rectangles and insets are coordinates, and their sums wrap around like these.
-/

namespace PagedReport

/-- A rectangle in the coordinates of its page, `y` growing downwards. -/
structure Rect where
  x : Int
  y : Int
  width : Int
  height : Int
deriving DecidableEq, Repr

/-- The coordinate just below a rectangle. -/
def Rect.bottom (rect : Rect) : Int := Coordinate.wrap (rect.y + rect.height)

/-- The distances between the edges of a cell and its text. -/
structure Insets where
  top : Int
  left : Int
  bottom : Int
  right : Int
deriving DecidableEq, Repr

namespace Insets

/-- No padding. -/
def zero : Insets := ⟨0, 0, 0, 0⟩

/-- The same padding on all sides. -/
def uniform (n : Int) : Insets := ⟨n, n, n, n⟩

/-- The padding beside the text, both sides together. -/
def horizontal (insets : Insets) : Int := Coordinate.wrap (insets.left + insets.right)

/-- The padding above and below the text together. -/
def vertical (insets : Insets) : Int := Coordinate.wrap (insets.top + insets.bottom)

end Insets

/-- A side of a cell. -/
inductive Edge where
  | top
  | bottom
  | left
  | right
deriving DecidableEq, Repr

/-- The line along an edge. -/
inductive Line where
  | none
  | single
  | double
deriving DecidableEq, Repr

/-- The lines along the four edges of a cell. -/
structure Borders where
  top : Line
  bottom : Line
  left : Line
  right : Line
deriving DecidableEq, Repr

namespace Borders

/-- No lines. -/
def none : Borders := ⟨.none, .none, .none, .none⟩

/-- The line along an edge. -/
def line (borders : Borders) : Edge → Line
  | .top => borders.top
  | .bottom => borders.bottom
  | .left => borders.left
  | .right => borders.right

/-- The same borders with another line along one edge. -/
def withLine (borders : Borders) (edge : Edge) (line : Line) : Borders :=
  match edge with
  | .top => { borders with top := line }
  | .bottom => { borders with bottom := line }
  | .left => { borders with left := line }
  | .right => { borders with right := line }

/-- Whether there is a line along an edge. -/
def has (borders : Borders) (edge : Edge) : Bool := borders.line edge != .none

/-- The edges with a line: top, bottom, left, right. -/
def edges (borders : Borders) : List Edge :=
  [Edge.top, .bottom, .left, .right].filter borders.has

/-- Whether there is no line at all. -/
def isEmpty (borders : Borders) : Bool := borders.edges.isEmpty

end Borders

/-- A text placed on a page. -/
structure Cell where
  text : String
  font : Font
  bounds : Rect
  padding : Insets
  alignment : Alignment
  borders : Borders
deriving DecidableEq, Repr

namespace Cell

/-- A cell without padding and lines, aligned to the left. -/
def bare (text : String) (font : Font) (bounds : Rect) : Cell :=
  ⟨text, font, bounds, .zero, .left, .none⟩

/-- The cell at another height of the page. -/
def atY (cell : Cell) (y : Int) : Cell := { cell with bounds := { cell.bounds with y := y } }

end Cell

/-- The height of a batch of cells that stand side by side: that of its tallest cell, and none for
an empty batch. -/
def batchHeight (cells : List Cell) : Int :=
  ((cells.map fun cell => cell.bounds.height).max?).getD 0

end PagedReport
