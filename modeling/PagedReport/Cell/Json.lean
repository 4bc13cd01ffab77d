import PagedReport.Cell
import PagedReport.Json.Record

/-! # Cells in JSON

The JSON forms of cells and of what they are made of, and their readers. A record is written with
all of its fields in order.
-/

namespace PagedReport

open Json (Reader RecordField)

/-- A length or position in JSON. -/
def lengthField {σ : Type} (key : String) (store : σ → Int → σ) : RecordField σ :=
  .mandatory key Json.readLength store

namespace Font

/-- A font in JSON. -/
def json (font : Font) : Json :=
  .object [("family", .string font.family), ("size", .nat font.size), ("bold", .bool font.bold),
    ("italic", .bool font.italic)]

/-- The fields of a font; it is neither bold nor italic unless it says so. -/
def fields : List (RecordField Font) :=
  [.mandatory "family" Json.readString fun font family => { font with family },
    .mandatory "size" Json.readCount fun font size => { font with size },
    .optional "bold" Json.readBool fun font bold => { font with bold },
    .optional "italic" Json.readBool fun font italic => { font with italic }]

/-- A font read from JSON. -/
def read : Reader Font := Json.readRecord fields false (.plain "" 0)

end Font

namespace Rect

/-- A rectangle in JSON. -/
def json (rect : Rect) : Json :=
  .object [("x", .int rect.x), ("y", .int rect.y), ("width", .int rect.width),
    ("height", .int rect.height)]

/-- The fields of a rectangle. -/
def fields : List (RecordField Rect) :=
  [lengthField "x" fun rect x => { rect with x }, lengthField "y" fun rect y => { rect with y },
    lengthField "width" fun rect width => { rect with width },
    lengthField "height" fun rect height => { rect with height }]

/-- A rectangle read from JSON. -/
def read : Reader Rect := Json.readRecord fields false ⟨0, 0, 0, 0⟩

end Rect

namespace Insets

/-- A padding in JSON. -/
def json (insets : Insets) : Json :=
  .object [("top", .int insets.top), ("left", .int insets.left), ("bottom", .int insets.bottom),
    ("right", .int insets.right)]

/-- The fields of a padding. -/
def fields : List (RecordField Insets) :=
  [lengthField "top" fun insets top => { insets with top },
    lengthField "left" fun insets left => { insets with left },
    lengthField "bottom" fun insets bottom => { insets with bottom },
    lengthField "right" fun insets right => { insets with right }]

/-- A padding read from JSON. -/
def read : Reader Insets := Json.readRecord fields false .zero

end Insets

namespace Alignment

/-- The names of alignments. -/
def names : List (String × Alignment) := [("left", .left), ("center", .center), ("right", .right)]

/-- The name of an alignment. -/
def name : Alignment → String
  | .left => "left"
  | .center => "center"
  | .right => "right"

/-- An alignment read from JSON. -/
def read : Reader Alignment := Json.readName names

end Alignment

namespace Edge

/-- The names of edges. -/
def names : List (String × Edge) :=
  [("top", .top), ("bottom", .bottom), ("left", .left), ("right", .right)]

/-- The name of an edge. -/
def name : Edge → String
  | .top => "top"
  | .bottom => "bottom"
  | .left => "left"
  | .right => "right"

/-- An edge read from JSON. -/
def read : Reader Edge := Json.readName names

end Edge

namespace Line

/-- The names of lines. -/
def names : List (String × Line) := [("none", .none), ("single", .single), ("double", .double)]

/-- The name of a line. -/
def name : Line → String
  | .none => "none"
  | .single => "single"
  | .double => "double"

/-- A line read from JSON. -/
def read : Reader Line := Json.readName names

end Line

namespace Borders

/-- Borders in JSON. -/
def json (borders : Borders) : Json :=
  .object [("top", .string borders.top.name), ("bottom", .string borders.bottom.name),
    ("left", .string borders.left.name), ("right", .string borders.right.name)]

/-- The field of one edge. -/
def field (edge : Edge) : RecordField Borders :=
  .mandatory edge.name Line.read fun borders line => borders.withLine edge line

/-- Borders read from JSON. -/
def read : Reader Borders :=
  Json.readRecord [field .top, field .bottom, field .left, field .right] false .none

end Borders

namespace Cell

/-- A cell in JSON. -/
def json (cell : Cell) : Json :=
  .object [("text", .string cell.text), ("font", cell.font.json), ("bounds", cell.bounds.json),
    ("padding", cell.padding.json), ("alignment", .string cell.alignment.name),
    ("borders", cell.borders.json)]

/-- The fields of a cell. -/
def fields : List (RecordField Cell) :=
  [.mandatory "text" Json.readString fun cell text => { cell with text },
    .mandatory "font" Font.read fun cell font => { cell with font },
    .mandatory "bounds" Rect.read fun cell bounds => { cell with bounds },
    .mandatory "padding" Insets.read fun cell padding => { cell with padding },
    .mandatory "alignment" Alignment.read fun cell alignment => { cell with alignment },
    .mandatory "borders" Borders.read fun cell borders => { cell with borders }]

/-- A cell read from JSON. -/
def read : Reader Cell :=
  Json.readRecord fields false (.bare "" (.plain "" 0) ⟨0, 0, 0, 0⟩)

end Cell

end PagedReport
