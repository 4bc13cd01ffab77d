import PagedReport.Options
import PagedReport.Section
import PagedReport.Totals

/-! # The bands of a report

A report is made of bands of cells: section headers, column headers, data rows and lines of totals.
A `Design` says what each of them looks like. It keeps no state; a band is made for the height at
which it is to stand. The size of a cell is worked out from measures, paddings and spaces, and what these
add up to wraps around where the cell is given it as a coordinate.
-/

namespace PagedReport

/-- What the bands of a report are made from. -/
structure Design where
  columns : List Column
  options : LayoutOptions
  metrics : Metrics

namespace Design

variable (design : Design)

/-- The value as it is shown without a format; null shows the text chosen for it. -/
def plainText (value : Value) : String := (value.display?).getD design.options.nullText

/-- The value as a column shows it: in the format of the column, unless it is null. -/
def displayText (column : Column) (value : Value) : Except ReportError String :=
  match column.format with
  | none => .ok (design.plainText value)
  | some format =>
    if value.isNull then .ok (design.plainText value)
    else (format.format value).mapError fun error => .format column.name error

/-- The height of a line in a font with the padding above and below it. -/
def lineIn (font : Font) (padding : Insets) : Int :=
  design.metrics.lineHeight font + padding.vertical

/-- The rectangle of a column at a height of the page. -/
def columnRect (column : Column) (index : Nat) (y height : Int) : Rect :=
  ⟨xOffset design.columns index, y, column.width, Coordinate.wrap height⟩

/-- The padding of the cells of a column. -/
def columnPadding (column : Column) : Insets :=
  design.options.borderStyle.columnPadding column

/-- The cell that names a section, centred over the table and ruled below. A section without a name
gets an empty cell of no size. -/
def sectionHeader (key : SectionKey) (y : Int) : Cell :=
  let text := key.headerText design.columns
  let font := design.options.headerFont
  if Text.isAllBlank text then .bare "" font ⟨0, y, 0, 0⟩
  else
    let padding := design.options.borderStyle.padding
    { text, font, padding
      bounds :=
        ⟨0, y, min (visibleWidth design.columns) design.options.availableWidth,
          Coordinate.wrap (design.lineIn font padding + ruleSpace)⟩
      alignment := .center
      borders := Borders.none.withLine .bottom .single }

/-- The header cell of a column. -/
def headerCell (column : Column) (index : Nat) (y : Int) : Cell :=
  let font := design.options.headerFont
  let padding := design.columnPadding column
  { text := if column.name.isEmpty then design.options.nullText else column.name
    font, padding
    bounds := design.columnRect column index y (design.lineIn font padding)
    alignment := column.alignment
    borders := .none }

/-- The header cells of all columns that are shown. -/
def columnHeader (y : Int) : List Cell :=
  (visibleColumns design.columns).map fun (column, index) => design.headerCell column index y

/-- The indexes of the columns that are shown. -/
def shownIndexes : List Nat := (visibleColumns design.columns).map (·.2)

/-- The lines of a data cell. The left edge of the first column and the right edge of the last one
are the ends of the table; all other upright edges lie between columns. -/
def dataBorders (index : Nat) : Borders :=
  let style := design.options.borderStyle
  let upright (atEnd : Bool) : Line :=
    if (if atEnd then style.drawsOuterVertical else style.drawsInnerVertical) then .single else .none
  let level : Line := if style.drawsHorizontal then .single else .none
  ⟨level, level, upright (design.shownIndexes.head? == some index),
    upright (design.shownIndexes.getLast? == some index)⟩

/-- Whether a group column only repeats the value that the previous row of the section has. -/
def isRepeated (column : Column) (index : Nat) (row : Row) (previous : Option Row) : Bool :=
  column.isGroup && match previous with
    | none => false
    | some earlier => (earlier.getD index .null).agrees (row.getD index .null)

/-- The cell of a column in a data row. A repeated group value is left out, or shown in parentheses
and with italic switched over. -/
def dataCell (column : Column) (index : Nat) (row : Row) (previous : Option Row) (y : Int)
    (showRepeats : Bool) : Except ReportError Cell := do
  let shown ← design.displayText column (row.getD index .null)
  let font := design.options.bodyFont
  let padding := design.columnPadding column
  let repeated := isRepeated column index row previous
  return {
    text := if !repeated then shown else if showRepeats then "(" ++ shown ++ ")" else ""
    font := if repeated && showRepeats then font.italicToggled else font
    padding
    bounds := design.columnRect column index y (design.lineIn font padding)
    alignment := column.alignment
    borders := design.dataBorders index }

/-- The cells of a data row. `previous` is the row before it in the same section. -/
def dataRow (row : Row) (previous : Option Row) (y : Int) (showRepeats : Bool) :
    Except ReportError (List Cell) :=
  (visibleColumns design.columns).mapM fun (column, index) =>
    design.dataCell column index row previous y showRepeats

/-- The height that the double rule of grand totals takes, above and below. -/
def grandSpace (grand : Bool) : Int := if grand then 2 * ruleSpace else 0

/-- The label of a line of totals. -/
def totalsText (line : TotalsLine) (grand : Bool) : String :=
  if grand then "Grand Total" else "Total: " ++ line.label

/-- The cell with the label of a line of totals, as wide as the label needs. -/
def totalsLabel (line : TotalsLine) (grand : Bool) (y : Int) : Cell :=
  let text := totalsText line grand
  let font := design.options.headerFont
  let padding := design.options.borderStyle.padding
  let width := design.metrics.textWidth font text + 1 + padding.horizontal
  let height := design.lineIn font padding + (design.metrics.lineHeight font).tdiv 2 + grandSpace grand
  { text, font, padding
    bounds := ⟨xOffset design.columns line.anchor, y, Coordinate.wrap width, Coordinate.wrap height⟩
    alignment := .left
    borders := .none }

/-- The cell of a column in a line of totals, in bold, if the line has a total for it. -/
def totalCell (line : TotalsLine) (grand : Bool) (y : Int) (column : Column) (index : Nat) :
    Except ReportError (Option Cell) :=
  match line.sums.sum? index with
  | none => .ok none
  | some total => do
    let text ← design.displayText column (.number total)
    let font := design.options.bodyFont.bolded
    let padding := design.columnPadding column
    let height := max (design.metrics.lineHeight font)
      (design.metrics.lineHeight design.options.headerFont)
    return some {
      text, font, padding
      bounds := design.columnRect column index y (height + padding.vertical + grandSpace grand)
      alignment := column.alignment
      borders := if grand then Borders.none.withLine .top .double else .none }

/-- The cells of a line of totals: a label and the totals of the columns that are shown. A line
without any total has no cells. -/
def totals (line : TotalsLine) (grand : Bool) (y : Int) : Except ReportError (List Cell) := do
  if line.sums.hasTotals then
    let cells ← (visibleColumns design.columns).mapM fun (column, index) =>
      design.totalCell line grand y column index
    return design.totalsLabel line grand y :: cells.filterMap id
  else return []

end Design

end PagedReport
