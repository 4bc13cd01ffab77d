import PagedReport.Cell
import PagedReport.Text.Blank

/-! # Layout options

What a report lets one choose about fonts, lines, the size of pages, repeated headers and totals.
-/

namespace PagedReport

/-- Height kept free for a rule: below section headers, around grand totals, between sections. -/
def ruleSpace : Int := 2

/-- Padding added on each side of a cell that carries a line. -/
def lineIndent : Int := 2

/-- Which lines the cells of data rows carry. -/
inductive BorderStyle where
  | none
  /-- Above and below every cell. -/
  | horizontal
  /-- Between columns. -/
  | vertical
  /-- Above, below and between. -/
  | inside
  /-- At the left and right ends of the table. -/
  | outside
  /-- Everywhere. -/
  | full
deriving DecidableEq, Repr

namespace BorderStyle

/-- Whether data cells carry lines above and below. -/
def drawsHorizontal : BorderStyle → Bool
  | .horizontal | .inside | .full => true
  | _ => false

/-- Whether there are lines between columns. -/
def drawsInnerVertical : BorderStyle → Bool
  | .vertical | .inside | .full => true
  | _ => false

/-- Whether there are lines at the ends of the table. -/
def drawsOuterVertical : BorderStyle → Bool
  | .outside | .full => true
  | _ => false

/-- The padding of a cell that is shown. -/
def padding : BorderStyle → Insets
  | .none => .uniform 1
  | .horizontal => ⟨1 + lineIndent, 1, 1 + lineIndent, 1⟩
  | .vertical => ⟨1, 1 + lineIndent, 1, 1 + lineIndent⟩
  | .inside | .outside | .full => .uniform (1 + lineIndent)

/-- The padding of the cells of a column; a column that is not shown has none. -/
def columnPadding (style : BorderStyle) (column : Column) : Insets :=
  if column.isBreak then .zero else style.padding

/-- The names of the styles. -/
def names : List (String × BorderStyle) :=
  [("none", .none), ("horizontal", .horizontal), ("vertical", .vertical), ("inside", .inside),
    ("outside", .outside), ("full", .full)]

/-- The style of a name in any mixture of cases. Of the letters in these names only the ASCII
capitals have them as their lower case. -/
def ofName? (name : String) : Option BorderStyle :=
  (names.find? fun (known, _) => known == Text.lowerAscii name).map (·.2)

/-- The message about a name that is no style's. -/
def unknownMessage (name : String) : String := s!"Unknown border style: {name}"

end BorderStyle

/-- What a null does to the totals of sections and groups. In grand totals it counts as zero. -/
inductive NullSubtotals where
  /-- It is an error. -/
  | reject
  /-- It adds nothing. -/
  | skip
deriving DecidableEq, Repr

/-- The options of a layout. -/
structure LayoutOptions where
  /-- The font of section headers, column headers and the labels of totals. -/
  headerFont : Font := Font.standard.bolded
  /-- The font of data; totals use it in bold. -/
  bodyFont : Font := .standard
  borderStyle : BorderStyle := .none
  /-- The greatest width of a section header. -/
  availableWidth : Int := 540
  pageHeight : Int := 720
  /-- What a null shows in a cell. -/
  nullText : String := ""
  grandTotals : Bool := false
  /-- Whether a page that a data row opens starts with the section header. -/
  repeatSectionHeader : Bool := true
  /-- Whether a page that a data row opens starts with the column headers. -/
  repeatColumnHeader : Bool := true
  /-- Whether a repeated group value is shown in parentheses instead of left out. -/
  showGroupsAsRepeat : Bool := false
  nullSubtotals : NullSubtotals := .reject
deriving DecidableEq, Repr

instance : Inhabited LayoutOptions := ⟨{}⟩

end PagedReport
