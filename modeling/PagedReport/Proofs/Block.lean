import PagedReport.Layout
import PagedReport.Proofs.Outcome
import PagedReport.Proofs.Placing

/-! # Blocks

A report is a sequence of blocks. A block knows everything that its cells are made from except its
height on the page, so its cells at two heights differ in nothing else, and whether they can be made
at all does not depend on the height either.
-/

namespace PagedReport

/-- A block of a report. -/
inductive Block where
  | sectionHeader (key : SectionKey)
  | columnHeader
  /-- A row, with the row before it in the same section. -/
  | dataRow (row : Row) (previous : Option Row)
  | groupTotals (line : TotalsLine)
  | sectionTotals (line : TotalsLine)
  | grandTotals (line : TotalsLine)
deriving DecidableEq, Repr

namespace Block

/-- The gap that is left free below a block. -/
def gap : Block → Int
  | sectionTotals _ => ruleSpace
  | _ => 0

/-- Whether the block is a data row. -/
def isDataRow : Block → Bool
  | dataRow .. => true
  | _ => false

theorem gap_nonneg (block : Block) : 0 ≤ block.gap := by
  cases block <;> simp [gap, ruleSpace]

end Block

namespace Design

variable (design : Design)

/-- The cells of a block at a height of the page. Only data rows can show repeated values. -/
def cells (block : Block) (showRepeats : Bool) (y : Int) : Except ReportError (List Cell) :=
  match block with
  | .sectionHeader key => .ok [design.sectionHeader key y]
  | .columnHeader => .ok (design.columnHeader y)
  | .dataRow row previous => design.dataRow row previous y showRepeats
  | .groupTotals line => design.totals line false y
  | .sectionTotals line => design.totals line false y
  | .grandTotals line => design.totals line true y

theorem sectionHeader_atY (key : SectionKey) (y : Int) :
    design.sectionHeader key y = (design.sectionHeader key 0).atY y := by
  simp only [sectionHeader]
  split <;> rfl

theorem columnHeader_atHeight (y : Int) :
    design.columnHeader y = atHeight y (design.columnHeader 0) := by
  simp only [columnHeader, atHeight, List.map_map]
  rfl

theorem dataCell_atY (column : Column) (index : Nat) (row : Row) (previous : Option Row) (y : Int)
    (showRepeats : Bool) :
    design.dataCell column index row previous y showRepeats =
      (design.dataCell column index row previous 0 showRepeats).map (Cell.atY · y) := by
  simp only [dataCell]
  cases design.displayText column (row.getD index .null) <;> rfl

theorem dataRow_atHeight (row : Row) (previous : Option Row) (y : Int) (showRepeats : Bool) :
    design.dataRow row previous y showRepeats =
      (design.dataRow row previous 0 showRepeats).map (atHeight y) := by
  simp only [dataRow]
  rw [show atHeight y = List.map (Cell.atY · y) from rfl, ← mapM_map_result]
  exact congrArg (fun cell => (visibleColumns design.columns).mapM cell)
    (funext fun place => design.dataCell_atY place.1 place.2 row previous y showRepeats)

theorem totalCell_atY (line : TotalsLine) (grand : Bool) (y : Int) (column : Column) (index : Nat) :
    design.totalCell line grand y column index =
      (design.totalCell line grand 0 column index).map (Option.map (Cell.atY · y)) := by
  simp only [totalCell]
  cases line.sums.sum? index with
  | none => rfl
  | some total =>
    dsimp only
    cases design.displayText column (.number total) <;> rfl

theorem totals_atHeight (line : TotalsLine) (grand : Bool) (y : Int) :
    design.totals line grand y = (design.totals line grand 0).map (atHeight y) := by
  simp only [totals]
  split
  · have cell := funext fun place : Column × Nat =>
      design.totalCell_atY line grand y place.1 place.2
    rw [cell, mapM_map_result]
    cases (visibleColumns design.columns).mapM fun place =>
        design.totalCell line grand 0 place.1 place.2 with
    | error error => rfl
    | ok cells =>
      simp only [map_ok, ok_bind, pure_eq_ok, atHeight, List.map_cons, List.filterMap_map,
        List.map_filterMap]
      rfl
  · rfl

/-- The cells of a block at two heights are the same but for the height. -/
theorem cells_atHeight (block : Block) (showRepeats : Bool) (y : Int) :
    design.cells block showRepeats y = (design.cells block showRepeats 0).map (atHeight y) := by
  cases block with
  | sectionHeader key => exact congrArg (fun cell => Except.ok [cell]) (design.sectionHeader_atY key y)
  | columnHeader => exact congrArg Except.ok (design.columnHeader_atHeight y)
  | dataRow row previous => exact design.dataRow_atHeight row previous y showRepeats
  | groupTotals line => exact design.totals_atHeight line false y
  | sectionTotals line => exact design.totals_atHeight line false y
  | grandTotals line => exact design.totals_atHeight line true y

variable {design}

/-- A block that has cells at one height has the same cells at every other. -/
theorem cells_eq_ok_atHeight {block : Block} {showRepeats : Bool} {y : Int} {cells : List Cell}
    (made : design.cells block showRepeats y = .ok cells) (z : Int) :
    design.cells block showRepeats z = .ok (atHeight z cells) := by
  rw [cells_atHeight] at made ⊢
  obtain ⟨base, found, rfl⟩ := map_eq_ok_iff.mp made
  rw [found, map_ok, atHeight_atHeight]

/-- All cells of a block stand at its height. -/
theorem level_of_cells_eq_ok {block : Block} {showRepeats : Bool} {y : Int} {cells : List Cell}
    (made : design.cells block showRepeats y = .ok cells) : atHeight y cells = cells := by
  rw [cells_atHeight] at made
  obtain ⟨base, _, rfl⟩ := map_eq_ok_iff.mp made
  rw [atHeight_atHeight]

end Design

namespace Design

variable (design : Design)

/-- What the heights of the cells of a line of totals are, before they are kept as coordinates. -/
def totalsHeights (line : TotalsLine) (grand : Bool) : List Int :=
  let header := design.options.headerFont
  if line.sums.hasTotals then
    (design.lineIn header design.options.borderStyle.padding +
        (design.metrics.lineHeight header).tdiv 2 + grandSpace grand) ::
      ((visibleColumns design.columns).filter fun place => (line.sums.sum? place.2).isSome).map
        fun place =>
          max (design.metrics.lineHeight design.options.bodyFont.bolded)
              (design.metrics.lineHeight header) +
            (design.columnPadding place.1).vertical + grandSpace grand
  else []

/-- What the heights of the cells of a block are, before they are kept as coordinates. -/
def heights : Block → List Int
  | .sectionHeader key =>
    let header := design.options.headerFont
    [if Text.isAllBlank (key.headerText design.columns) then 0
      else design.lineIn header design.options.borderStyle.padding + ruleSpace]
  | .columnHeader => (visibleColumns design.columns).map fun place =>
      design.lineIn design.options.headerFont (design.columnPadding place.1)
  | .dataRow .. => (visibleColumns design.columns).map fun place =>
      design.lineIn design.options.bodyFont (design.columnPadding place.1)
  | .groupTotals line => design.totalsHeights line false
  | .sectionTotals line => design.totalsHeights line false
  | .grandTotals line => design.totalsHeights line true

/-- The height of a block: that of its tallest cell, and none for a block without cells. -/
def blockHeight (block : Block) : Int := ((design.heights block).max?).getD 0

variable {design}

private theorem map_height_dataRow {row : Row} {previous : Option Row} {y : Int} {showRepeats : Bool}
    {cells : List Cell} (made : design.dataRow row previous y showRepeats = .ok cells) :
    cells.map (fun cell => cell.bounds.height) =
      (design.heights (.dataRow row previous)).map Coordinate.wrap := by
  rw [heights, List.map_map, ← List.forall₂_eq_eq_eq, List.forall₂_map_left_iff,
    List.forall₂_map_right_iff]
  refine (mapM_eq_ok_iff.mp made).flip.imp fun cell place found => ?_
  obtain ⟨shown, _, same⟩ := bind_eq_ok_iff.mp found
  cases same
  rfl

private theorem map_height_totalCells {line : TotalsLine} {grand : Bool} {y : Int}
    {places : List (Column × Nat)} {found : List (Option Cell)}
    (each : List.Forall₂ (fun place cell =>
      design.totalCell line grand y place.1 place.2 = .ok cell) places found) :
    (found.filterMap id).map (fun cell => cell.bounds.height) =
      ((places.filter fun place => (line.sums.sum? place.2).isSome).map fun place =>
        max (design.metrics.lineHeight design.options.bodyFont.bolded)
            (design.metrics.lineHeight design.options.headerFont) +
          (design.columnPadding place.1).vertical + grandSpace grand).map Coordinate.wrap := by
  induction each with
  | nil => rfl
  | @cons place cell places found made others ih =>
    rw [totalCell] at made
    cases total : line.sums.sum? place.2 with
    | none =>
      rw [total] at made
      cases made
      rw [List.filter_cons_of_neg (by simp [total])]
      exact ih
    | some sum =>
      rw [total] at made
      obtain ⟨text, _, same⟩ := bind_eq_ok_iff.mp made
      cases same
      rw [List.filter_cons_of_pos (by simp [total])]
      exact congrArg₂ List.cons rfl ih

private theorem map_height_totals {line : TotalsLine} {grand : Bool} {y : Int} {cells : List Cell}
    (made : design.totals line grand y = .ok cells) :
    cells.map (fun cell => cell.bounds.height) =
      (design.totalsHeights line grand).map Coordinate.wrap := by
  rw [totals] at made
  rw [totalsHeights]
  split at made
  · next some =>
    obtain ⟨found, run, same⟩ := bind_eq_ok_iff.mp made
    cases same
    rw [if_pos some, List.map_cons, List.map_cons, map_height_totalCells (mapM_eq_ok_iff.mp run)]
    rfl
  · next none =>
    cases made
    rw [if_neg none]
    rfl

/-- The heights of the cells of a block are kept as coordinates. -/
theorem map_height_cells {block : Block} {showRepeats : Bool} {y : Int} {cells : List Cell}
    (made : design.cells block showRepeats y = .ok cells) :
    cells.map (fun cell => cell.bounds.height) = (design.heights block).map Coordinate.wrap := by
  cases block with
  | sectionHeader key =>
    cases made
    rw [heights, List.map_singleton, List.map_singleton, sectionHeader]
    split <;> rfl
  | columnHeader =>
    cases made
    rw [heights, columnHeader, List.map_map, List.map_map]
    rfl
  | dataRow row previous => exact map_height_dataRow made
  | groupTotals line => exact map_height_totals made
  | sectionTotals line => exact map_height_totals made
  | grandTotals line => exact map_height_totals made

/-- The height of the batch of a block is a coordinate. -/
theorem inRange_batchHeight_cells {block : Block} {showRepeats : Bool} {y : Int} {cells : List Cell}
    (made : design.cells block showRepeats y = .ok cells) :
    Coordinate.InRange (batchHeight cells) := by
  apply inRange_batchHeight
  intro cell member
  have kept : cell.bounds.height ∈ (design.heights block).map Coordinate.wrap :=
    map_height_cells made ▸ List.mem_map_of_mem member
  obtain ⟨height, _, same⟩ := List.mem_map.mp kept
  rw [← same]
  exact Coordinate.inRange_wrap height

end Design

/-- The metrics of a surface on which every line of text has some height. -/
def Metrics.PositiveLines (metrics : Metrics) : Prop := ∀ font, 1 ≤ metrics.lineHeight font

namespace Design

variable {design : Design}

theorem vertical_padding_nonneg (style : BorderStyle) : 0 ≤ style.padding.vertical := by
  cases style <;> decide

theorem vertical_columnPadding_nonneg (design : Design) (column : Column) :
    0 ≤ (design.columnPadding column).vertical := by
  simp only [columnPadding, BorderStyle.columnPadding]
  split
  · decide
  · exact vertical_padding_nonneg _

theorem grandSpace_nonneg (grand : Bool) : 0 ≤ grandSpace grand := by
  cases grand <;> decide

private theorem one_le_lineIn (lines : design.metrics.PositiveLines) {font : Font} {column : Column} :
    1 ≤ design.lineIn font (design.columnPadding column) := by
  have line := lines font
  have padding := design.vertical_columnPadding_nonneg column
  rw [lineIn]
  omega

private theorem one_le_totalsHeights (lines : design.metrics.PositiveLines) {line : TotalsLine}
    {grand : Bool} {height : Int} (member : height ∈ design.totalsHeights line grand) : 1 ≤ height := by
  have text := lines design.options.headerFont
  have space := grandSpace_nonneg grand
  rw [totalsHeights] at member
  split at member
  · rcases List.mem_cons.mp member with rfl | member
    · have half : 0 ≤ (design.metrics.lineHeight design.options.headerFont).tdiv 2 :=
        Int.tdiv_nonneg (by omega) (by omega)
      have padding := vertical_padding_nonneg design.options.borderStyle
      rw [lineIn]
      omega
    · obtain ⟨place, _, rfl⟩ := List.mem_map.mp member
      have padding := design.vertical_columnPadding_nonneg place.1
      omega
  · cases member

/-- Every cell has a height, except that of a section without a name. -/
theorem one_le_or_eq_zero (lines : design.metrics.PositiveLines) {block : Block} {height : Int}
    (member : height ∈ design.heights block) :
    1 ≤ height ∨ height = 0 ∧ ∃ key, block = .sectionHeader key ∧
      Text.isAllBlank (key.headerText design.columns) = true := by
  cases block with
  | sectionHeader key =>
    obtain rfl := List.mem_singleton.mp member
    split
    · next blank => exact .inr ⟨rfl, key, rfl, blank⟩
    · have line := lines design.options.headerFont
      have padding := vertical_padding_nonneg design.options.borderStyle
      refine .inl ?_
      simp only [lineIn, ruleSpace]
      omega
  | columnHeader =>
    obtain ⟨place, _, rfl⟩ := List.mem_map.mp member
    exact .inl (one_le_lineIn lines)
  | dataRow row previous =>
    obtain ⟨place, _, rfl⟩ := List.mem_map.mp member
    exact .inl (one_le_lineIn lines)
  | groupTotals line => exact .inl (one_le_totalsHeights lines member)
  | sectionTotals line => exact .inl (one_le_totalsHeights lines member)
  | grandTotals line => exact .inl (one_le_totalsHeights lines member)

/-- No height is negative, and none exceeds that of the block. -/
theorem height_bounds (lines : design.metrics.PositiveLines) {block : Block} {height : Int}
    (member : height ∈ design.heights block) : 0 ≤ height ∧ height ≤ design.blockHeight block := by
  constructor
  · rcases one_le_or_eq_zero lines member with tall | ⟨rfl, _⟩
    · omega
    · exact Int.le_refl 0
  · obtain ⟨top, found⟩ : ∃ top, (design.heights block).max? = some top := by
      apply Option.isSome_iff_exists.mp
      simpa [List.isSome_max?_iff] using List.ne_nil_of_mem member
    rw [blockHeight, found]
    exact (List.max?_eq_some_iff.mp found).2 height member

theorem blockHeight_nonneg (lines : design.metrics.PositiveLines) (block : Block) :
    0 ≤ design.blockHeight block := by
  cases empty : design.heights block with
  | nil => rw [blockHeight, empty]; exact Int.le_refl 0
  | cons height rest =>
    have bounds := height_bounds lines (empty ▸ List.mem_cons_self : height ∈ design.heights block)
    omega

/-- The heights of a block whose own height is a coordinate are kept as they are. -/
theorem map_height_eq (lines : design.metrics.PositiveLines) {block : Block}
    (high : design.blockHeight block ≤ Coordinate.greatest) {showRepeats : Bool} {y : Int}
    {cells : List Cell} (made : design.cells block showRepeats y = .ok cells) :
    cells.map (fun cell => cell.bounds.height) = design.heights block := by
  rw [map_height_cells made]
  refine (List.map_congr_left fun height member => ?_).trans (List.map_id _)
  obtain ⟨nonneg, below⟩ := height_bounds lines member
  exact Coordinate.wrap_of_nonneg nonneg (below.trans high)

/-- The batch of such a block is as high as the block. -/
theorem batchHeight_cells (lines : design.metrics.PositiveLines) {block : Block}
    (high : design.blockHeight block ≤ Coordinate.greatest) {showRepeats : Bool} {y : Int}
    {cells : List Cell} (made : design.cells block showRepeats y = .ok cells) :
    batchHeight cells = design.blockHeight block := by
  rw [batchHeight, map_height_eq lines high made, blockHeight]

/-- Every cell of such a block has a height, except that of a section without a name, which has no size
at all. -/
theorem one_le_height_or_empty (lines : design.metrics.PositiveLines) {block : Block}
    (high : design.blockHeight block ≤ Coordinate.greatest) {showRepeats : Bool} {y : Int}
    {cells : List Cell} (made : design.cells block showRepeats y = .ok cells) {cell : Cell}
    (member : cell ∈ cells) :
    1 ≤ cell.bounds.height ∨
      ∃ key, block = .sectionHeader key ∧ cell.bounds = ⟨0, y, 0, 0⟩ := by
  have known : cell.bounds.height ∈ design.heights block :=
    map_height_eq lines high made ▸ List.mem_map_of_mem member
  rcases one_le_or_eq_zero lines known with tall | ⟨_, key, rfl, blank⟩
  · exact .inl tall
  · cases made
    obtain rfl := List.mem_singleton.mp member
    refine .inr ⟨key, rfl, ?_⟩
    simp only [sectionHeader, blank]
    rfl

end Design

end PagedReport
