import PagedReport.Proofs.Geometry
import PagedReport.Proofs.Paint.StyledText

/-! # Painted rows of a table

The columns that are shown stand side by side. Parts of a character that are cut off at the left and in
the width of a column never let it reach into the next one, so no two cells of a row have a position in
common. Nothing but a section header without a size stands at the height of a row: a row that is painted
at all is one line of text between its rules.
-/

namespace PagedReport

section Columns

variable {columns : List Column}

theorem shownWidth_append (first second : List Column) :
    shownWidth (first ++ second) = shownWidth first + shownWidth second := by
  induction first with
  | nil => simp [shownWidth]
  | cons column rest ih =>
    rw [List.cons_append, shownWidth, shownWidth, List.filter_cons, List.filter_cons]
    split
    · simp only [List.map_cons, List.foldr_cons, Int.add_assoc]
      exact congrArg _ ih
    · exact ih

theorem shownWidth_singleton (column : Column) :
    shownWidth [column] = if column.isVisible then column.width else 0 := by
  cases shown : column.isVisible <;> simp [shownWidth, shown]

theorem shownWidth_nonneg (widths : ∀ column ∈ columns, 0 ≤ column.width) : 0 ≤ shownWidth columns := by
  induction columns with
  | nil => exact Int.le_refl 0
  | cons column rest ih =>
    obtain ⟨first, others⟩ := List.forall_mem_cons.mp widths
    rw [shownWidth, List.filter_cons]
    split
    · exact Int.add_nonneg first (ih others)
    · exact ih others

theorem shownWidth_take_nonneg (widths : ∀ column ∈ columns, 0 ≤ column.width) (index : Nat) :
    0 ≤ shownWidth (columns.take index) :=
  shownWidth_nonneg fun column member => widths column (List.mem_of_mem_take member)

/-- The place of a column ends before that of every later one. -/
theorem shownWidth_take_add_width_le (widths : ∀ column ∈ columns, 0 ≤ column.width) {column : Column}
    {index : Nat} (here : columns[index]? = some column) (shown : column.isVisible = true)
    {later : Nat} (behind : index < later) :
    shownWidth (columns.take index) + column.width ≤ shownWidth (columns.take later) := by
  obtain ⟨count, rfl⟩ := Nat.exists_eq_add_of_lt behind
  obtain ⟨bound, rfl⟩ := List.getElem?_eq_some_iff.mp here
  have between : columns.drop index = columns[index] :: columns.drop (index + 1) :=
    List.drop_eq_getElem_cons bound
  have rest : 0 ≤ shownWidth ((columns.drop (index + 1)).take count) :=
    shownWidth_nonneg fun column member =>
      widths column (List.mem_of_mem_drop (List.mem_of_mem_take member))
  have place : shownWidth [columns[index]] = columns[index].width := by
    rw [shownWidth_singleton, if_pos shown]
  rw [Nat.add_assoc, List.take_add, shownWidth_append, between, List.take_succ_cons,
    ← List.singleton_append, shownWidth_append, place]
  omega

/-- Whether the widths before any column that is shown add up to no more than the greatest coordinate. -/
def OffsetsInRange (columns : List Column) : Prop :=
  ∀ place ∈ visibleColumns columns, shownWidth (columns.take place.2) ≤ Coordinate.greatest

instance (columns : List Column) : Decidable (OffsetsInRange columns) :=
  inferInstanceAs (Decidable (∀ _ ∈ _, _))

theorem OffsetsInRange.xOffset_eq (range : OffsetsInRange columns)
    (widths : ∀ column ∈ columns, 0 ≤ column.width) {place : Column × Nat}
    (member : place ∈ visibleColumns columns) :
    xOffset columns place.2 = shownWidth (columns.take place.2) :=
  Coordinate.wrap_of_nonneg (shownWidth_take_nonneg widths place.2) (range place member)

/-- The positions that a column covers. -/
def columnSpan (columns : List Column) (charWidth : Int) (place : Column × Nat) : Span :=
  let start := ((xOffset columns place.2).tdiv charWidth).toNat
  ⟨start, start + (place.1.width.tdiv charWidth).toNat⟩

/-- Two lengths that fit into a third one also do so in whole units. -/
theorem tdiv_add_tdiv_le {a b c : Int} (left : 0 ≤ a) (right : 0 ≤ b) (fits : a + b ≤ c) {unit : Int}
    (positive : 1 ≤ unit) : a.tdiv unit + b.tdiv unit ≤ c.tdiv unit := by
  rw [Int.tdiv_eq_ediv_of_nonneg left, Int.tdiv_eq_ediv_of_nonneg right,
    Int.tdiv_eq_ediv_of_nonneg ((Int.add_nonneg left right).trans fits)]
  have first := Int.ediv_mul_le a (show unit ≠ 0 by omega)
  have second := Int.ediv_mul_le b (show unit ≠ 0 by omega)
  apply Int.le_ediv_of_mul_le (by omega)
  rw [Int.add_mul]
  omega

/-- The columns that are shown cover their positions from the left to the right. -/
theorem pairwise_columnSpan (widths : ∀ column ∈ columns, 0 ≤ column.width)
    (range : OffsetsInRange columns) {charWidth : Int} (unit : 1 ≤ charWidth) :
    ((visibleColumns columns).map (columnSpan columns charWidth)).Pairwise fun left right =>
      left.stop ≤ right.start := by
  have ordered : columns.zipIdx.Pairwise fun left right => left.2 < right.2 := by
    rw [← List.pairwise_map, List.zipIdx_map_snd]
    exact List.pairwise_lt_range'
  rw [List.pairwise_map]
  refine (ordered.filter _).imp_of_mem fun {left right} known known' behind => ?_
  obtain ⟨member, shown⟩ := List.mem_filter.mp known
  have here : columns[left.2]? = some left.1 := List.mem_zipIdx_iff_getElem?.mp member
  have start := shownWidth_take_nonneg widths left.2
  have width := widths left.1 (List.mem_of_getElem? here)
  have apart :=
    tdiv_add_tdiv_le start width (shownWidth_take_add_width_le widths here shown behind) unit
  -- None of the quotients is negative, so nothing is lost when they become natural numbers.
  have start' := Int.tdiv_nonneg start (Int.le_trans (by decide) unit)
  have width' := Int.tdiv_nonneg width (Int.le_trans (by decide) unit)
  simp only [columnSpan, range.xOffset_eq widths known, range.xOffset_eq widths known']
  omega

end Columns

/-- Whether the cells of a block stand in the columns of the table, one in each. -/
def Block.isTableRow : Block → Bool
  | columnHeader => true
  | dataRow .. => true
  | _ => false

namespace Design

variable {design : Design}

theorem bounds_dataCell {column : Column} {index : Nat} {row : Row} {previous : Option Row} {y : Int}
    {showRepeats : Bool} {cell : Cell}
    (made : design.dataCell column index row previous y showRepeats = .ok cell) :
    ∃ height, cell.bounds = design.columnRect column index y height := by
  obtain ⟨shown, _, same⟩ := bind_eq_ok_iff.mp made
  cases same
  exact ⟨_, rfl⟩

theorem span_of_bounds {cell : Cell} {place : Column × Nat} {y height : Int}
    (bounds : cell.bounds = design.columnRect place.1 place.2 y height) (charWidth : Int) :
    cell.span charWidth = columnSpan design.columns charWidth place := by
  rw [Cell.span, bounds]
  rfl

/-- Each cell of a row covers the positions of its column. -/
theorem map_span_cells {block : Block} (row : block.isTableRow = true) {showRepeats : Bool} {y : Int}
    {cells : List Cell} (made : design.cells block showRepeats y = .ok cells) (charWidth : Int) :
    cells.map (fun cell => cell.span charWidth) =
      (visibleColumns design.columns).map (columnSpan design.columns charWidth) := by
  cases block with
  | columnHeader =>
    cases made
    rw [columnHeader, List.map_map]
    exact List.map_congr_left fun place _ => span_of_bounds rfl charWidth
  | dataRow row previous =>
    have each := mapM_eq_ok_iff.mp made
    rw [← List.forall₂_eq_eq_eq, List.forall₂_map_left_iff, List.forall₂_map_right_iff]
    refine each.flip.imp fun cell place found => ?_
    obtain ⟨height, bounds⟩ := bounds_dataCell found
    exact span_of_bounds bounds charWidth
  | sectionHeader key => cases row
  | groupTotals line => cases row
  | sectionTotals line => cases row
  | grandTotals line => cases row

end Design

/-- Batches with no painted cell at a height leave none there. -/
private theorem painted_eq_nil {sheet : Sheet} {y charWidth : Int}
    (absent : ∀ batch ∈ sheet, ∀ cell ∈ batch.cells, cell.bounds.y = y →
      cell.coversAny charWidth = false) :
    (sheet.cells.filter fun cell => cell.bounds.y = y).filter (Cell.coversAny charWidth) = [] := by
  rw [List.filter_filter, List.filter_eq_nil_iff]
  intro cell inside
  obtain ⟨batch, known, part⟩ := List.mem_flatMap.mp inside
  rw [Bool.and_eq_true, decide_eq_true_eq]
  rintro ⟨covers, here⟩
  rw [absent batch known cell part here] at covers
  cases covers

namespace Sheet.Stacked

variable {design : Design} {sheet : Sheet} {batch : Batch}

/-- What is painted at the height of a row is the row: a section header that stands there too has no
size. -/
theorem painted_eq_of_row (stacked : Sheet.Stacked design sheet) (lines : design.metrics.PositiveLines)
    (range : ∀ batch ∈ sheet, batch.InRange design) (member : batch ∈ sheet)
    (row : batch.block.isTableRow = true) (occupied : batch.cells ≠ []) (charWidth : Int) :
    (sheet.cells.filter fun cell => cell.bounds.y = batch.top).filter (Cell.coversAny charWidth) =
      batch.cells.filter (Cell.coversAny charWidth) := by
  have alone := stacked.empty_of_top_eq lines range
  have level (other : Batch) (known : other ∈ sheet) (cell : Cell) (part : cell ∈ other.cells) :
      cell.bounds.y = other.top :=
    (stacked.whole other known).level part
  have whole : (batch.cells.filter fun cell => cell.bounds.y = batch.top) = batch.cells :=
    List.filter_eq_self.mpr fun cell part => decide_eq_true (level batch member cell part)
  obtain ⟨before, after, rfl⟩ := List.append_of_mem member
  obtain ⟨_, later, earlier⟩ := List.pairwise_append.mp alone
  have above : ∀ other ∈ before, ∀ cell ∈ other.cells, cell.bounds.y = batch.top →
      cell.coversAny charWidth = false := by
    intro other known cell part here
    have same := (level other (List.mem_append_left _ known) cell part).symm.trans here
    obtain ⟨key, _, empty⟩ :=
      earlier other known batch List.mem_cons_self (List.ne_nil_of_mem part) same
    apply Cell.coversAny_of_width_eq_zero
    rw [empty cell part]
  have below : ∀ other ∈ after, ∀ cell ∈ other.cells, cell.bounds.y = batch.top →
      cell.coversAny charWidth = false := by
    intro other known cell part here
    have same := here.symm.trans (level other (by simp [known]) cell part)
    -- The row itself would have to be such a header.
    obtain ⟨key, header, _⟩ := (List.pairwise_cons.mp later).1 other known occupied same
    rw [header] at row
    cases row
  have divided : Sheet.cells (before ++ batch :: after) =
      Sheet.cells before ++ (batch.cells ++ Sheet.cells after) := by
    rw [Sheet.cells, List.flatMap_append, List.flatMap_cons]
    rfl
  rw [divided, List.filter_append, List.filter_append, List.filter_append, List.filter_append, whole,
    painted_eq_nil above, painted_eq_nil below, List.nil_append, List.append_nil]

/-- A row whose cells stand one after the other is painted as one line of text between its rules. -/
theorem exists_line_of_row (stacked : Sheet.Stacked design sheet) (lines : design.metrics.PositiveLines)
    (range : ∀ batch ∈ sheet, batch.InRange design) (member : batch ∈ sheet)
    (row : batch.block.isTableRow = true) {charWidth : Int}
    (ordered : batch.cells.Pairwise fun left right =>
      (left.span charWidth).stop ≤ (right.span charWidth).start)
    (seen : batch.cells.any (Cell.coversAny charWidth) = true) :
    ∃ band ∈ Band.ofPage sheet.cells, band.y = batch.top ∧
      band.cells.filter (Cell.coversAny charWidth) = batch.cells.filter (Cell.coversAny charWidth) ∧
      ∃ painted, textLines charWidth band.cells = [painted] ∧
        painted.Shows charWidth (batch.cells.filter (Cell.coversAny charWidth)) ∧
        band.lines charWidth =
          Band.visibleRule (ruleLine charWidth .top batch.cells) ++ [painted.line] ++
            Band.visibleRule (ruleLine charWidth .bottom batch.cells) := by
  obtain ⟨cell, part, covers⟩ := List.any_eq_true.mp seen
  have covering : cell ∈ batch.cells.filter (Cell.coversAny charWidth) :=
    List.mem_filter.mpr ⟨part, covers⟩
  let band : Band := ⟨batch.top, sheet.cells.filter fun cell => cell.bounds.y = batch.top⟩
  have same : band.cells.filter (Cell.coversAny charWidth) =
      batch.cells.filter (Cell.coversAny charWidth) :=
    stacked.painted_eq_of_row lines range member row (List.ne_nil_of_mem part) charWidth
  have inBand : cell ∈ band.cells := List.mem_of_mem_filter (same ▸ covering)
  have apart : (band.cells.filter (Cell.coversAny charWidth)).Pairwise fun cell next =>
      (cell.span charWidth).isApart (next.span charWidth) = true := by
    rw [same]
    refine (ordered.filter _).imp fun before => ?_
    rw [Span.isApart, Bool.or_eq_true, decide_eq_true_eq]
    exact .inl before
  obtain ⟨painted, line, shows⟩ := (textLines_of_pairwise_apart apart).resolve_left fun none =>
    List.ne_nil_of_mem covering (same.symm.trans none.2)
  refine ⟨band, Band.mem_ofPage_iff.mpr ⟨rfl, List.ne_nil_of_mem inBand⟩, rfl, same, painted, line,
    same ▸ shows, ?_⟩
  -- The rules of the band are those of its painted cells, and these are the row's.
  rw [Band.lines_eq, if_pos (List.any_eq_true.mpr ⟨cell, inBand, covers⟩), line,
    ← ruleLine_filter _ _ band.cells, ← ruleLine_filter _ _ band.cells, same, ruleLine_filter,
    ruleLine_filter]
  rfl

end Sheet.Stacked

/-- Three columns that are wider than the range of coordinates together. -/
def wideColumns : List Column :=
  [.plain "A" 2147000000, .plain "B" 1000000000, .plain "C" 1000000000]

/-- A row of such columns, with as many units to a character as two of them have. -/
def wideDesign : Design where
  columns := wideColumns
  options := {}
  metrics := FixedPitch.metrics ⟨1000000000, 12⟩

/-- One value for each of them. -/
def wideSet : ResultSet where
  columns := ["A", "B", "C"]
  rows := [[.text "x", .text "y", .text "z"]]
  rectangular := by decide

end PagedReport
