import PagedReport.Proofs.Skeleton

/-! # What texts decide on

Nothing on a page but texts depends on the formats of columns and on the values that are only shown.
Two reports with one skeleton that are both laid out have the same pages, batch by batch and cell by
cell, except for the texts of data cells and of totals: headers and the labels of totals stay as they
are.
-/

namespace PagedReport

/-- The cell with an empty text. -/
def Cell.withoutText (cell : Cell) : Cell := { cell with text := "" }

/-- The cells of a block without the texts of values: those of data rows lose all texts, those of
totals all but the label, and those of headers none. -/
def Block.withoutValues : Block → List Cell → List Cell
  | sectionHeader _, cells => cells
  | columnHeader, cells => cells
  | dataRow _ _, cells => cells.map Cell.withoutText
  | groupTotals _, cells => cells.take 1 ++ (cells.drop 1).map Cell.withoutText
  | sectionTotals _, cells => cells.take 1 ++ (cells.drop 1).map Cell.withoutText
  | grandTotals _, cells => cells.take 1 ++ (cells.drop 1).map Cell.withoutText

/-- A batch without the texts of values and without what only decides on them. -/
def Batch.skeleton (columns : List Column) (batch : Batch) : Batch :=
  { batch with
    block := batch.block.skeleton columns
    cells := batch.block.withoutValues batch.cells }

section Cells

variable {design : Design}

@[simp] theorem isDataRow_skeleton (columns : List Column) (block : Block) :
    (block.skeleton columns).isDataRow = block.isDataRow := by
  cases block <;> rfl

@[simp] theorem gap_skeleton (columns : List Column) (block : Block) :
    (block.skeleton columns).gap = block.gap := by
  cases block <;> rfl

@[simp] theorem withoutValues_skeleton (columns : List Column) (block : Block) :
    (block.skeleton columns).withoutValues = block.withoutValues := by
  cases block <;> rfl

/-- What does not depend on texts is the same for cells without texts of values. -/
theorem map_withoutValues {α : Type} (f : Cell → α) (blind : ∀ cell, f cell.withoutText = f cell)
    (block : Block) (cells : List Cell) : (block.withoutValues cells).map f = cells.map f := by
  have all (cells : List Cell) : (cells.map Cell.withoutText).map f = cells.map f := by
    rw [List.map_map]
    exact List.map_congr_left fun cell _ => blind cell
  have labelled : (cells.take 1 ++ (cells.drop 1).map Cell.withoutText).map f = cells.map f := by
    rw [List.map_append, all, ← List.map_append, List.take_append_drop]
  cases block with
  | sectionHeader key => rfl
  | columnHeader => rfl
  | dataRow row previous => exact all cells
  | groupTotals line => exact labelled
  | sectionTotals line => exact labelled
  | grandTotals line => exact labelled

@[simp] theorem batchHeight_withoutValues (block : Block) (cells : List Cell) :
    batchHeight (block.withoutValues cells) = batchHeight cells := by
  rw [batchHeight, map_withoutValues _ (fun _ => rfl), batchHeight]

@[simp] theorem withoutValues_eq_nil {block : Block} {cells : List Cell} :
    block.withoutValues cells = [] ↔ cells = [] := by
  rw [← List.map_eq_nil_iff (f := fun _ => ()), map_withoutValues _ fun _ => rfl, List.map_eq_nil_iff]

theorem withoutValues_atHeight (block : Block) (y : Int) (cells : List Cell) :
    block.withoutValues (atHeight y cells) = atHeight y (block.withoutValues cells) := by
  cases block <;>
    simp [Block.withoutValues, atHeight, Cell.withoutText, Cell.atY, Function.comp_def]

@[simp] theorem sectionHeader_unformatted (key : SectionKey) (y : Int) :
    design.unformatted.sectionHeader key y = design.sectionHeader key y := by
  simp only [Design.sectionHeader, Design.columns_unformatted, headerText_unformatted,
    visibleWidth_unformatted]
  rfl

@[simp] theorem columnRect_unformatted (column : Column) (index : Nat) (y height : Int) :
    design.unformatted.columnRect column.unformatted index y height =
      design.columnRect column index y height := by
  rw [Design.columnRect, Design.columns_unformatted, xOffset_unformatted]
  rfl

@[simp] theorem columnHeader_unformatted (y : Int) :
    design.unformatted.columnHeader y = design.columnHeader y := by
  rw [Design.columnHeader, Design.columns_unformatted, visibleColumns_unformatted, List.map_map]
  refine List.map_congr_left fun place _ => ?_
  simp only [Function.comp_apply, Prod.map, Design.headerCell, columnRect_unformatted]
  rfl

theorem dataBorders_unformatted (index : Nat) :
    design.unformatted.dataBorders index = design.dataBorders index := by
  have shown : design.unformatted.shownIndexes = design.shownIndexes := by
    rw [Design.shownIndexes, Design.columns_unformatted, visibleColumns_unformatted, List.map_map]
    rfl
  rw [Design.dataBorders, shown]
  rfl

/-- Whether a group value is repeated does not depend on values that are only shown. -/
theorem isRepeated_skeleton {columns : List Column} {column : Column} {index : Nat}
    (found : columns[index]? = some column) (row : Row) (previous : Option Row) :
    Design.isRepeated column.unformatted index (Row.skeleton columns row)
        (previous.map (Row.skeleton columns)) =
      Design.isRepeated column index row previous := by
  cases group : column.isGroup with
  | false =>
    have group' : column.unformatted.isGroup = false := group
    simp only [Design.isRepeated, group, group', Bool.false_and]
  | true =>
    have used := Column.isShownOnly_of_isGroup group
    cases previous with
    | none => rfl
    | some earlier =>
      exact congrArg (column.isGroup && ·) (sameValue_skeleton found used earlier row)

private theorem exists_dataCell {place : Column × Nat} (visible : place ∈ visibleColumns design.columns)
    {row : Row} {previous : Option Row} {y : Int} {showRepeats : Bool} {cell : Cell}
    (made : design.dataCell place.1 place.2 row previous y showRepeats = .ok cell) :
    ∃ bare, design.unformatted.dataCell place.1.unformatted place.2
        (Row.skeleton design.columns row) (previous.map (Row.skeleton design.columns)) y showRepeats =
        .ok bare ∧ bare.withoutText = cell.withoutText := by
  have found := List.mem_zipIdx_iff_getElem?.mp (List.mem_filter.mp visible).1
  obtain ⟨shown, _, same⟩ := bind_eq_ok_iff.mp made
  cases same
  refine ⟨_, rfl, ?_⟩
  simp only [Cell.withoutText, isRepeated_skeleton found, columnRect_unformatted,
    dataBorders_unformatted]
  rfl

private theorem exists_totalCell {line : TotalsLine} {grand : Bool} {y : Int} {column : Column}
    {index : Nat} {cell : Option Cell}
    (made : design.totalCell line grand y column index = .ok cell) :
    ∃ bare, design.unformatted.totalCell line grand y column.unformatted index = .ok bare ∧
      bare.map Cell.withoutText = cell.map Cell.withoutText := by
  unfold Design.totalCell at made ⊢
  cases held : line.sums.sum? index with
  | none =>
    rw [held] at made
    cases made
    exact ⟨none, rfl, rfl⟩
  | some total =>
    rw [held] at made
    obtain ⟨text, _, same⟩ := bind_eq_ok_iff.mp made
    cases same
    refine ⟨_, rfl, ?_⟩
    simp only [Option.map_some, Cell.withoutText, columnRect_unformatted]
    rfl

/-- If each of a list of computations has a counterpart, so has the list of their results. -/
theorem exists_mapM {ε ι α β γ : Type} {f : ι → Except ε α} {g : ι → Except ε β} {p : α → γ}
    {q : β → γ} {items : List ι} {results : List α} (run : items.mapM f = .ok results)
    (each : ∀ item ∈ items, ∀ a, f item = .ok a → ∃ b, g item = .ok b ∧ q b = p a) :
    ∃ others, items.mapM g = .ok others ∧ others.map q = results.map p := by
  induction items generalizing results with
  | nil =>
    cases run
    exact ⟨[], rfl, rfl⟩
  | cons item rest ih =>
    obtain ⟨a, as, first, others, rfl⟩ := List.forall₂_cons_left_iff.mp (mapM_eq_ok_iff.mp run)
    obtain ⟨b, here, same⟩ := each item List.mem_cons_self a first
    obtain ⟨bs, there, alike⟩ := ih (mapM_eq_ok_iff.mpr others) fun other member =>
      each other (List.mem_cons_of_mem _ member)
    refine ⟨b :: bs, ?_, by rw [List.map_cons, List.map_cons, same, alike]⟩
    rw [List.mapM_cons, here, ok_bind, there]
    rfl

private theorem exists_dataRow {row : Row} {previous : Option Row} {y : Int} {showRepeats : Bool}
    {cells : List Cell} (made : design.dataRow row previous y showRepeats = .ok cells) :
    ∃ bare, design.unformatted.dataRow (Row.skeleton design.columns row)
        (previous.map (Row.skeleton design.columns)) y showRepeats = .ok bare ∧
      bare.map Cell.withoutText = cells.map Cell.withoutText := by
  rw [Design.dataRow, Design.columns_unformatted, visibleColumns_unformatted, List.mapM_map]
  exact exists_mapM made fun place visible cell made => exists_dataCell visible made

private theorem exists_totals {line : TotalsLine} {grand : Bool} {y : Int} {cells : List Cell}
    (made : design.totals line grand y = .ok cells) :
    ∃ bare, design.unformatted.totals line grand y = .ok bare ∧
      bare.take 1 ++ (bare.drop 1).map Cell.withoutText =
        cells.take 1 ++ (cells.drop 1).map Cell.withoutText := by
  unfold Design.totals at made ⊢
  split at made
  · next held =>
    obtain ⟨found, run, same⟩ := bind_eq_ok_iff.mp made
    cases same
    obtain ⟨others, again, alike⟩ := exists_mapM (q := Option.map Cell.withoutText)
      (g := fun place => design.unformatted.totalCell line grand y place.1.unformatted place.2) run
      fun place _ cell made => exists_totalCell made
    have label : design.unformatted.totalsLabel line grand y = design.totalsLabel line grand y := by
      simp only [Design.totalsLabel, Design.columns_unformatted, xOffset_unformatted]
      rfl
    have bare (cells : List (Option Cell)) : (cells.filterMap id).map Cell.withoutText =
        (cells.map (Option.map Cell.withoutText)).filterMap id := by
      rw [List.map_filterMap, List.filterMap_map]
      rfl
    refine ⟨design.totalsLabel line grand y :: others.filterMap id, ?_, ?_⟩
    · rw [if_pos held, Design.columns_unformatted, visibleColumns_unformatted, List.mapM_map, label]
      exact congrArg (· >>= fun cells => pure (design.totalsLabel line grand y :: cells.filterMap id))
        again
    · simp only [List.take_succ_cons, List.take_zero, List.drop_succ_cons, List.drop_zero, bare, alike]
  · next none =>
    cases made
    exact ⟨[], if_neg none, rfl⟩

/-- The cells of a block have those of its skeleton for a counterpart. -/
theorem exists_cells_skeleton {block : Block} {showRepeats : Bool} {y : Int} {cells : List Cell}
    (made : design.cells block showRepeats y = .ok cells) :
    ∃ bare, design.unformatted.cells (block.skeleton design.columns) showRepeats y = .ok bare ∧
      block.withoutValues bare = block.withoutValues cells := by
  cases block with
  | sectionHeader key =>
    refine ⟨cells, ?_, rfl⟩
    rw [← made]
    exact congrArg (fun cell => Except.ok [cell]) (sectionHeader_unformatted key y)
  | columnHeader =>
    refine ⟨cells, ?_, rfl⟩
    rw [← made]
    exact congrArg Except.ok (columnHeader_unformatted y)
  | dataRow row previous => exact exists_dataRow made
  | groupTotals line => exact exists_totals made
  | sectionTotals line => exact exists_totals made
  | grandTotals line => exact exists_totals made

theorem options_eq_of_unformatted_eq {design other : Design}
    (same : design.unformatted = other.unformatted) : design.options = other.options := by
  have options := congrArg Design.options same
  exact options

/-- Blocks with one skeleton have the same cells, except for the texts of values. -/
theorem withoutValues_eq {design other : Design} (same : design.unformatted = other.unformatted)
    {block block' : Block} (alike : block.skeleton design.columns = block'.skeleton other.columns)
    {showRepeats : Bool} {y : Int} {cells cells' : List Cell}
    (made : design.cells block showRepeats y = .ok cells)
    (made' : other.cells block' showRepeats y = .ok cells') :
    block.withoutValues cells = block'.withoutValues cells' := by
  obtain ⟨bare, found, blind⟩ := exists_cells_skeleton made
  obtain ⟨bare', found', blind'⟩ := exists_cells_skeleton made'
  rw [same, alike, found'] at found
  cases found
  rw [← blind, ← blind', ← withoutValues_skeleton design.columns block, alike, withoutValues_skeleton]

end Cells

namespace Press

variable {design other : Design} {press press' printed printed' : Press}

/-- The batches on all sheets without the texts of values. -/
def skeleton (columns : List Column) (press : Press) : Press :=
  { press with
    closed := press.closed.map (List.map (Batch.skeleton columns))
    last := press.last.map (Batch.skeleton columns) }

theorem sheets_skeleton (columns : List Column) (press : Press) :
    (press.skeleton columns).sheets = press.sheets.map (List.map (Batch.skeleton columns)) := by
  simp [sheets, skeleton]

theorem newSheet_skeleton (columns : List Column) (press : Press) :
    press.newSheet.skeleton columns = (press.skeleton columns).newSheet := by
  simp [newSheet, skeleton, sheets]

theorem note_skeleton (columns : List Column) (press : Press) (block : Block) :
    (press.note block).skeleton columns = (press.skeleton columns).note (block.skeleton columns) := by
  cases block <;> rfl

theorem needsBreak_skeleton (columns : List Column) (press : Press) (height : Int) :
    (press.skeleton columns).paginator.needsBreak height = press.paginator.needsBreak height := rfl

theorem stack_skeleton (columns : List Column) (press : Press) (block : Block)
    (placement : Placement) (cells : List Cell) :
    (press.stack block placement cells).skeleton columns =
      (press.skeleton columns).stack (block.skeleton columns) placement
        (block.withoutValues cells) := by
  simp only [stack, skeleton, List.map_append, List.map_cons, List.map_nil, Batch.skeleton,
    withoutValues_atHeight, batchHeight_withoutValues]

/-- Where a batch is put does not depend on the texts of values. -/
theorem put_skeleton (columns : List Column) (press : Press) (block : Block) (placement : Placement)
    (cells : List Cell) :
    (press.put block placement cells).skeleton columns =
      (press.skeleton columns).put (block.skeleton columns) placement
        (block.withoutValues cells) := by
  simp only [put, batchHeight_withoutValues, needsBreak_skeleton, ne_eq, withoutValues_eq_nil]
  split
  · rw [stack_skeleton, newSheet_skeleton]
  · rw [stack_skeleton]

/-- Repeated headers are the same without formats and values. -/
theorem repeatHeaders_skeleton (design : Design) (press : Press) :
    (press.repeatHeaders design).skeleton design.columns =
      (press.skeleton design.columns).repeatHeaders design.unformatted := by
  have heading : (press.skeleton design.columns).heading = press.heading := rfl
  have options : design.unformatted.options = design.options := rfl
  simp only [repeatHeaders, heading, options, sectionHeader_unformatted, columnHeader_unformatted]
  cases press.heading with
  | none => rfl
  | some key =>
    have header (press : Press) :=
      put_skeleton design.columns press (.sectionHeader key) .copy [design.sectionHeader key press.y]
    have columns (press : Press) :=
      put_skeleton design.columns press .columnHeader .copy (design.columnHeader press.y)
    have named : (if design.options.repeatSectionHeader then
          press.put (.sectionHeader key) .copy [design.sectionHeader key press.y]
        else press).skeleton design.columns =
        if design.options.repeatSectionHeader then
          (press.skeleton design.columns).put (.sectionHeader key) .copy
            [design.sectionHeader key (press.skeleton design.columns).y]
        else press.skeleton design.columns := by
      split
      · exact header press
      · rfl
    dsimp only
    rw [← named]
    split
    · exact columns _
    · rfl

private theorem y_eq_of_skeleton_eq {columns others : List Column}
    (alike : press.skeleton columns = press'.skeleton others) : press.y = press'.y := by
  have y := congrArg Press.y alike
  exact y

/-- What is put down for two blocks with one skeleton has one skeleton. -/
private theorem put_eq (same : design.unformatted = other.unformatted)
    (alike : press.skeleton design.columns = press'.skeleton other.columns) {block block' : Block}
    (blocks : block.skeleton design.columns = block'.skeleton other.columns) {showRepeats : Bool}
    {cells cells' : List Cell} (made : design.cells block showRepeats press.y = .ok cells)
    (made' : other.cells block' showRepeats press'.y = .ok cells') (placement : Placement) :
    (press.put block placement cells).skeleton design.columns =
      (press'.put block' placement cells').skeleton other.columns := by
  have y : press.y = press'.y := y_eq_of_skeleton_eq alike
  rw [put_skeleton, put_skeleton, alike, blocks, withoutValues_eq same blocks (y ▸ made) made']

/-- Blocks with one skeleton are printed with one skeleton. -/
theorem print_skeleton (same : design.unformatted = other.unformatted)
    (alike : press.skeleton design.columns = press'.skeleton other.columns) {block block' : Block}
    (blocks : block.skeleton design.columns = block'.skeleton other.columns)
    (run : press.print design block = .ok printed) (run' : press'.print other block' = .ok printed') :
    printed.skeleton design.columns = printed'.skeleton other.columns := by
  have y : press.y = press'.y := y_eq_of_skeleton_eq alike
  have options : design.options = other.options := options_eq_of_unformatted_eq same
  have isRow : block.isDataRow = block'.isDataRow := by
    rw [← isDataRow_skeleton design.columns, blocks, isDataRow_skeleton]
  obtain ⟨cells, made, placed⟩ := bind_eq_ok_iff.mp run
  obtain ⟨cells', made', placed'⟩ := bind_eq_ok_iff.mp run'
  rw [← options] at made'
  have height : batchHeight cells = batchHeight cells' := by
    rw [← batchHeight_withoutValues block, withoutValues_eq same blocks (y ▸ made) made',
      batchHeight_withoutValues]
  have full : press.paginator.needsBreak (batchHeight cells) =
      press'.paginator.needsBreak (batchHeight cells') := by
    rw [height, ← needsBreak_skeleton design.columns, alike, needsBreak_skeleton]
  rw [isRow, full] at placed
  split at placed
  · next opens =>
    rw [if_pos opens] at placed'
    obtain ⟨cells, made, put⟩ := bind_eq_ok_iff.mp placed
    cases put
    obtain ⟨cells', made', put⟩ := bind_eq_ok_iff.mp placed'
    cases put
    refine put_eq same ?_ blocks made made' .overflow
    rw [repeatHeaders_skeleton, newSheet_skeleton, alike, repeatHeaders_skeleton, newSheet_skeleton,
      same]
  · next stays =>
    rw [if_neg stays] at placed'
    cases placed
    cases placed'
    have gap : block.gap = block'.gap := by
      rw [← gap_skeleton design.columns, blocks, gap_skeleton]
    have put := put_eq same alike blocks made made' .flow
    rw [note_skeleton, note_skeleton, blocks, gap]
    exact congrArg (fun press => (press.skip block'.gap).note (block'.skeleton other.columns)) put

/-- Lists of blocks with one skeleton are printed with one skeleton. -/
theorem printAll_skeleton (same : design.unformatted = other.unformatted)
    (alike : press.skeleton design.columns = press'.skeleton other.columns)
    {blocks blocks' : List Block}
    (paired : blocks.map (Block.skeleton design.columns) = blocks'.map (Block.skeleton other.columns))
    (run : press.printAll design (blocks.map .ok) = .ok printed)
    (run' : press'.printAll other (blocks'.map .ok) = .ok printed') :
    printed.skeleton design.columns = printed'.skeleton other.columns := by
  induction blocks generalizing press press' blocks' with
  | nil =>
    obtain rfl := List.map_eq_nil_iff.mp paired.symm
    cases run
    cases run'
    exact alike
  | cons block rest ih =>
    rw [List.map_cons] at paired
    obtain ⟨block', rest', rfl, here, there⟩ := List.map_eq_cons_iff.mp paired.symm
    rw [List.map_cons, printAll_ok_cons] at run run'
    obtain ⟨next, first, others⟩ := bind_eq_ok_iff.mp run
    obtain ⟨next', first', others'⟩ := bind_eq_ok_iff.mp run'
    exact ih (print_skeleton same alike here.symm first first') there.symm others others'

end Press

/-- The cells of a sheet and those of its skeleton differ in texts alone. -/
theorem Sheet.map_withoutText_skeleton (columns : List Column) (sheet : Sheet) :
    (Sheet.cells (sheet.map (Batch.skeleton columns))).map Cell.withoutText =
      sheet.cells.map Cell.withoutText := by
  rw [Sheet.cells, List.flatMap_map, List.map_flatMap, Sheet.cells, List.map_flatMap]
  exact List.flatMap_congr fun batch _ => map_withoutValues _ (fun _ => rfl) batch.block batch.cells

/-- Two layouts that differ in formats and in values that are only shown give the same pages but for
the texts of cells. Batch by batch only the texts of values differ: headers and the labels of totals
are the same, and so are the sums that the totals show. -/
theorem layOut_skeleton {design other : Design} {cursor otherCursor : Cursor} {pages others : List Page}
    (same : design.unformatted = other.unformatted)
    (rows : cursor.set.rows.map (Row.skeleton design.columns) =
      otherCursor.set.rows.map (Row.skeleton other.columns))
    (success : (Report.new cursor design).layOut.1 = .ok pages)
    (success' : (Report.new otherCursor other).layOut.1 = .ok others) :
    pages.map (List.map Cell.withoutText) = others.map (List.map Cell.withoutText) ∧
      ∃ sheets sheets', transcript design cursor.set.rows = .ok sheets ∧
        pages = sheets.map Sheet.cells ∧ transcript other otherCursor.set.rows = .ok sheets' ∧
        others = sheets'.map Sheet.cells ∧
        sheets.map (List.map (Batch.skeleton design.columns)) =
          sheets'.map (List.map (Batch.skeleton other.columns)) := by
  obtain ⟨sheets, run, rfl⟩ := Report.exists_transcript success
  obtain ⟨sheets', run', rfl⟩ := Report.exists_transcript success'
  obtain ⟨press, printed, rfl⟩ := map_eq_ok_iff.mp run
  obtain ⟨press', printed', rfl⟩ := map_eq_ok_iff.mp run'
  rw [script_eq_body run, body_eq_outline run] at printed
  rw [script_eq_body run', body_eq_outline run'] at printed'
  have blocks : (design.outline cursor.set.rows).map (Block.skeleton design.columns) =
      (other.outline otherCursor.set.rows).map (Block.skeleton other.columns) := by
    rw [← outline_skeleton, ← outline_skeleton, same, rows]
  have options : design.options = other.options := options_eq_of_unformatted_eq same
  have blank : (Press.start design.options.pageHeight).skeleton design.columns =
      (Press.start other.options.pageHeight).skeleton other.columns := by
    rw [options]
    rfl
  have reached := congrArg Press.sheets (Press.printAll_skeleton same blank blocks printed printed')
  rw [Press.sheets_skeleton, Press.sheets_skeleton] at reached
  refine ⟨?_, _, _, run, rfl, run', rfl, reached⟩
  have cells := congrArg (List.map fun sheet => (Sheet.cells sheet).map Cell.withoutText) reached
  simpa only [List.map_map, Function.comp_def, Sheet.map_withoutText_skeleton] using cells

/-- Sales by city with a note on each, in some format. -/
def notesDesign (format : Option NumberFormat) : Design where
  columns := [{ Column.plain "City" 50 with role := .group }, Column.plain "Note" 60,
    { Column.numeric "Sales" 40 with subtotal := true, format }]
  options := { pageHeight := 80, grandTotals := true }
  metrics := FixedPitch.standard.metrics

/-- Two sales with a note on the first one. -/
def notesSet (note : String) : ResultSet where
  columns := ["City", "Note", "Sales"]
  rows := [[.text "x", .text note, .number (.ofInt 1)], [.text "x", .null, .number (.ofInt (-2))]]
  rectangular := by simp

/-- Another note and amounts in a currency change texts only. -/
theorem layOut_notes_skeleton :
    (notesDesign none).unformatted = (notesDesign (some (.currency 2 "$"))).unformatted ∧
      (notesSet "cash").rows.map (Row.skeleton (notesDesign none).columns) =
        (notesSet "paid later").rows.map
          (Row.skeleton (notesDesign (some (.currency 2 "$"))).columns) ∧
      ∃ pages others,
        (Report.new (Cursor.ofSet (notesSet "cash")) (notesDesign none)).layOut.1 = .ok pages ∧
        (Report.new (Cursor.ofSet (notesSet "paid later"))
          (notesDesign (some (.currency 2 "$")))).layOut.1 = .ok others ∧ pages ≠ others ∧
        pages.map (List.map Cell.withoutText) = others.map (List.map Cell.withoutText) := by
  have same : (notesDesign none).unformatted =
    (notesDesign (some (.currency 2 "$"))).unformatted := rfl
  have rows : (notesSet "cash").rows.map (Row.skeleton (notesDesign none).columns) =
    (notesSet "paid later").rows.map
      (Row.skeleton (notesDesign (some (.currency 2 "$"))).columns) := rfl
  have checked : ((Report.new (Cursor.ofSet (notesSet "cash")) (notesDesign none)).layOut.1.toOption.any
      fun pages => (Report.new (Cursor.ofSet (notesSet "paid later"))
        (notesDesign (some (.currency 2 "$")))).layOut.1.toOption.any fun others =>
          decide (pages ≠ others)) = true := by
    decide +kernel
  obtain ⟨pages, success, differ⟩ := exists_ok_of_any checked
  obtain ⟨others, success', differ⟩ := exists_ok_of_any differ
  exact ⟨same, rows, pages, others, success, success', of_decide_eq_true differ,
    (layOut_skeleton same rows success success').1⟩

end PagedReport
