import PagedReport.Proofs.Block

/-! # Printing blocks

A `Press` prints one block after the other and keeps the cells of every block together: a page is
then a `Sheet` of batches, and every batch tells from which block it was made and how it came to its
place. Forgetting the batches gives the pages that a paginator fills.
-/

namespace PagedReport

/-- How a batch of cells came to its place. -/
inductive Placement where
  /-- In its turn, below what was there or at the top of a new page. -/
  | flow
  /-- In its turn, on the page that a data row opens for itself. -/
  | overflow
  /-- As the copy of a header above such a row. -/
  | copy
deriving DecidableEq, Repr

/-- The cells of a block on a page, all at the height `top`. -/
structure Batch where
  block : Block
  placement : Placement
  top : Int
  cells : List Cell
deriving DecidableEq, Repr

/-- A page as the batches that stand on it. -/
abbrev Sheet := List Batch

/-- The cells of a sheet. -/
def Sheet.cells (sheet : Sheet) : Page := sheet.flatMap Batch.cells

/-- Sheets that are being printed. -/
structure Press where
  pageHeight : Int
  closed : List Sheet
  last : Sheet
  /-- Where the next batch goes. -/
  y : Int
  /-- It is a coordinate. -/
  kept : Coordinate.wrap y = y
  /-- The section whose headers are repeated. -/
  heading : Option SectionKey
deriving Repr

namespace Press

/-- One empty sheet. -/
def start (pageHeight : Int) : Press := ⟨pageHeight, [], [], 0, Coordinate.wrap_zero, none⟩

/-- All sheets. -/
def sheets (press : Press) : List Sheet := press.closed ++ [press.last]

/-- The pages without the division into batches. -/
def paginator (press : Press) : Paginator :=
  ⟨press.pageHeight, press.closed.map Sheet.cells, Sheet.cells press.last, press.y, press.kept⟩

/-- The sheet closed and a new one begun. -/
def newSheet (press : Press) : Press :=
  { press with closed := press.sheets, last := [], y := 0, kept := Coordinate.wrap_zero }

/-- A gap left free on the sheet. -/
def skip (press : Press) (dy : Int) : Press :=
  { press with y := Coordinate.wrap (press.y + dy), kept := Coordinate.wrap_wrap _ }

/-- A batch added to the sheet at the offset. -/
def stack (press : Press) (block : Block) (placement : Placement) (cells : List Cell) : Press :=
  { press with
    last := press.last ++ [⟨block, placement, press.y, atHeight press.y cells⟩]
    y := Coordinate.wrap (press.y + batchHeight cells)
    kept := Coordinate.wrap_wrap _ }

/-- A batch put on the sheet, or on a new one if it does not fit. -/
def put (press : Press) (block : Block) (placement : Placement) (cells : List Cell) : Press :=
  if cells ≠ [] ∧ press.paginator.needsBreak (batchHeight cells) then
    press.newSheet.stack block placement cells
  else press.stack block placement cells

/-- A section header that has been printed is repeated from then on. -/
def note (press : Press) : Block → Press
  | .sectionHeader key => { press with heading := some key }
  | _ => press

/-- Copies of the headers of the open section, as far as they are to be repeated. -/
def repeatHeaders (design : Design) (press : Press) : Press :=
  match press.heading with
  | none => press
  | some key =>
    let press :=
      if design.options.repeatSectionHeader then
        press.put (.sectionHeader key) .copy [design.sectionHeader key press.y]
      else press
    if design.options.repeatColumnHeader then
      press.put .columnHeader .copy (design.columnHeader press.y)
    else press

/-- A block printed in its turn. A data row that does not fit opens a sheet for itself. -/
def print (design : Design) (press : Press) (block : Block) : Except ReportError Press := do
  let cells ← design.cells block design.options.showGroupsAsRepeat press.y
  if block.isDataRow && press.paginator.needsBreak (batchHeight cells) then
    let press := press.newSheet.repeatHeaders design
    return press.put block .overflow (← design.cells block true press.y)
  else return ((press.put block .flow cells).skip block.gap).note block

/-- Blocks printed one after the other, as long as there is no error. -/
def printAll (design : Design) (press : Press) (script : List (Except ReportError Block)) :
    Except ReportError Press :=
  script.foldlM (fun press item => do press.print design (← item)) press

@[simp] theorem printAll_nil (design : Design) (press : Press) :
    press.printAll design [] = .ok press := rfl

@[simp] theorem printAll_ok_cons (design : Design) (press : Press) (block : Block)
    (rest : List (Except ReportError Block)) :
    press.printAll design (.ok block :: rest) =
      press.print design block >>= fun press => press.printAll design rest := rfl

@[simp] theorem printAll_singleton (design : Design) (press : Press) (block : Block) :
    press.printAll design [.ok block] = press.print design block := by
  rw [printAll_ok_cons]
  exact bind_ok _

theorem printAll_append (design : Design) (press : Press)
    (first second : List (Except ReportError Block)) :
    press.printAll design (first ++ second) =
      press.printAll design first >>= fun press => press.printAll design second := by
  simp only [printAll, List.foldlM_append]

/-- Every block but a data row has its place in the flow. -/
theorem print_eq_put (design : Design) (press : Press) {block : Block} (other : block.isDataRow = false) :
    press.print design block =
      (design.cells block design.options.showGroupsAsRepeat press.y).map fun cells =>
        ((press.put block .flow cells).skip block.gap).note block := by
  simp only [print, other, Bool.false_and, Bool.false_eq_true, ↓reduceIte]
  cases design.cells block design.options.showGroupsAsRepeat press.y <;> rfl

@[simp] theorem skip_zero (press : Press) : press.skip 0 = press := by
  simp [skip, press.kept]

@[simp] theorem print_sectionHeader (design : Design) (press : Press) (key : SectionKey) :
    press.print design (.sectionHeader key) =
      .ok ((press.put (.sectionHeader key) .flow [design.sectionHeader key press.y]).note
        (.sectionHeader key)) := by
  rw [print_eq_put design press rfl]
  simp [Design.cells, Block.gap]

@[simp] theorem print_columnHeader (design : Design) (press : Press) :
    press.print design .columnHeader =
      .ok (press.put .columnHeader .flow (design.columnHeader press.y)) := by
  rw [print_eq_put design press rfl]
  simp [Design.cells, Block.gap, note]

@[simp] theorem paginator_newSheet (press : Press) :
    press.newSheet.paginator = press.paginator.newPage := by
  simp [newSheet, paginator, sheets, Paginator.newPage, Paginator.pages, Sheet.cells]

@[simp] theorem paginator_skip (press : Press) (dy : Int) :
    (press.skip dy).paginator = press.paginator.skip dy := rfl

/-- A batch that is stacked and the gap below it take up their heights, if they end in range. -/
theorem y_skip_stack {press : Press} {block : Block} {placement : Placement} {cells : List Cell}
    {dy : Int} (low : 0 ≤ press.y + batchHeight cells + dy)
    (high : press.y + batchHeight cells + dy ≤ Coordinate.greatest) :
    ((press.stack block placement cells).skip dy).y = press.y + batchHeight cells + dy := by
  simp only [skip, stack, Coordinate.wrap_add_wrap_left]
  exact Coordinate.wrap_of_nonneg low high

theorem paginator_stack (press : Press) (block : Block) (placement : Placement) (cells : List Cell) :
    (press.stack block placement cells).paginator =
      press.paginator.place (atHeight press.y cells) (batchHeight cells) := by
  simp [stack, paginator, Paginator.place, Sheet.cells]

@[simp] theorem paginator_note (press : Press) (block : Block) :
    (press.note block).paginator = press.paginator := by
  cases block <;> rfl

/-- A batch is put where the paginator appends its cells. -/
@[simp] theorem paginator_put (press : Press) (block : Block) (placement : Placement)
    (cells : List Cell) :
    (press.put block placement cells).paginator =
      (press.paginator.append (atHeight press.y cells)).2 := by
  by_cases occupied : cells = []
  · subst occupied
    simp [put, paginator_stack, Paginator.place, press.paginator.kept]
  · rw [show press.y = press.paginator.y from rfl, Paginator.append_atHeight _ occupied, put]
    by_cases full : press.paginator.needsBreak (batchHeight cells) = true
    · rw [if_pos ⟨occupied, full⟩, if_pos full, paginator_stack, paginator_newSheet]
      rfl
    · rw [if_neg (fun both => full both.2), if_neg full, paginator_stack]
      rfl

@[simp] theorem heading_put (press : Press) (block : Block) (placement : Placement)
    (cells : List Cell) : (press.put block placement cells).heading = press.heading := by
  simp only [put]
  split <;> rfl

/-- The cells of a batch are put down at the offset, at whatever height they were made. -/
@[simp] theorem put_atHeight (press : Press) (block : Block) (placement : Placement)
    (cells : List Cell) (y : Int) :
    press.put block placement (atHeight y cells) = press.put block placement cells := by
  simp [put, stack]

/-- A batch that is stacked comes behind those on all sheets. -/
theorem flatten_sheets_stack (press : Press) (block : Block) (placement : Placement)
    (cells : List Cell) :
    (press.stack block placement cells).sheets.flatten =
      press.sheets.flatten ++ [⟨block, placement, press.y, atHeight press.y cells⟩] := by
  simp [stack, sheets]

theorem sheets_map_cells (press : Press) : press.sheets.map Sheet.cells = press.paginator.pages := by
  simp [sheets, paginator, Paginator.pages]

end Press

namespace Batch

/-- Whether a batch shows repeated group values: always on a page that it opened for itself. -/
def showsRepeats (design : Design) (placement : Placement) : Bool :=
  placement == .overflow || design.options.showGroupsAsRepeat

/-- A batch is whole if it has all cells of its block. -/
def IsWhole (design : Design) (batch : Batch) : Prop :=
  design.cells batch.block (showsRepeats design batch.placement) batch.top = .ok batch.cells

/-- Whether the end of a batch, and that of the gap below it, is no greater than any coordinate. -/
def InRange (design : Design) (batch : Batch) : Prop :=
  batch.top + design.blockHeight batch.block + batch.block.gap ≤ Coordinate.greatest

instance (design : Design) (batch : Batch) : Decidable (batch.InRange design) :=
  inferInstanceAs (Decidable (_ ≤ _))

/-- The block of a batch in range has a height in range. -/
theorem InRange.blockHeight_le {design : Design} {batch : Batch} (range : batch.InRange design)
    (nonneg : 0 ≤ batch.top) : design.blockHeight batch.block ≤ Coordinate.greatest := by
  have gap := batch.block.gap_nonneg
  rw [InRange] at range
  omega

/-- The end of a batch in range, and that of the gap below it, are coordinates. -/
theorem InRange.end_le {design : Design} (lines : design.metrics.PositiveLines) {block : Block}
    {placement : Placement} {top y : Int} {showRepeats : Bool} {cells batch : List Cell}
    (range : InRange design ⟨block, placement, top, batch⟩) (nonneg : 0 ≤ top)
    (made : design.cells block showRepeats y = .ok cells) :
    0 ≤ batchHeight cells ∧ top + batchHeight cells + block.gap ≤ Coordinate.greatest := by
  rw [Design.batchHeight_cells lines (range.blockHeight_le nonneg) made]
  exact ⟨Design.blockHeight_nonneg lines block, range⟩

/-- All cells of a whole batch stand at one height. -/
theorem IsWhole.level {design : Design} {batch : Batch} (whole : batch.IsWhole design) {cell : Cell}
    (member : cell ∈ batch.cells) : cell.bounds.y = batch.top := by
  rw [← Design.level_of_cells_eq_ok whole] at member
  exact y_of_mem_atHeight member

end Batch

/-- The batches on all sheets of a press are in range. -/
def Press.InRange (design : Design) (press : Press) : Prop :=
  ∀ batch ∈ press.sheets.flatten, batch.InRange design

namespace Press.InRange

variable {design : Design} {press : Press} {block : Block} {placement : Placement} {cells : List Cell}

theorem of_sheets (range : ∀ sheet ∈ press.sheets, ∀ batch ∈ sheet, batch.InRange design) :
    press.InRange design := by
  intro batch member
  obtain ⟨sheet, known, inside⟩ := List.mem_flatten.mp member
  exact range sheet known batch inside

theorem of_newSheet (range : press.newSheet.InRange design) : press.InRange design := by
  simpa [InRange, Press.newSheet, sheets] using range

theorem of_stack (range : (press.stack block placement cells).InRange design) :
    press.InRange design ∧
      Batch.InRange design ⟨block, placement, press.y, atHeight press.y cells⟩ := by
  rw [InRange, flatten_sheets_stack] at range
  exact ⟨fun batch member => range batch (List.mem_append_left _ member), range _ (by simp)⟩

theorem of_put (range : (press.put block placement cells).InRange design) : press.InRange design := by
  rw [Press.put] at range
  split at range
  · exact range.of_stack.1.of_newSheet
  · exact range.of_stack.1

theorem of_note (range : (press.note block).InRange design) : press.InRange design := by
  cases block <;> exact range

end Press.InRange

namespace Press

variable {design : Design}

/-- A property of a press that all its steps keep. -/
structure Invariant (design : Design) (P : Press → Prop) : Prop where
  put {press : Press} {block : Block} {placement : Placement} {cells : List Cell} (kept : P press)
    (made : design.cells block (Batch.showsRepeats design placement) press.y = .ok cells) :
    P (press.put block placement cells)
  newSheet {press : Press} (kept : P press) : P press.newSheet
  gap {press : Press} {block : Block} {cells : List Cell}
    (made : design.cells block (Batch.showsRepeats design .flow) press.y = .ok cells)
    (kept : P (press.put block .flow cells)) : P ((press.put block .flow cells).skip block.gap)
  note {press : Press} (block : Block) (kept : P press) : P (press.note block)

namespace Invariant

variable {P : Press → Prop} (invariant : Invariant design P)
include invariant

private theorem repeatHeaders {press : Press} (kept : P press) : P (press.repeatHeaders design) := by
  simp only [Press.repeatHeaders]
  split
  · exact kept
  · next key heading =>
    have named : P (if design.options.repeatSectionHeader then
        press.put (.sectionHeader key) .copy [design.sectionHeader key press.y] else press) := by
      split
      · exact invariant.put kept rfl
      · exact kept
    split
    · exact invariant.put named rfl
    · exact named

/-- What every step keeps is kept when a block is printed. -/
theorem print {press printed : Press} {block : Block} (kept : P press)
    (run : press.print design block = .ok printed) : P printed := by
  obtain ⟨cells, made, placed⟩ := bind_eq_ok_iff.mp run
  split at placed
  · obtain ⟨cells, again, same⟩ := bind_eq_ok_iff.mp placed
    cases same
    exact invariant.put (invariant.repeatHeaders (invariant.newSheet kept)) again
  · cases placed
    have flow : Batch.showsRepeats design .flow = design.options.showGroupsAsRepeat := rfl
    rw [← flow] at made
    exact invariant.note block (invariant.gap made (invariant.put kept made))

/-- What every step keeps is kept when a script is printed. -/
theorem printAll {press printed : Press} {script : List (Except ReportError Block)} (kept : P press)
    (run : press.printAll design script = .ok printed) : P printed := by
  induction script generalizing press with
  | nil => cases run; exact kept
  | cons item rest ih =>
    cases item with
    | error error => cases run
    | ok block =>
      obtain ⟨next, first, others⟩ := bind_eq_ok_iff.mp run
      exact ih (invariant.print kept first) others

end Invariant

end Press

end PagedReport
