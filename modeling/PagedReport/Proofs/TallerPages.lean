import PagedReport.Proofs.Repagination

/-! # Taller pages

Without repeated headers a report never needs more pages when they are made taller. Two layouts of
the same report drift apart at the first page that one of them leaves earlier, so their pages cannot be
compared one by one. What stays true is that on taller pages no batch comes later, in the order of
pages and of heights on a page: either it stands on an earlier page, or no further down on the same one.
-/

namespace PagedReport

namespace Press

variable {press other : Press}

/-- A new sheet begun if a batch of this height has no place on the last one. -/
def turn (press : Press) (height : Int) : Press :=
  if press.paginator.needsBreak height then press.newSheet else press

@[simp] theorem pageHeight_turn (press : Press) (height : Int) :
    (press.turn height).pageHeight = press.pageHeight := by
  rw [turn]
  split <;> rfl

theorem turn_nonneg (nonneg : 0 ≤ press.y) {height : Int} : 0 ≤ (press.turn height).y := by
  rw [turn]
  split
  · exact Int.le_refl 0
  · exact nonneg

/-- A batch with cells turns the page if it has no place, and is stacked then. -/
theorem put_eq_turn_stack (press : Press) (block : Block) (placement : Placement) {cells : List Cell}
    (occupied : cells ≠ []) :
    press.put block placement cells =
      (press.turn (batchHeight cells)).stack block placement cells := by
  simp only [put, turn, occupied, ne_eq, not_false_eq_true, true_and]
  split <;> rfl

/-- The batches on all sheets are in range after a turn only if they were before. -/
theorem InRange.of_turn {design : Design} {height : Int}
    (range : (press.turn height).InRange design) : press.InRange design := by
  rw [turn] at range
  split at range
  · exact range.of_newSheet
  · exact range

/-- The sheets of a press are no lower than those of another one, and no more of them is used. -/
structure NoFurther (press other : Press) : Prop where
  pageHeight : other.pageHeight ≤ press.pageHeight
  nonneg : 0 ≤ press.y
  nonneg' : 0 ≤ other.y
  reached : press.closed.length < other.closed.length ∨
    press.closed.length = other.closed.length ∧ press.y ≤ other.y

namespace NoFurther

theorem start {low high : Int} (taller : low ≤ high) : (Press.start high).NoFurther (.start low) :=
  ⟨taller, Int.le_refl 0, Int.le_refl 0, .inr ⟨rfl, Int.le_refl 0⟩⟩

theorem length_sheets_le (noFurther : press.NoFurther other) :
    press.sheets.length ≤ other.sheets.length := by
  have reached := noFurther.reached
  simp only [sheets, List.length_append, List.length_singleton]
  omega

theorem note (noFurther : press.NoFurther other) (block : Block) :
    (press.note block).NoFurther (other.note block) := by
  cases block <;>
    exact ⟨noFurther.pageHeight, noFurther.nonneg, noFurther.nonneg', noFurther.reached⟩

/-- Batches of one height are stacked on both, with a gap below them, and end in range. -/
theorem stack (noFurther : press.NoFurther other) (block : Block) (placement placement' : Placement)
    {cells cells' : List Cell} {height : Int} (same : batchHeight cells = height)
    (same' : batchHeight cells' = height) (tall : 0 ≤ height) {dy : Int} (down : 0 ≤ dy)
    (ends : press.y + height + dy ≤ Coordinate.greatest)
    (ends' : other.y + height + dy ≤ Coordinate.greatest) :
    ((press.stack block placement cells).skip dy).NoFurther
      ((other.stack block placement' cells').skip dy) := by
  obtain ⟨pageHeight, nonneg, nonneg', reached⟩ := noFurther
  have y : ((press.stack block placement cells).skip dy).y = press.y + batchHeight cells + dy :=
    y_skip_stack (by omega) (by omega)
  have y' : ((other.stack block placement' cells').skip dy).y = other.y + batchHeight cells' + dy :=
    y_skip_stack (by omega) (by omega)
  refine ⟨pageHeight, ?_, ?_, reached.imp_right fun equal => ⟨equal.1, ?_⟩⟩
  · omega
  · omega
  · have above := equal.2
    omega

/-- A batch that has no place on a taller sheet, no further down, has none on the lower one, if its
end would be in range there. -/
theorem needsBreak_of_length_eq (noFurther : press.NoFurther other)
    (level : press.closed.length = other.closed.length) {height : Int} (tall : 0 ≤ height)
    (ends : other.y + height ≤ Coordinate.greatest)
    (full : press.paginator.needsBreak height = true) : other.paginator.needsBreak height = true := by
  obtain ⟨lower, nonneg, nonneg', reached⟩ := noFurther
  have range : Coordinate.InRange (press.paginator.y + height) :=
    Coordinate.inRange_of_nonneg (show 0 ≤ press.y + height by omega)
      (show press.y + height ≤ Coordinate.greatest by omega)
  have range' : Coordinate.InRange (other.paginator.y + height) :=
    Coordinate.inRange_of_nonneg (show 0 ≤ other.y + height by omega) ends
  have full : 0 < press.y ∧ press.pageHeight ≤ press.y + height :=
    (Paginator.needsBreak_iff range).mp full
  have full' : 0 < other.y ∧ other.pageHeight ≤ other.y + height := by omega
  exact (Paginator.needsBreak_iff range').mpr full'

/-- If only the one turns to a new sheet, it was behind by a sheet, and if only the other one does, it
is ahead by a sheet then. -/
theorem turn (noFurther : press.NoFurther other) {height : Int} (tall : 0 ≤ height)
    (ends : (other.turn height).y + height ≤ Coordinate.greatest) :
    (press.turn height).NoFurther (other.turn height) := by
  refine ⟨by simpa using noFurther.pageHeight, turn_nonneg noFurther.nonneg,
    turn_nonneg noFurther.nonneg', ?_⟩
  have nonneg := noFurther.nonneg'
  have reached := noFurther.reached
  have opened (press : Press) :
      press.newSheet.closed.length = press.closed.length + 1 ∧ press.newSheet.y = 0 := by
    simp [newSheet, sheets]
  have first := opened press
  have second := opened other
  by_cases full : press.paginator.needsBreak height = true <;>
    by_cases full' : other.paginator.needsBreak height = true
  · rw [Press.turn, Press.turn, if_pos full, if_pos full']
    omega
  · rw [Press.turn, if_neg full'] at ends
    have behind : press.closed.length ≠ other.closed.length := fun level =>
      full' (noFurther.needsBreak_of_length_eq level tall ends full)
    rw [Press.turn, Press.turn, if_pos full, if_neg full']
    omega
  · rw [Press.turn, Press.turn, if_neg full, if_pos full']
    omega
  · rw [Press.turn, Press.turn, if_neg full, if_neg full']
    exact reached

variable {design : Design}

/-- Batches of one block are stacked on both, with the gap of the block below them. -/
theorem stackBlock (noFurther : press.NoFurther other) (lines : design.metrics.PositiveLines)
    {block : Block} {placement placement' : Placement} {showRepeats : Bool} {y : Int}
    {cells first second : List Cell} (made : design.cells block showRepeats y = .ok cells)
    (same : batchHeight first = batchHeight cells) (same' : batchHeight second = batchHeight cells)
    (range : (press.stack block placement first).InRange design)
    (range' : (other.stack block placement' second).InRange design) :
    ((press.stack block placement first).skip block.gap).NoFurther
      ((other.stack block placement' second).skip block.gap) := by
  obtain ⟨tall, ends⟩ := range.of_stack.2.end_le lines noFurther.nonneg made
  obtain ⟨_, ends'⟩ := range'.of_stack.2.end_le lines noFurther.nonneg' made
  exact noFurther.stack block placement placement' same same' tall block.gap_nonneg ends ends'

/-- Batches of one block turn the page where they have no place, and are stacked then. -/
theorem turnStackBlock (noFurther : press.NoFurther other) (lines : design.metrics.PositiveLines)
    {block : Block} {placement placement' : Placement} {showRepeats : Bool} {y : Int}
    {cells first second : List Cell} (made : design.cells block showRepeats y = .ok cells)
    (same : batchHeight first = batchHeight cells) (same' : batchHeight second = batchHeight cells)
    (range : ((press.turn (batchHeight cells)).stack block placement first).InRange design)
    (range' : ((other.turn (batchHeight cells)).stack block placement' second).InRange design) :
    (((press.turn (batchHeight cells)).stack block placement first).skip block.gap).NoFurther
      (((other.turn (batchHeight cells)).stack block placement' second).skip block.gap) := by
  obtain ⟨tall, ends⟩ := range'.of_stack.2.end_le lines (turn_nonneg noFurther.nonneg') made
  have gap := block.gap_nonneg
  exact (noFurther.turn tall (by omega)).stackBlock lines made same same' range range'

/-- The same block is put on both. -/
theorem put (noFurther : press.NoFurther other) (lines : design.metrics.PositiveLines) {block : Block}
    {placement : Placement} {showRepeats : Bool} {y : Int} {cells : List Cell}
    (made : design.cells block showRepeats y = .ok cells)
    (range : (press.put block placement cells).InRange design)
    (range' : (other.put block placement cells).InRange design) :
    ((press.put block placement cells).skip block.gap).NoFurther
      ((other.put block placement cells).skip block.gap) := by
  by_cases occupied : cells = []
  · have stacked (press : Press) : press.put block placement cells =
        press.stack block placement cells := by
      simp [Press.put, occupied]
    rw [stacked] at range range'
    rw [stacked, stacked]
    exact noFurther.stackBlock lines made rfl rfl range range'
  · rw [put_eq_turn_stack _ block placement occupied] at range range' ⊢
    rw [put_eq_turn_stack other block placement occupied]
    exact noFurther.turnStackBlock lines made rfl rfl range range'

end NoFurther

end Press

private theorem height_eq_of_shownAgain {design : Design} {block : Block} {shown hidden : Cell}
    (again : ShownAgain design block shown hidden) :
    shown.bounds.height = hidden.bounds.height := by
  obtain ⟨_, _, _, _, _, _, _, _, _, _, _, _, same⟩ := again
  rw [← Cell.bounds_height_atY hidden 0, ← same]
  rfl

/-- A batch has one height whether repeated values are shown in it or not. -/
theorem batchHeight_eq_of_alike {design : Design} {block : Block} {showRepeats showOthers : Bool}
    {cells others : List Cell}
    (alike : List.Forall₂ (Alike design block showRepeats showOthers) cells others) :
    batchHeight cells = batchHeight others := by
  have each : List.Forall₂ (fun cell other : Cell => cell.bounds.height = other.bounds.height)
      cells others := by
    refine alike.imp fun cell other alike => ?_
    rcases alike with same | ⟨_, _, again⟩ | ⟨_, _, again⟩
    · rw [← Cell.bounds_height_atY cell 0, same, Cell.bounds_height_atY]
    · exact height_eq_of_shownAgain again
    · exact (height_eq_of_shownAgain again).symm
  have heights : cells.map (fun cell => cell.bounds.height) =
      others.map fun cell => cell.bounds.height := by
    refine List.forall₂_eq_eq_eq ▸ ?_
    rw [List.forall₂_map_left_iff, List.forall₂_map_right_iff]
    exact each
  rw [batchHeight, batchHeight, heights]

namespace Design

/-- No headers are repeated. -/
structure NoRepeats (design : Design) : Prop where
  sectionHeader : design.options.repeatSectionHeader = false
  columnHeader : design.options.repeatColumnHeader = false

end Design

namespace Press

variable {design : Design} {press other : Press}

theorem repeatHeaders_of_noRepeats (plain : design.NoRepeats) (press : Press) :
    press.repeatHeaders design = press := by
  simp only [repeatHeaders, plain.sectionHeader, plain.columnHeader, Bool.false_eq_true, ↓reduceIte]
  split <;> rfl

/-- Without repeated headers a data row turns the page if it has no place, and is stacked then. -/
theorem exists_print_dataRow (plain : design.NoRepeats) {row : Row} {previous : Option Row}
    {cells : List Cell}
    (made : design.cells (.dataRow row previous) design.options.showGroupsAsRepeat 0 = .ok cells)
    (press : Press) :
    ∃ placement shown, batchHeight shown = batchHeight cells ∧
      press.print design (.dataRow row previous) =
        .ok ((press.turn (batchHeight cells)).stack (.dataRow row previous) placement shown) := by
  have here := Design.cells_eq_ok_atHeight made press.y
  by_cases full : press.paginator.needsBreak (batchHeight cells) = true
  · have alike := cells_alike design (.dataRow row previous) true design.options.showGroupsAsRepeat
      press.newSheet.y 0
    rw [made] at alike
    obtain ⟨shown, found, related⟩ := alike.exists_ok
    refine ⟨.overflow, shown, batchHeight_eq_of_alike related, ?_⟩
    -- At the top of the new sheet there is always room.
    have top (height : Int) : press.newSheet.paginator.needsBreak height = false := rfl
    simp only [print, here, ok_bind, batchHeight_atHeight, Block.isDataRow, Bool.true_and, full,
      ↓reduceIte, repeatHeaders_of_noRepeats plain, found, put, top, turn, Bool.false_eq_true,
      and_false, pure_eq_ok]
  · refine ⟨.flow, atHeight press.y cells, batchHeight_atHeight _ _, ?_⟩
    have room : press.paginator.needsBreak (batchHeight cells) = false := Bool.eq_false_iff.mpr full
    simp only [print, here, ok_bind, batchHeight_atHeight, Block.isDataRow, Bool.true_and, room,
      Bool.false_eq_true, ↓reduceIte, put, turn, and_false, pure_eq_ok, Block.gap, skip_zero, note]

/-- A block is printed on taller sheets no further on than on lower ones, or on neither. -/
theorem NoFurther.print {low high : Int} (lines : design.metrics.PositiveLines)
    (noFurther : other.InRange design → press.InRange design → press.NoFurther other) (block : Block) :
    Lockstep
      (fun later earlier => later.InRange design → earlier.InRange design → NoFurther earlier later)
      (other.print (design.withPaging low false false) block)
      (press.print (design.withPaging high false false) block) := by
  have plain (height : Int) : (design.withPaging height false false).NoRepeats := ⟨rfl, rfl⟩
  cases made : design.cells block design.options.showGroupsAsRepeat 0 with
  | error error =>
    rw [print_eq_error (design.withPaging low false false) made other,
      print_eq_error (design.withPaging high false false) made press]
    exact .error error
  | ok cells =>
    by_cases isRow : block.isDataRow = true
    · cases block with
      | dataRow row previous =>
        obtain ⟨placement, shown, height, run⟩ := exists_print_dataRow (plain high) made press
        obtain ⟨placement', shown', height', run'⟩ := exists_print_dataRow (plain low) made other
        rw [run, run']
        refine .ok fun range' range => ?_
        have before := noFurther range'.of_stack.1.of_turn range.of_stack.1.of_turn
        simpa [Block.gap] using before.turnStackBlock lines made height height' range range'
      | _ => cases isRow
    · have other' : block.isDataRow = false := Bool.eq_false_iff.mpr isRow
      have here (height y : Int) : (design.withPaging height false false).cells block
          (design.withPaging height false false).options.showGroupsAsRepeat y =
            .ok (atHeight y cells) := Design.cells_eq_ok_atHeight made y
      rw [print_eq_put _ _ other', print_eq_put _ _ other', here, here, map_ok, map_ok, put_atHeight,
        put_atHeight]
      refine .ok fun range' range => ?_
      have kept (press : Press) (range : (((press.put block .flow cells).skip block.gap).note
          block).InRange design) : (press.put block .flow cells).InRange design := range.of_note
      have before := noFurther (kept other range').of_put (kept press range).of_put
      exact (before.put lines made (kept press range) (kept other range')).note block

/-- A script is printed on taller sheets no further on than on lower ones, or on neither. -/
theorem NoFurther.printAll (lines : design.metrics.PositiveLines)
    (noFurther : other.InRange design → press.InRange design → press.NoFurther other)
    (low high : Int) (script : Script) :
    Lockstep
      (fun later earlier => later.InRange design → earlier.InRange design → NoFurther earlier later)
      (other.printAll (design.withPaging low false false) script)
      (press.printAll (design.withPaging high false false) script) := by
  induction script generalizing press other with
  | nil => exact .ok noFurther
  | cons item rest ih =>
    cases item with
    | error error => exact .error error
    | ok block =>
      rw [printAll_ok_cons, printAll_ok_cons]
      exact (NoFurther.print lines noFurther block).bind fun _ _ printed => ih printed

end Press

/-- Sales by region with lines of different great heights, without repeated headers. -/
def unevenDesign (pageHeight : Int) : Design where
  columns := [{ Column.plain "Region" 40 with role := .sectionBreak },
    { Column.numeric "Sales" 40 with subtotal := true }]
  options := { pageHeight, repeatSectionHeader := false, repeatColumnHeader := false }
  metrics := ⟨fun font => if font.bold then 771751936 else 536870912, fun _ _ => 0⟩

/-- One sale. -/
def unevenSet : ResultSet where
  columns := ["Region", "Sales"]
  rows := [[.text "A", .number (.ofInt 1)]]
  rectangular := by decide

end PagedReport
