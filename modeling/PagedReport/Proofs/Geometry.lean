import PagedReport.Proofs.Body

/-! # The geometry of pages

The batches of a page stand one below the other. Each of them is whole and at one height, starts
below the end of the one before it, and ends above the page height unless it starts at the top of
its page. Every step of a press keeps this, so it holds of every page of a layout.
-/

namespace PagedReport

/-- The batches of a sheet stand one below the other within the page. -/
structure Sheet.Stacked (design : Design) (sheet : Sheet) : Prop where
  whole : ∀ batch ∈ sheet, batch.IsWhole design
  nonneg : ∀ batch ∈ sheet, 0 ≤ batch.top
  fits : ∀ batch ∈ sheet, batch.cells ≠ [] →
    batch.top = 0 ∨ batch.top + batchHeight batch.cells < design.options.pageHeight
  apart : sheet.Pairwise fun upper lower => upper.top + batchHeight upper.cells ≤ lower.top

/-- A batch below all others of a stacked sheet can be added to it. -/
theorem Sheet.Stacked.concat {design : Design} {sheet : Sheet} {batch : Batch}
    (stacked : sheet.Stacked design) (whole : batch.IsWhole design) (nonneg : 0 ≤ batch.top)
    (fits : batch.cells ≠ [] →
      batch.top = 0 ∨ batch.top + batchHeight batch.cells < design.options.pageHeight)
    (below : ∀ upper ∈ sheet, upper.top + batchHeight upper.cells ≤ batch.top) :
    Sheet.Stacked design (sheet ++ [batch]) := by
  have each {P : Batch → Prop} (old : ∀ other ∈ sheet, P other) (new : P batch) :
      ∀ other ∈ sheet ++ [batch], P other := by
    intro other member
    rcases List.mem_append.mp member with earlier | last
    · exact old other earlier
    · rw [List.mem_singleton.mp last]
      exact new
  constructor
  · exact each stacked.whole whole
  · exact each stacked.nonneg nonneg
  · exact each stacked.fits fits
  · apply List.pairwise_append.mpr
    refine ⟨stacked.apart, List.pairwise_singleton _ _, ?_⟩
    intro upper earlier lower last
    rw [List.mem_singleton.mp last]
    exact below upper earlier

/-- A batch that is put on a sheet stands at some height of it, and the next one goes to its end. -/
theorem Press.exists_top_put (press : Press) (block : Block) (placement : Placement)
    (cells : List Cell) :
    ∃ top, ⟨block, placement, top, atHeight top cells⟩ ∈ (press.put block placement cells).last ∧
      (press.put block placement cells).y = Coordinate.wrap (top + batchHeight cells) := by
  rw [put]
  split
  · exact ⟨0, by simp [stack, newSheet], rfl⟩
  · exact ⟨press.y, by simp [stack], rfl⟩

/-- The sheets of a press are stacked, and the next batch goes below all batches of the last one. -/
structure Press.Sound (design : Design) (press : Press) : Prop where
  pageHeight : press.pageHeight = design.options.pageHeight
  closed : ∀ sheet ∈ press.closed, sheet.Stacked design
  last : Sheet.Stacked design press.last
  above : ∀ batch ∈ press.last, batch.top + batchHeight batch.cells ≤ press.y
  nonneg : 0 ≤ press.y

namespace Press.Sound

variable {design : Design} {press : Press}

theorem start : Sound design (.start design.options.pageHeight) where
  pageHeight := rfl
  closed _ member := by cases member
  last := ⟨by simp [Press.start], by simp [Press.start], by simp [Press.start], .nil⟩
  above _ member := by cases member
  nonneg := Int.le_refl 0

theorem newSheet (sound : press.Sound design) : press.newSheet.Sound design where
  pageHeight := sound.pageHeight
  closed sheet member := by
    rcases List.mem_append.mp member with closed | last
    · exact sound.closed sheet closed
    · rw [List.mem_singleton.mp last]
      exact sound.last
  last := ⟨by simp [Press.newSheet], by simp [Press.newSheet], by simp [Press.newSheet], .nil⟩
  above _ member := by cases member
  nonneg := Int.le_refl 0

theorem skip (sound : press.Sound design) {dy : Int} (down : 0 ≤ dy)
    (high : press.y + dy ≤ Coordinate.greatest) : (press.skip dy).Sound design := by
  have nonneg := sound.nonneg
  have y : (press.skip dy).y = press.y + dy :=
    Coordinate.wrap_of_nonneg (Int.add_nonneg nonneg down) high
  refine ⟨sound.pageHeight, sound.closed, sound.last, ?_, ?_⟩
  · intro batch member
    rw [y]
    exact (sound.above batch member).trans (Int.le_add_of_nonneg_right down)
  · rw [y]
    exact Int.add_nonneg nonneg down

theorem note (sound : press.Sound design) (block : Block) : (press.note block).Sound design := by
  cases block <;> exact ⟨sound.pageHeight, sound.closed, sound.last, sound.above, sound.nonneg⟩

/-- A batch that starts at the top of a page or ends within it can be added to the sheet, if its end is
in range. -/
theorem stack (sound : press.Sound design) (lines : design.metrics.PositiveLines) {block : Block}
    {placement : Placement} {y : Int} {cells : List Cell}
    (made : design.cells block (Batch.showsRepeats design placement) y = .ok cells)
    (range : (press.stack block placement cells).InRange design)
    (fits : cells ≠ [] → press.y = 0 ∨ press.y + batchHeight cells < design.options.pageHeight) :
    (press.stack block placement cells).Sound design := by
  have here := Design.cells_eq_ok_atHeight made press.y
  have nonneg := sound.nonneg
  obtain ⟨tall, ends⟩ := range.of_stack.2.end_le lines nonneg made
  have gap := block.gap_nonneg
  have next : Coordinate.wrap (press.y + batchHeight cells) = press.y + batchHeight cells :=
    Coordinate.wrap_of_nonneg (by omega) (by omega)
  simp only [Press.stack, next]
  constructor
  · exact sound.pageHeight
  · exact sound.closed
  · exact sound.last.concat here nonneg (by simpa using fits) sound.above
  · intro batch member
    dsimp only
    rcases List.mem_append.mp member with earlier | last
    · have above := sound.above batch earlier
      omega
    · rw [List.mem_singleton.mp last, batchHeight_atHeight]
  · dsimp only
    omega

/-- A batch for which there is no room goes to the top of a new page, where there always is. -/
theorem put (sound : press.Sound design) (lines : design.metrics.PositiveLines) {block : Block}
    {placement : Placement} {cells : List Cell}
    (made : design.cells block (Batch.showsRepeats design placement) press.y = .ok cells)
    (range : (press.put block placement cells).InRange design) :
    (press.put block placement cells).Sound design := by
  rw [Press.put] at range ⊢
  split at range
  · next full =>
    rw [if_pos full]
    exact sound.newSheet.stack lines made range fun _ => .inl rfl
  · next roomy =>
    rw [if_neg roomy]
    apply sound.stack lines made range
    intro occupied
    have nonneg := sound.nonneg
    obtain ⟨tall, ends⟩ := range.of_stack.2.end_le lines nonneg made
    have gap := block.gap_nonneg
    have reach : Coordinate.InRange (press.paginator.y + batchHeight cells) :=
      Coordinate.inRange_of_nonneg (show 0 ≤ press.y + batchHeight cells by omega)
        (show press.y + batchHeight cells ≤ Coordinate.greatest by omega)
    have fits : ¬(0 < press.y ∧ press.pageHeight ≤ press.y + batchHeight cells) := fun full =>
      roomy ⟨occupied, (Paginator.needsBreak_iff reach).mpr full⟩
    rw [sound.pageHeight] at fits
    omega

/-- The gap below a block that was put on a sheet ends in range like the block. -/
theorem gap (lines : design.metrics.PositiveLines) {block : Block} {cells : List Cell}
    (made : design.cells block (Batch.showsRepeats design .flow) press.y = .ok cells)
    (sound : (press.put block .flow cells).Sound design)
    (range : (press.put block .flow cells).InRange design) :
    ((press.put block .flow cells).skip block.gap).Sound design := by
  obtain ⟨top, last, y⟩ := press.exists_top_put block .flow cells
  have nonneg : 0 ≤ top := sound.last.nonneg _ last
  have reach := range _ (List.mem_flatten.mpr ⟨_, List.mem_append_right _ List.mem_cons_self, last⟩)
  obtain ⟨tall, ends⟩ := reach.end_le lines nonneg made
  have gap := block.gap_nonneg
  apply sound.skip gap
  rw [y, Coordinate.wrap_of_nonneg (by omega) (by omega)]
  exact ends

theorem invariant (lines : design.metrics.PositiveLines) :
    Press.Invariant design fun press => press.InRange design → press.Sound design where
  put kept made range := (kept range.of_put).put lines made range
  newSheet kept range := (kept range.of_newSheet).newSheet
  gap made kept range := gap lines made (kept range) range
  note block kept range := (kept range.of_note).note block

end Press.Sound

/-- On every sheet of a transcript in range the batches are stacked. -/
theorem stacked_of_transcript {design : Design} (lines : design.metrics.PositiveLines)
    {rows : List Row} {sheets : List Sheet} (run : transcript design rows = .ok sheets)
    (range : ∀ sheet ∈ sheets, ∀ batch ∈ sheet, batch.InRange design) :
    ∀ sheet ∈ sheets, sheet.Stacked design := by
  obtain ⟨press, printed, rfl⟩ := map_eq_ok_iff.mp run
  have sound := (Press.Sound.invariant lines).printAll (fun _ => Press.Sound.start) printed
    (.of_sheets range)
  intro sheet member
  rcases List.mem_append.mp member with closed | last
  · exact sound.closed sheet closed
  · rw [List.mem_singleton.mp last]
    exact sound.last

/-- Of two batches of a page at the same height the first one is a section header of no size. -/
theorem Sheet.Stacked.empty_of_top_eq {design : Design} (lines : design.metrics.PositiveLines)
    {sheet : Sheet} (stacked : sheet.Stacked design)
    (range : ∀ batch ∈ sheet, batch.InRange design) :
    sheet.Pairwise fun upper lower => upper.cells ≠ [] → upper.top = lower.top →
      ∃ key, upper.block = .sectionHeader key ∧
        ∀ cell ∈ upper.cells, cell.bounds = ⟨0, upper.top, 0, 0⟩ := by
  refine stacked.apart.imp_of_mem ?_
  intro upper lower member _ apart occupied same
  have low : batchHeight upper.cells ≤ 0 := by omega
  have whole := stacked.whole upper member
  have high := (range upper member).blockHeight_le (stacked.nonneg upper member)
  have empty (cell : Cell) (inside : cell ∈ upper.cells) :
      ∃ key, upper.block = .sectionHeader key ∧ cell.bounds = ⟨0, upper.top, 0, 0⟩ := by
    refine (Design.one_le_height_or_empty lines high whole inside).resolve_left ?_
    have bound := le_batchHeight inside
    omega
  obtain ⟨first, inside⟩ := List.exists_mem_of_ne_nil _ occupied
  obtain ⟨key, header, _⟩ := empty first inside
  exact ⟨key, header, fun cell inside => (empty cell inside).choose_spec.2⟩

end PagedReport
