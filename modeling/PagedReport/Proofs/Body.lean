import PagedReport.Proofs.Script

/-! # The body of a report

The body of a report is what its sheets hold apart from repeated headers. It consists of one whole
batch for every block of the script, in the same order: no block is lost, doubled or moved.
-/

namespace PagedReport

/-- The batches of all sheets in order, without the copies of headers. -/
def body (sheets : List Sheet) : List Batch :=
  sheets.flatten.filter fun batch => batch.placement != .copy

theorem body_append (first second : List Sheet) :
    body (first ++ second) = body first ++ body second := by
  simp [body]

/-- A batch as it is placed in its turn: a whole block, and only a data row opens a page. -/
structure Batch.InTurn (design : Design) (block : Block) (batch : Batch) : Prop where
  block_eq : batch.block = block
  whole : batch.IsWhole design
  row : batch.placement = .overflow → block.isDataRow = true

namespace Press

variable {design : Design} (press : Press)

@[simp] theorem body_newSheet : body press.newSheet.sheets = body press.sheets := by
  simp [body, newSheet, sheets]

@[simp] theorem body_skip (dy : Int) : body (press.skip dy).sheets = body press.sheets := rfl

@[simp] theorem body_note (block : Block) : body (press.note block).sheets = body press.sheets := by
  cases block <;> rfl

theorem body_stack (block : Block) (placement : Placement) (cells : List Cell) :
    body (press.stack block placement cells).sheets =
      body press.sheets ++ [⟨block, placement, press.y, atHeight press.y cells⟩].filter
        fun batch => batch.placement != .copy := by
  simp [body, stack, sheets, List.filter_append]

@[simp] theorem body_put_copy (block : Block) (cells : List Cell) :
    body (press.put block .copy cells).sheets = body press.sheets := by
  simp only [put]
  split
  · rw [body_stack, body_newSheet]
    exact List.append_nil _
  · rw [body_stack]
    exact List.append_nil _

/-- A batch that is put down in its turn comes at the end of the body. -/
theorem exists_body_put (block : Block) (placement : Placement) (cells : List Cell)
    (turn : placement ≠ .copy) :
    ∃ top, body (press.put block placement cells).sheets =
      body press.sheets ++ [⟨block, placement, top, atHeight top cells⟩] := by
  have kept (top : Int) : ([⟨block, placement, top, atHeight top cells⟩] : List Batch).filter
      (fun batch => batch.placement != .copy) = [⟨block, placement, top, atHeight top cells⟩] :=
    List.filter_eq_self.mpr fun batch member => by
      rw [List.mem_singleton.mp member]
      simpa using turn
  simp only [put]
  split
  · exact ⟨press.newSheet.y, by rw [body_stack, body_newSheet, kept]⟩
  · exact ⟨press.y, by rw [body_stack, kept]⟩

@[simp] theorem body_repeatHeaders : body (press.repeatHeaders design).sheets = body press.sheets := by
  simp only [repeatHeaders]
  split
  · rfl
  · split <;> split <;> simp

/-- A block that is printed adds its batch to the body. -/
theorem body_print {press printed : Press} {block : Block} (run : press.print design block = .ok printed) :
    ∃ batch, body printed.sheets = body press.sheets ++ [batch] ∧ batch.InTurn design block := by
  obtain ⟨cells, made, placed⟩ := bind_eq_ok_iff.mp run
  split at placed
  · next full =>
    obtain ⟨cells, again, same⟩ := bind_eq_ok_iff.mp placed
    cases same
    obtain ⟨top, found⟩ := exists_body_put (press.newSheet.repeatHeaders design) block .overflow
      cells (by decide)
    refine ⟨_, by rw [found, body_repeatHeaders, body_newSheet], rfl, ?_, ?_⟩
    · exact Design.cells_eq_ok_atHeight again top
    · intro _
      exact (Bool.and_eq_true_iff.mp full).1
  · cases placed
    obtain ⟨top, found⟩ := exists_body_put press block .flow cells (by decide)
    refine ⟨_, by rw [body_note, body_skip, found], rfl, ?_, ?_⟩
    · exact Design.cells_eq_ok_atHeight made top
    · intro overflow
      cases overflow

/-- A script that is printed adds the batches of its blocks to the body, one for each. -/
theorem body_printAll {press printed : Press} {script : List (Except ReportError Block)}
    (run : press.printAll design script = .ok printed) :
    ∃ batches, body printed.sheets = body press.sheets ++ batches ∧
      List.Forall₂ (fun item batch => ∃ block, item = .ok block ∧ batch.InTurn design block)
        script batches := by
  induction script generalizing press with
  | nil =>
    cases run
    exact ⟨[], (List.append_nil _).symm, .nil⟩
  | cons item rest ih =>
    cases item with
    | error error => cases run
    | ok block =>
      obtain ⟨next, first, others⟩ := bind_eq_ok_iff.mp run
      obtain ⟨batch, added, turn⟩ := body_print first
      obtain ⟨batches, all, turns⟩ := ih others
      refine ⟨batch :: batches, ?_, .cons ⟨block, rfl, turn⟩ turns⟩
      rw [all, added, List.append_assoc, List.singleton_append]

end Press

/-- The body of a transcript has one batch for each block of the script. -/
theorem body_transcript {design : Design} {rows : List Row} {sheets : List Sheet}
    (run : transcript design rows = .ok sheets) :
    List.Forall₂ (fun item batch => ∃ block, item = .ok block ∧ batch.InTurn design block)
      (Account.script design true (.start design) rows) (body sheets) := by
  obtain ⟨press, printed, rfl⟩ := map_eq_ok_iff.mp run
  obtain ⟨batches, all, turns⟩ := Press.body_printAll printed
  rw [all]
  exact turns

/-- The batches on all sheets of a press are whole. -/
def Press.AllWhole (design : Design) (press : Press) : Prop :=
  ∀ batch ∈ press.sheets.flatten, batch.IsWhole design

namespace Press.AllWhole

variable {design : Design} {press : Press}

theorem newSheet (whole : press.AllWhole design) : press.newSheet.AllWhole design := by
  simpa [AllWhole, Press.newSheet, sheets] using whole

/-- The cells of a block can be added wherever they were made. -/
theorem stack (whole : press.AllWhole design) {block : Block} {placement : Placement}
    {cells : List Cell} {y : Int}
    (made : design.cells block (Batch.showsRepeats design placement) y = .ok cells) :
    (press.stack block placement cells).AllWhole design := by
  intro batch member
  rw [flatten_sheets_stack] at member
  rcases List.mem_append.mp member with earlier | last
  · exact whole batch earlier
  · rw [List.mem_singleton.mp last]
    exact Design.cells_eq_ok_atHeight made press.y

theorem invariant : Press.Invariant design (AllWhole design) where
  put whole made := by
    simp only [Press.put]
    split
    · exact whole.newSheet.stack made
    · exact whole.stack made
  newSheet whole := whole.newSheet
  gap _ whole := whole
  note block whole := by cases block <;> exact whole

end Press.AllWhole

/-- Every batch of a transcript is whole. -/
theorem isWhole_of_mem_sheets {design : Design} {rows : List Row} {sheets : List Sheet}
    (run : transcript design rows = .ok sheets) {batch : Batch} (member : batch ∈ sheets.flatten) :
    batch.IsWhole design := by
  obtain ⟨press, printed, rfl⟩ := map_eq_ok_iff.mp run
  have blank : (Press.start design.options.pageHeight).AllWhole design := by
    simp [Press.AllWhole, Press.start, Press.sheets]
  exact Press.AllWhole.invariant.printAll blank printed batch member

/-- The script of a transcript that succeeds is the body of its sheets, block by block. -/
theorem script_eq_body {design : Design} {rows : List Row} {sheets : List Sheet}
    (run : transcript design rows = .ok sheets) :
    Account.script design true (.start design) rows = ((body sheets).map Batch.block).map .ok := by
  rw [List.map_map]
  refine List.forall₂_eq_eq_eq ▸ ?_
  rw [List.forall₂_map_right_iff]
  refine (body_transcript run).imp ?_
  rintro _ batch ⟨block, rfl, turn⟩
  exact congrArg Except.ok turn.block_eq.symm

end PagedReport
