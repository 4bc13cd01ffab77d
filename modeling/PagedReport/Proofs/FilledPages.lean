import PagedReport.Proofs.PageTop

/-! # Pages without cells

A page is opened for a batch, which then stands on it. Only a data row can open a page and put nothing
there: if no column is shown, it has no cells, and without a repeated section header the page stays
empty. The first page always holds the header of the first section.
-/

namespace PagedReport

/-- There is at least one cell on the sheet. -/
def Sheet.IsFilled (sheet : Sheet) : Prop := sheet.cells ≠ []

theorem Sheet.isFilled_concat {sheet : Sheet} {batch : Batch} :
    Sheet.IsFilled (sheet ++ [batch]) ↔ sheet.IsFilled ∨ batch.cells ≠ [] := by
  rw [Sheet.IsFilled, Sheet.IsFilled, ← not_and_or, not_iff_not]
  simp [Sheet.cells]

namespace Press

variable {design : Design} {press printed : Press} {block : Block} {cells : List Cell}

/-- There is a cell on every sheet. -/
def AllFilled (press : Press) : Prop := ∀ sheet ∈ press.sheets, sheet.IsFilled

/-- There is a cell on every closed sheet, and on the open one unless nothing stands there yet. -/
structure ClosedFilled (press : Press) : Prop where
  closed : ∀ sheet ∈ press.closed, sheet.IsFilled
  last : press.last.IsFilled ∨ press.y = 0

theorem allFilled_iff :
    press.AllFilled ↔ (∀ sheet ∈ press.closed, sheet.IsFilled) ∧ press.last.IsFilled := by
  simp [AllFilled, sheets, or_imp, forall_and]

theorem AllFilled.closedFilled (filled : press.AllFilled) : press.ClosedFilled :=
  ⟨(allFilled_iff.mp filled).1, .inl (allFilled_iff.mp filled).2⟩

theorem AllFilled.newSheet (filled : press.AllFilled) : press.newSheet.ClosedFilled :=
  ⟨filled, .inr rfl⟩

/-- A page is left only if something stands on it. -/
theorem ClosedFilled.allFilled_of_needsBreak (filled : press.ClosedFilled) {height : Int}
    (full : press.paginator.needsBreak height = true) : press.AllFilled := by
  refine allFilled_iff.mpr ⟨filled.closed, filled.last.resolve_right ?_⟩
  intro top
  simp [Paginator.needsBreak, paginator, top] at full

/-- A batch with cells fills the sheet on which it is put. -/
theorem ClosedFilled.allFilled_put (filled : press.ClosedFilled) (block : Block)
    (placement : Placement) (occupied : cells ≠ []) :
    (press.put block placement cells).AllFilled := by
  simp only [put]
  split
  · next broken =>
    refine allFilled_iff.mpr ⟨filled.allFilled_of_needsBreak broken.2, ?_⟩
    exact Sheet.isFilled_concat.mpr (.inr (by simpa using occupied))
  · refine allFilled_iff.mpr ⟨filled.closed, ?_⟩
    exact Sheet.isFilled_concat.mpr (.inr (by simpa using occupied))

/-- A batch without cells goes below what is there and takes no room. -/
theorem put_nil (press : Press) (block : Block) (placement : Placement) :
    press.put block placement [] =
      { press with last := press.last ++ [⟨block, placement, press.y, []⟩] } := by
  simp [put, stack, press.kept]

theorem AllFilled.put (filled : press.AllFilled) (block : Block) (placement : Placement)
    (cells : List Cell) : (press.put block placement cells).AllFilled := by
  by_cases occupied : cells = []
  · obtain ⟨closed, last⟩ := allFilled_iff.mp filled
    rw [occupied, put_nil]
    exact allFilled_iff.mpr ⟨closed, Sheet.isFilled_concat.mpr (.inl last)⟩
  · exact filled.closedFilled.allFilled_put block placement occupied

theorem ClosedFilled.put (filled : press.ClosedFilled) (block : Block) (placement : Placement)
    (cells : List Cell) : (press.put block placement cells).ClosedFilled := by
  by_cases occupied : cells = []
  · rw [occupied, put_nil]
    exact ⟨filled.closed, filled.last.imp_left fun last => Sheet.isFilled_concat.mpr (.inl last)⟩
  · exact (filled.allFilled_put block placement occupied).closedFilled

/-- A repeated section header fills a page before anything else is put on it. -/
theorem ClosedFilled.allFilled_repeatHeaders (filled : press.ClosedFilled)
    (isOpen : press.heading.isSome = true) (named : design.options.repeatSectionHeader = true) :
    (press.repeatHeaders design).AllFilled := by
  obtain ⟨key, heading⟩ := Option.isSome_iff_exists.mp isOpen
  have header := filled.allFilled_put (.sectionHeader key) .copy
    (List.cons_ne_nil (design.sectionHeader key press.y) [])
  simp only [repeatHeaders, heading, named, ↓reduceIte]
  split
  · exact header.put _ _ _
  · exact header

end Press

/-- A data row has a cell if a column is shown. -/
theorem Design.dataRow_ne_nil {design : Design} {column : Column} (member : column ∈ design.columns)
    (visible : column.isVisible = true) {row : Row} {previous : Option Row} {y : Int}
    {showRepeats : Bool} {cells : List Cell}
    (made : design.dataRow row previous y showRepeats = .ok cells) : cells ≠ [] := by
  obtain ⟨index, found⟩ := List.getElem?_of_mem member
  have shown : (column, index) ∈ visibleColumns design.columns :=
    List.mem_filter.mpr ⟨List.mk_mem_zipIdx_iff_getElem?.mpr found, visible⟩
  obtain ⟨cell, inside, _⟩ := exists_of_mem_left (mapM_eq_ok_iff.mp made) shown
  exact List.ne_nil_of_mem inside

/-- Something stands on every page that a data row opens: a cell of it, or a section header. -/
def Design.FillsPages (design : Design) : Prop :=
  (∃ column ∈ design.columns, column.isVisible = true) ∨ design.options.repeatSectionHeader = true

namespace Press

variable {design : Design} {press printed : Press} {block : Block}

/-- A section stays open. -/
private theorem isSome_heading_print (isOpen : press.heading.isSome = true)
    (run : press.print design block = .ok printed) : printed.heading.isSome = true := by
  obtain ⟨cells, made, placed⟩ := bind_eq_ok_iff.mp run
  split at placed
  · obtain ⟨cells, again, same⟩ := bind_eq_ok_iff.mp placed
    cases same
    rw [heading_put, heading_repeatHeaders]
    exact isOpen
  · cases placed
    rw [note_eq]
    simp [skip, isOpen]

/-- A block that is printed in an open section leaves no sheet without cells. -/
private theorem allFilled_print (fills : design.FillsPages) (filled : press.AllFilled)
    (isOpen : press.heading.isSome = true) (run : press.print design block = .ok printed) :
    printed.AllFilled := by
  obtain ⟨cells, made, placed⟩ := bind_eq_ok_iff.mp run
  split at placed
  · next full =>
    obtain ⟨cells, again, same⟩ := bind_eq_ok_iff.mp placed
    cases same
    have fresh := filled.newSheet
    rcases fills with ⟨column, member, visible⟩ | named
    · have repeated : (press.newSheet.repeatHeaders design).ClosedFilled :=
        repeatHeaders_keeps (fun _ _ _ _ filled => filled.put _ _ _) fresh
      refine repeated.allFilled_put _ _ ?_
      cases block with
      | dataRow row previous => exact Design.dataRow_ne_nil member visible again
      | _ => cases (Bool.and_eq_true_iff.mp full).1
    · exact (fresh.allFilled_repeatHeaders isOpen named).put _ _ _
  · cases placed
    cases block <;> exact filled.put _ _ _

/-- A script that is printed in an open section leaves no sheet without cells. -/
private theorem allFilled_printAll (fills : design.FillsPages) {script : Script}
    (filled : press.AllFilled) (isOpen : press.heading.isSome = true)
    (run : press.printAll design script = .ok printed) : printed.AllFilled := by
  induction script generalizing press with
  | nil => cases run; exact filled
  | cons item rest ih =>
    cases item with
    | error error => cases run
    | ok block =>
      obtain ⟨next, first, others⟩ := bind_eq_ok_iff.mp run
      exact ih (allFilled_print fills filled isOpen first) (isSome_heading_print isOpen first) others

end Press

/-- The first of several rows starts the script with the header of its section. -/
theorem Account.exists_script_cons (design : Design) (row : Row) (rest : List Row) :
    ∃ others, script design true (.start design) (row :: rest) =
      .ok (.sectionHeader (.ofRow design.columns row)) :: others := by
  simp only [script, start, SectionDetector.observe, SectionDetector.empty, Bool.not_true,
    Bool.false_and, Bool.false_eq_true, ↓reduceIte, Bool.true_or, headers]
  split <;> exact ⟨_, rfl⟩

/-- The first sheet holds at least one cell. -/
def Press.FirstFilled (press : Press) : Prop := ∀ sheet ∈ press.sheets.head?, sheet.IsFilled

namespace Press.FirstFilled

variable {design : Design} {press : Press}

theorem newSheet (filled : press.FirstFilled) : press.newSheet.FirstFilled := by
  intro sheet member
  apply filled sheet
  have nonempty : press.sheets ≠ [] := by simp [sheets]
  have first : press.newSheet.sheets.head? = press.sheets.head? :=
    List.head?_append_of_ne_nil _ nonempty
  exact first ▸ member

theorem stack (filled : press.FirstFilled) (block : Block) (placement : Placement)
    (cells : List Cell) : (press.stack block placement cells).FirstFilled := by
  simp only [FirstFilled, sheets, Press.stack] at filled ⊢
  cases closed : press.closed with
  | nil =>
    simp only [closed, List.nil_append, List.head?_cons, Option.mem_some, forall_eq'] at filled ⊢
    exact Sheet.isFilled_concat.mpr (.inl filled)
  | cons sheet others =>
    rw [closed] at filled
    exact filled

theorem invariant : Press.Invariant design FirstFilled where
  put filled _ := by
    simp only [Press.put]
    split
    · exact filled.newSheet.stack _ _ _
    · exact filled.stack _ _ _
  newSheet filled := filled.newSheet
  gap _ filled := filled
  note block filled := by cases block <;> exact filled

end Press.FirstFilled

/-- The first page of a layout over some rows holds a cell, and so does every other page if a column
is shown or section headers are repeated. -/
theorem layOut_pages_filled {design : Design} {cursor : Cursor} {pages : List Page}
    (occupied : cursor.set.rows ≠ []) (success : (Report.new cursor design).layOut.1 = .ok pages) :
    (∃ first rest, pages = first :: rest ∧ first ≠ []) ∧
      ((∃ column ∈ design.columns, column.isVisible = true) ∨
          design.options.repeatSectionHeader = true → ∀ page ∈ pages, page ≠ []) := by
  obtain ⟨sheets, run, rfl⟩ := Report.exists_transcript success
  obtain ⟨press, printed, rfl⟩ := map_eq_ok_iff.mp run
  obtain ⟨row, others, rows⟩ := List.exists_cons_of_ne_nil occupied
  obtain ⟨script, same⟩ := Account.exists_script_cons design row others
  rw [rows, same, Press.printAll_ok_cons, Press.print_sectionHeader, ok_bind] at printed
  have blank : (Press.start design.options.pageHeight).ClosedFilled :=
    ⟨fun _ member => (List.not_mem_nil member).elim, .inr rfl⟩
  let key := SectionKey.ofRow design.columns row
  let named := ((Press.start design.options.pageHeight).put (.sectionHeader key) .flow
    [design.sectionHeader key 0]).note (.sectionHeader key)
  have filled : named.AllFilled :=
    blank.allFilled_put (.sectionHeader key) .flow (List.cons_ne_nil _ _)
  have printed : named.printAll design script = .ok press := printed
  constructor
  · have kept := Press.FirstFilled.invariant.printAll
      (fun sheet member => filled sheet (List.mem_of_mem_head? member)) printed
    have nonempty : press.sheets ≠ [] := by simp [Press.sheets]
    obtain ⟨first, rest, found⟩ := List.exists_cons_of_ne_nil nonempty
    refine ⟨first.cells, rest.map Sheet.cells, by rw [found]; rfl, kept first ?_⟩
    rw [found]
    rfl
  · intro fills page member
    obtain ⟨sheet, inside, rfl⟩ := List.mem_map.mp member
    exact Press.allFilled_printAll fills filled rfl printed sheet inside

/-- Three sales fill eighteen pages, each too low for what stands on it. -/
theorem layOut_sales_pages_filled :
    (Cursor.ofSet salesSet).set.rows ≠ [] ∧
      ((∃ column ∈ (salesDesign 1).columns, column.isVisible = true) ∨
        (salesDesign 1).options.repeatSectionHeader = true) ∧
      ∃ pages, (Report.new (Cursor.ofSet salesSet) (salesDesign 1)).layOut.1 = .ok pages ∧
        pages.length = 18 ∧ ∀ page ∈ pages, page ≠ [] := by
  have occupied : (Cursor.ofSet salesSet).set.rows ≠ [] := List.cons_ne_nil _ _
  have fills : (∃ column ∈ (salesDesign 1).columns, column.isVisible = true) ∨
      (salesDesign 1).options.repeatSectionHeader = true := .inr rfl
  have success : (Report.new (Cursor.ofSet salesSet) (salesDesign 1)).layOut.1 = .ok _ := rfl
  exact ⟨occupied, fills, _, success, rfl, (layOut_pages_filled occupied success).2 fills⟩

/-- A report by region alone, which shows no column, on pages that its section header fills. -/
def regionDesign : Design where
  columns := [{ Column.plain "Region" 40 with role := .sectionBreak }]
  options := { pageHeight := 10, repeatSectionHeader := false }
  metrics := FixedPitch.standard.metrics

/-- One region. -/
def regionSet : ResultSet where
  columns := ["Region"]
  rows := [[.text "A"]]
  rectangular := by decide

/-- The row of a region has no cells, and leaves the page empty that it opens for itself. -/
theorem layOut_region_empty_page :
    regionSet.rows ≠ [] ∧ 1 ≤ regionDesign.options.pageHeight ∧ regionDesign.metrics.PositiveLines ∧
      ∃ pages, (Report.new (Cursor.ofSet regionSet) regionDesign).layOut.1 = .ok pages ∧ [] ∈ pages := by
  have lines : regionDesign.metrics.PositiveLines := fun _ => show (1 : Int) ≤ 12 by decide
  exact ⟨List.cons_ne_nil _ _, by decide, lines, _, rfl, by decide⟩

end PagedReport
