import PagedReport.Proofs.Body

/-! # One report on pages of different heights

The height of the pages and the choice of repeated headers decide where a batch stands and whether
headers are repeated, and nothing else. Two layouts that differ in these options alone fail with the
same error or have the same body, cell by cell. Only a repeated group value may show again in one of
them, in a row that opened a page there.
-/

namespace PagedReport

/-- The same design for pages of another height with other repeated headers. -/
def Design.withPaging (design : Design) (pageHeight : Int)
    (repeatSectionHeader repeatColumnHeader : Bool) : Design :=
  { design with
    options := { design.options with pageHeight, repeatSectionHeader, repeatColumnHeader } }

/-- The cell `shown` has a repeated group value of a data row in parentheses and with italic switched
over, where the cell `hidden` leaves it out; in all else but their height they agree. -/
def ShownAgain (design : Design) (block : Block) (shown hidden : Cell) : Prop :=
  ∃ (row earlier : Row) (column : Column) (index : Nat) (text : String),
    block = .dataRow row (some earlier) ∧ (column, index) ∈ visibleColumns design.columns ∧
    column.isGroup = true ∧ (earlier.getD index .null).agrees (row.getD index .null) = true ∧
    design.displayText column (row.getD index .null) = .ok text ∧
    shown.text = "(" ++ text ++ ")" ∧ shown.font = design.options.bodyFont.italicToggled ∧
    { shown with text := "", font := design.options.bodyFont }.atY 0 = hidden.atY 0

/-- Two cells of a block made at any heights, with repeated values shown or not. -/
def Alike (design : Design) (block : Block) (showRepeats showOthers : Bool) (cell other : Cell) :
    Prop :=
  cell.atY 0 = other.atY 0 ∨
    (showRepeats = true ∧ showOthers = false ∧ ShownAgain design block cell other) ∨
    (showOthers = true ∧ showRepeats = false ∧ ShownAgain design block other cell)

section Cells

variable (design : Design)

private theorem shownAgain_of_repeated {column : Column} {index : Nat}
    (visible : (column, index) ∈ visibleColumns design.columns) {row : Row} {previous : Option Row}
    (repeated : Design.isRepeated column index row previous = true) {text : String}
    (display : design.displayText column (row.getD index .null) = .ok text) {shown hidden : Cell}
    (parentheses : shown.text = "(" ++ text ++ ")")
    (italic : shown.font = design.options.bodyFont.italicToggled)
    (rest : { shown with text := "", font := design.options.bodyFont }.atY 0 = hidden.atY 0) :
    ShownAgain design (.dataRow row previous) shown hidden := by
  simp only [Design.isRepeated, Bool.and_eq_true] at repeated
  obtain ⟨group, same⟩ := repeated
  cases previous with
  | none => cases same
  | some earlier =>
    exact ⟨row, earlier, column, index, text, rfl, visible, group, same, display, parentheses,
      italic, rest⟩

/-- A data cell is made or refused whichever way repeated values are shown. -/
private theorem dataCell_alike {column : Column} {index : Nat}
    (visible : (column, index) ∈ visibleColumns design.columns) (row : Row) (previous : Option Row)
    (y z : Int) (showRepeats showOthers : Bool) :
    Lockstep (Alike design (.dataRow row previous) showRepeats showOthers)
      (design.dataCell column index row previous y showRepeats)
      (design.dataCell column index row previous z showOthers) := by
  simp only [Design.dataCell]
  cases display : design.displayText column (row.getD index .null) with
  | error error => exact .error error
  | ok text =>
    refine .ok ?_
    by_cases repeated : Design.isRepeated column index row previous = true
    · cases showRepeats <;> cases showOthers
      · exact .inl (by simp [Cell.atY, Design.columnRect])
      · refine .inr (.inr ⟨rfl, rfl, ?_⟩)
        exact shownAgain_of_repeated design visible repeated display (by simp [repeated])
          (by simp [repeated]) (by simp [repeated, Cell.atY, Design.columnRect])
      · refine .inr (.inl ⟨rfl, rfl, ?_⟩)
        exact shownAgain_of_repeated design visible repeated display (by simp [repeated])
          (by simp [repeated]) (by simp [repeated, Cell.atY, Design.columnRect])
      · exact .inl (by simp [Cell.atY, Design.columnRect])
    · exact .inl (by simp [repeated, Cell.atY, Design.columnRect])

/-- A block has cells or not whichever way repeated values are shown, and wherever it stands. -/
theorem cells_alike (block : Block) (showRepeats showOthers : Bool) (y z : Int) :
    Lockstep (List.Forall₂ (Alike design block showRepeats showOthers))
      (design.cells block showRepeats y) (design.cells block showOthers z) := by
  by_cases isRow : block.isDataRow = true
  · cases block with
    | dataRow row previous =>
      exact Lockstep.mapM _ fun place visible =>
        dataCell_alike design visible row previous y z showRepeats showOthers
    | _ => cases isRow
  · have same : design.cells block showRepeats y = design.cells block showOthers y := by
      cases block <;> first | rfl | exact absurd rfl isRow
    rw [same, design.cells_atHeight block showOthers y, design.cells_atHeight block showOthers z]
    cases design.cells block showOthers 0 with
    | error error => exact .error error
    | ok cells =>
      refine .ok (List.forall₂_map_left_iff.mpr (List.forall₂_map_right_iff.mpr ?_))
      exact List.forall₂_same.mpr fun cell _ => .inl rfl

/-- The error of a block that has no cells does not depend on the press. -/
theorem print_eq_error {block : Block} {error : ReportError}
    (refused : design.cells block design.options.showGroupsAsRepeat 0 = .error error) (press : Press) :
    press.print design block = .error error := by
  have alike := cells_alike design block design.options.showGroupsAsRepeat
    design.options.showGroupsAsRepeat press.y 0
  rw [refused] at alike
  rw [Press.print, alike.error_of_error]
  rfl

/-- A block that has cells is printed on any press. -/
theorem exists_print {block : Block} {cells : List Cell}
    (made : design.cells block design.options.showGroupsAsRepeat 0 = .ok cells) (press : Press) :
    ∃ printed, press.print design block = .ok printed := by
  have madeAt (showRepeats : Bool) (y : Int) : ∃ cells, design.cells block showRepeats y = .ok cells := by
    have alike := cells_alike design block showRepeats design.options.showGroupsAsRepeat y 0
    rw [made] at alike
    obtain ⟨cells, found, _⟩ := alike.exists_ok
    exact ⟨cells, found⟩
  obtain ⟨cells, found⟩ := madeAt design.options.showGroupsAsRepeat press.y
  obtain ⟨again, shown⟩ := madeAt true (press.newSheet.repeatHeaders design).y
  simp only [Press.print, found, ok_bind, shown, pure_eq_ok]
  split <;> exact ⟨_, rfl⟩

variable (pageHeight : Int) (repeatSectionHeader repeatColumnHeader : Bool)

/-- A script is printed or refused on any press, whatever pages are chosen. -/
theorem printAll_alike (script : Script) (press other : Press) :
    Lockstep (fun _ _ => True) (press.printAll design script)
      (other.printAll (design.withPaging pageHeight repeatSectionHeader repeatColumnHeader) script) := by
  let design' := design.withPaging pageHeight repeatSectionHeader repeatColumnHeader
  induction script generalizing press other with
  | nil => exact .ok trivial
  | cons item rest ih =>
    cases item with
    | error error => exact .error error
    | ok block =>
      rw [Press.printAll_ok_cons, Press.printAll_ok_cons]
      cases made : design.cells block design.options.showGroupsAsRepeat 0 with
      | error error =>
        rw [print_eq_error design made press, print_eq_error design' made other]
        exact .error error
      | ok cells =>
        obtain ⟨printed, first⟩ := exists_print design made press
        obtain ⟨also, second⟩ := exists_print design' made other
        rw [first, second]
        exact ih printed also

end Cells

section Script

variable (design : Design) (pageHeight : Int) (repeatSectionHeader repeatColumnHeader : Bool)

private theorem flushGroups_withPaging (row : Row) (columns : List Nat) (totals : TotalsTracker) :
    Account.flushGroups (design.withPaging pageHeight repeatSectionHeader repeatColumnHeader) row
      columns totals = Account.flushGroups design row columns totals := by
  induction columns generalizing totals with
  | nil => rfl
  | cons column rest ih =>
    simp only [Account.flushGroups, ih]
    rfl

private theorem flush_withPaging (row : Row) (next : Option Row) (detector : SectionDetector)
    (totals : TotalsTracker) :
    Account.flush (design.withPaging pageHeight repeatSectionHeader repeatColumnHeader) row next
      detector totals = Account.flush design row next detector totals := by
  simp only [Account.flush, Account.flushSection, flushGroups_withPaging]
  rfl

/-- The script of a report says nothing about its pages. -/
theorem script_withPaging (isFirst : Bool) (account : Account) (rows : List Row) :
    Account.script (design.withPaging pageHeight repeatSectionHeader repeatColumnHeader) isFirst
      account rows = Account.script design isFirst account rows := by
  induction rows generalizing isFirst account with
  | nil => rfl
  | cons row rest ih =>
    simp only [Account.script, flush_withPaging, ih]
    rfl

end Script

/-- Two batches of one block agree cell by cell but for their height, and for group values that
only one of the two shows again because it opened a page. -/
def Batch.SameContent (design : Design) (a b : Batch) : Prop :=
  a.block = b.block ∧
    List.Forall₂ (fun cell other => cell.atY 0 = other.atY 0 ∨
      (a.placement = .overflow ∧ b.placement ≠ .overflow ∧
        design.options.showGroupsAsRepeat = false ∧ ShownAgain design a.block cell other) ∨
      (b.placement = .overflow ∧ a.placement ≠ .overflow ∧
        design.options.showGroupsAsRepeat = false ∧ ShownAgain design b.block other cell))
      a.cells b.cells

/-- Two whole batches of one block have the same content. -/
private theorem Batch.sameContent_of_isWhole {design : Design} {a b : Batch}
    (block : a.block = b.block) (whole : a.IsWhole design) (other : b.IsWhole design) :
    a.SameContent design b := by
  have alike := cells_alike design a.block (Batch.showsRepeats design a.placement)
    (Batch.showsRepeats design b.placement) a.top b.top
  rw [whole, block, other] at alike
  obtain ⟨cells, found, related⟩ := alike.exists_ok
  cases found
  refine ⟨block, related.imp fun cell other alike => ?_⟩
  have shown {placement : Placement} (off : design.options.showGroupsAsRepeat = false)
      (shows : Batch.showsRepeats design placement = true) : placement = .overflow := by
    simpa [Batch.showsRepeats, off] using shows
  have left {placement : Placement} (hides : Batch.showsRepeats design placement = false) :
      placement ≠ .overflow ∧ design.options.showGroupsAsRepeat = false := by
    simpa [Batch.showsRepeats] using hides
  rcases alike with same | ⟨shows, hides, again⟩ | ⟨shows, hides, again⟩
  · exact .inl same
  · obtain ⟨flow, off⟩ := left hides
    exact .inr (.inl ⟨shown off shows, flow, off, block.symm ▸ again⟩)
  · obtain ⟨flow, off⟩ := left hides
    exact .inr (.inr ⟨shown off shows, flow, off, again⟩)

section Layouts

variable (design : Design) (pageHeight : Int) (repeatSectionHeader repeatColumnHeader : Bool)

/-- The transcripts of one report for pages of different heights have the same body. -/
theorem transcript_withPaging (rows : List Row) :
    Lockstep (fun sheets others => List.Forall₂ (Batch.SameContent design) (body sheets) (body others))
      (transcript design rows)
      (transcript (design.withPaging pageHeight repeatSectionHeader repeatColumnHeader) rows) := by
  let other := design.withPaging pageHeight repeatSectionHeader repeatColumnHeader
  have same : Account.script other true (.start other) rows =
      Account.script design true (.start design) rows :=
    script_withPaging design pageHeight repeatSectionHeader repeatColumnHeader true _ rows
  have alike : Lockstep (fun _ _ => True) (transcript design rows) (transcript other rows) := by
    rw [transcript, transcript, same]
    exact (printAll_alike design pageHeight repeatSectionHeader repeatColumnHeader _ _ _).map
      fun _ _ _ => trivial
  apply alike.mono_of_ok
  intro sheets others _ first second
  have bodies := body_transcript second
  rw [same] at bodies
  refine forall₂_of_common ?_ (body_transcript first) bodies
  rintro _ a b ⟨block, rfl, turn⟩ ⟨_, found, turn'⟩
  cases found
  exact Batch.sameContent_of_isWhole (turn.block_eq.trans turn'.block_eq.symm) turn.whole turn'.whole

end Layouts

end PagedReport
