import PagedReport.Proofs.Course

/-! # The first data row of a page

A data row comes to be the first one of its page in one of three ways. It may not have fitted the
page before, and then it stands below copies of the headers. It may be the first row of its section,
and then it stands below the headers of the section or, if the column headers opened the page, below
these alone. Or a totals line of a group opened the page, and then nothing but such lines stands
above it. This module proves that there are no other ways.
-/

namespace PagedReport

/-- The key that a section header names. -/
def Block.sectionKey? : Block → Option SectionKey
  | .sectionHeader key => some key
  | _ => none

/-- The section that is open after some sheets: that of the last section header, copies aside. -/
def openSection (sheets : List Sheet) : Option SectionKey :=
  ((body sheets).filterMap fun batch => batch.block.sectionKey?).getLast?

namespace Sheet

/-- There is no data row on the sheet. -/
def HasNoRow (sheet : Sheet) : Prop := ∀ batch ∈ sheet, batch.block.isDataRow = false

/-- The header of a section and those of the columns are on the sheet. -/
def ShowsHeaders (design : Design) (key : SectionKey) (sheet : Sheet) : Prop :=
  (∃ placement top,
    ⟨.sectionHeader key, placement, top, [design.sectionHeader key top]⟩ ∈ sheet) ∧
  ∃ placement top, ⟨.columnHeader, placement, top, design.columnHeader top⟩ ∈ sheet

/-- The column headers are all that is on the sheet. -/
def HasColumnHeaderOnly (design : Design) (sheet : Sheet) : Prop :=
  ∃ top, sheet = [⟨.columnHeader, .flow, top, design.columnHeader top⟩]

/-- There is something on the sheet, and all of it is totals of groups. -/
def HasGroupTotalsOnly (sheet : Sheet) : Prop :=
  sheet ≠ [] ∧ ∀ batch ∈ sheet, ∃ line, batch.block = .groupTotals line

end Sheet

/-- The height of a section header and of the column headers below it. -/
def Design.headersHeight (design : Design) (key : SectionKey) : Int :=
  batchHeight [design.sectionHeader key 0] + batchHeight (design.columnHeader 0)

/-- A page has room for the headers of a section, once with a second section header and once with a
batch of these cells below them. The height of the headers is not below the range of coordinates. -/
def HasRoom (design : Design) (key : SectionKey) (cells : List Cell) : Prop :=
  Coordinate.least ≤ design.headersHeight key ∧
    design.headersHeight key + max (batchHeight [design.sectionHeader key 0]) (batchHeight cells) <
      design.options.pageHeight

/-- How a data row came to be the first one of its page, below the batches `above`. -/
inductive TopRow (design : Design) (key : SectionKey) (above : Sheet) (batch : Batch)
    (previous : Option Row) : Prop
  /-- It did not fit the page before. Where there is room for them, copies of headers stand above. -/
  | overflow (placement : batch.placement = .overflow)
      (headed : design.options.repeatSectionHeader = true → design.options.repeatColumnHeader = true →
        HasRoom design key batch.cells → above.ShowsHeaders design key)
  /-- It is the first row of its section, and headers stand above. -/
  | first (start : previous = none)
      (headed : above.ShowsHeaders design key ∨ above.HasColumnHeaderOnly design)
  /-- It goes on with its section below the totals of groups that opened the page. -/
  | later (totals : above.HasGroupTotalsOnly)

/-- The first data row of a sheet, if there is one, belongs to the open section and came there in one
of the known ways. The sheets `before` are those before it. -/
def Sheet.TopKnown (design : Design) (before : List Sheet) (sheet : Sheet) : Prop :=
  ∀ above batch below row previous, sheet = above ++ batch :: below → Sheet.HasNoRow above →
    batch.block = .dataRow row previous → ∃ key, openSection (before ++ [above]) = some key ∧
      key.agrees (.ofRow design.columns row) = true ∧ TopRow design key above batch previous

/-- An element of a list with one added at the end is this one, or one of the list before. -/
private theorem eq_or_mem_of_concat_eq {α : Type} {items before after : List α} {last item : α}
    (same : items ++ [last] = before ++ item :: after) :
    items = before ∧ last = item ∨ ∃ others, items = before ++ item :: others := by
  rcases List.eq_nil_or_concat after with rfl | ⟨others, other, rfl⟩
  · obtain ⟨front, single⟩ := List.append_inj' same rfl
    exact .inl ⟨front, List.singleton_inj.mp single⟩
  · rw [List.concat_eq_append, ← List.cons_append, ← List.append_assoc] at same
    exact .inr ⟨others, (List.append_inj' same rfl).1⟩

namespace Sheet

theorem topKnown_of_hasNoRow {design : Design} {before : List Sheet} {sheet : Sheet}
    (none : sheet.HasNoRow) : sheet.TopKnown design before := by
  rintro above batch below row previous rfl _ isRow
  have other := none batch (List.mem_append_right _ List.mem_cons_self)
  rw [isRow] at other
  cases other

theorem hasNoRow_append {sheet others : Sheet} :
    HasNoRow (sheet ++ others) ↔ sheet.HasNoRow ∧ others.HasNoRow :=
  List.forall_mem_append

/-- A batch added to a sheet is its first data row only if there was none. -/
theorem TopKnown.concat {design : Design} {before : List Sheet} {sheet : Sheet} {added : Batch}
    (known : sheet.TopKnown design before)
    (first : sheet.HasNoRow → ∀ row previous, added.block = .dataRow row previous →
      ∃ key, openSection (before ++ [sheet]) = some key ∧
        key.agrees (.ofRow design.columns row) = true ∧ TopRow design key sheet added previous) :
    TopKnown design before (sheet ++ [added]) := by
  intro above batch below row previous same none isRow
  rcases eq_or_mem_of_concat_eq same with ⟨rfl, rfl⟩ | ⟨others, earlier⟩
  · exact first none row previous isRow
  · exact known above batch others row previous earlier none isRow

end Sheet

namespace Press

variable {design : Design}

/-- The first data rows of all sheets of a press came there in one of the known ways. -/
structure TopsKnown (design : Design) (press : Press) : Prop where
  closed : ∀ before sheet after, press.closed = before ++ sheet :: after →
    sheet.TopKnown design before
  last : press.last.TopKnown design press.closed

namespace TopsKnown

variable {press : Press}

theorem newSheet (known : press.TopsKnown design) : press.newSheet.TopsKnown design where
  closed before sheet after same := by
    rcases eq_or_mem_of_concat_eq same with ⟨rfl, rfl⟩ | ⟨others, earlier⟩
    · exact known.last
    · exact known.closed before sheet others earlier
  last := Sheet.topKnown_of_hasNoRow (by simp [Sheet.HasNoRow, Press.newSheet])

/-- A batch can be added that is no data row, or for which it is known how it came there. -/
theorem stack (known : press.TopsKnown design) {block : Block} {placement : Placement}
    {cells : List Cell}
    (first : press.last.HasNoRow → ∀ row previous, block = .dataRow row previous →
      ∃ key, openSection press.sheets = some key ∧ key.agrees (.ofRow design.columns row) = true ∧
        TopRow design key press.last ⟨block, placement, press.y, atHeight press.y cells⟩ previous) :
    (press.stack block placement cells).TopsKnown design where
  closed := known.closed
  last := known.last.concat first

/-- A batch that is no data row can be put anywhere. -/
theorem put (known : press.TopsKnown design) {block : Block} {placement : Placement}
    {cells : List Cell} (other : block.isDataRow = false) :
    (press.put block placement cells).TopsKnown design := by
  have never (row : Row) (previous : Option Row) (same : block = .dataRow row previous) : False := by
    rw [same] at other
    cases other
  simp only [Press.put]
  split
  · exact known.newSheet.stack fun _ row previous same => (never row previous same).elim
  · exact known.stack fun _ row previous same => (never row previous same).elim

end TopsKnown

/-- A block that has been printed names the section whose headers are repeated, or leaves it. -/
theorem note_eq (press : Press) (block : Block) :
    press.note block = { press with heading := block.sectionKey?.or press.heading } := by
  cases block <;> rfl

/-- A batch that is put down stands below what was on the sheet, or alone on a new one. -/
theorem exists_last_put (press : Press) (block : Block) (placement : Placement) (cells : List Cell) :
    ∃ top, (press.put block placement cells).last =
        press.last ++ [⟨block, placement, top, atHeight top cells⟩] ∨
      (press.put block placement cells).last = [⟨block, placement, top, atHeight top cells⟩] := by
  simp only [put]
  split
  · exact ⟨press.newSheet.y, .inr rfl⟩
  · exact ⟨press.y, .inl rfl⟩

@[simp] theorem pageHeight_put (press : Press) (block : Block) (placement : Placement)
    (cells : List Cell) : (press.put block placement cells).pageHeight = press.pageHeight := by
  simp only [put]
  split <;> rfl

theorem put_of_room {press : Press} {cells : List Cell}
    (room : press.paginator.needsBreak (batchHeight cells) = false) (block : Block)
    (placement : Placement) : press.put block placement cells = press.stack block placement cells :=
  if_neg fun both => Bool.false_ne_true (room.symm.trans both.2)

/-- A section header that is put down opens its section, and other blocks open none. -/
theorem openSection_put (press : Press) (block : Block) {placement : Placement} (cells : List Cell)
    (turn : placement ≠ .copy) :
    openSection (press.put block placement cells).sheets =
      block.sectionKey?.or (openSection press.sheets) := by
  obtain ⟨top, found⟩ := exists_body_put press block placement cells turn
  rw [openSection, found, List.filterMap_append, List.getLast?_append]
  cases key : block.sectionKey? <;> simp [key, openSection]

/-- What copies of headers keep is kept when the headers are repeated. -/
theorem repeatHeaders_keeps {P : Press → Prop}
    (copy : ∀ press block cells, block.isDataRow = false → P press → P (press.put block .copy cells))
    {press : Press} (kept : P press) : P (press.repeatHeaders design) := by
  simp only [repeatHeaders]
  split
  · exact kept
  · next key heading =>
    have named : P (if design.options.repeatSectionHeader then
        press.put (.sectionHeader key) .copy [design.sectionHeader key press.y] else press) := by
      split
      · exact copy _ _ _ rfl kept
      · exact kept
    split
    · exact copy _ _ _ rfl named
    · exact named

theorem heading_repeatHeaders (press : Press) :
    (press.repeatHeaders design).heading = press.heading :=
  repeatHeaders_keeps (P := fun other => other.heading = press.heading)
    (fun _ _ _ _ same => (heading_put ..).trans same) rfl

theorem pageHeight_repeatHeaders (press : Press) :
    (press.repeatHeaders design).pageHeight = press.pageHeight :=
  repeatHeaders_keeps (P := fun other => other.pageHeight = press.pageHeight)
    (fun _ _ _ _ same => (pageHeight_put ..).trans same) rfl

theorem openSection_repeatHeaders (press : Press) :
    openSection (press.repeatHeaders design).sheets = openSection press.sheets := by
  rw [openSection, body_repeatHeaders, openSection]

/-- On an empty sheet with room for them, both headers are repeated one below the other. -/
theorem showsHeaders_repeatHeaders {press : Press} {key : SectionKey}
    (heading : press.heading = some key) (top : press.y = 0)
    (named : design.options.repeatSectionHeader = true)
    (titled : design.options.repeatColumnHeader = true)
    (room : 0 < batchHeight [design.sectionHeader key 0] →
      design.headersHeight key < press.pageHeight) :
    (press.repeatHeaders design).last.ShowsHeaders design key ∧
      (press.repeatHeaders design).y = Coordinate.wrap (design.headersHeight key) := by
  have first : press.paginator.needsBreak (batchHeight [design.sectionHeader key 0]) = false := by
    simp [Paginator.needsBreak, paginator, top]
  let below := press.stack (.sectionHeader key) .copy [design.sectionHeader key 0]
  have height : below.y = batchHeight [design.sectionHeader key 0] := by
    have made : design.cells (.sectionHeader key) false 0 = .ok [design.sectionHeader key 0] := rfl
    simp only [below, stack, top, zero_add]
    exact Coordinate.wrap_of_inRange (Design.inRange_batchHeight_cells made)
  have second : below.paginator.needsBreak (batchHeight (design.columnHeader 0)) = false := by
    have made : design.cells .columnHeader false 0 = .ok (design.columnHeader 0) := rfl
    by_cases down : 0 < below.y
    · apply Paginator.room_of_lt (Design.inRange_batchHeight_cells made).1
      rw [height] at down
      exact (congrArg (· + _) height).trans_lt (room down)
    · simp [Paginator.needsBreak, paginator, down]
  have columns : design.columnHeader below.y = atHeight below.y (design.columnHeader 0) :=
    design.columnHeader_atHeight below.y
  have repeated : press.repeatHeaders design =
      below.stack .columnHeader .copy (design.columnHeader 0) := by
    simp only [repeatHeaders, heading, named, titled, ↓reduceIte, top]
    rw [put_of_room first, design.columnHeader_atHeight, put_atHeight, put_of_room second]
  rw [repeated]
  refine ⟨⟨⟨.copy, 0, ?_⟩, ⟨.copy, below.y, ?_⟩⟩, ?_⟩
  · simp [stack, below, top, atHeight, ← design.sectionHeader_atY]
  · simp [stack, columns]
  · rw [Design.headersHeight, ← height]
    rfl

end Press

/-- What stands on a sheet without a data row at a stage of the report. -/
def Stage.Top (design : Design) (sheet : Sheet) : Stage → Prop
  | .between => True
  | .named key =>
    ∃ placement top, ⟨.sectionHeader key, placement, top, [design.sectionHeader key top]⟩ ∈ sheet
  | .opened key => sheet.ShowsHeaders design key ∨ sheet.HasColumnHeaderOnly design
  | .within .. => sheet.HasGroupTotalsOnly

namespace Follows

variable {design : Design} {stage next : Stage} {block : Block}

/-- The section that is open after a block is that of its header, or the one that was open. -/
theorem key?_eq {columns : List Column} (follows : Follows columns stage block next) {key : SectionKey}
    (named : key ∈ next.key?) : block.sectionKey?.or stage.key? = some key := by
  cases follows with
  | sectionTotals => cases named
  | grandTotals => cases named
  | _ => simpa [Stage.key?, Block.sectionKey?] using named

/-- A block that is no data row, below what stands on a sheet or alone on it, gives what belongs there
at the next stage. -/
theorem top {columns : List Column} (follows : Follows columns stage block next)
    (other : block.isDataRow = false) {showRepeats : Bool} {height : Int} {cells : List Cell}
    (made : design.cells block showRepeats height = .ok cells) {above sheet : Sheet}
    (stands : above.HasNoRow → stage.Top design above)
    (placed : sheet = above ++ [⟨block, .flow, height, cells⟩] ∨ sheet = [⟨block, .flow, height, cells⟩])
    (none : sheet.HasNoRow) : next.Top design sheet := by
  have added : ⟨block, .flow, height, cells⟩ ∈ sheet := by
    rcases placed with rfl | rfl <;> simp
  have before (below : sheet = above ++ [⟨block, .flow, height, cells⟩]) : stage.Top design above := by
    rw [below, Sheet.hasNoRow_append] at none
    exact stands none.1
  cases follows with
  | sectionHeader key =>
    cases made
    exact ⟨.flow, height, added⟩
  | columnHeader key =>
    cases made
    rcases placed with below | alone
    · obtain ⟨placement, top, header⟩ := before below
      refine .inl ⟨⟨placement, top, ?_⟩, ⟨.flow, height, added⟩⟩
      rw [below]
      exact List.mem_append_left _ header
    · exact .inr ⟨height, alone⟩
  | firstRow => cases other
  | nextRow => cases other
  | groupTotals key row line =>
    refine ⟨List.ne_nil_of_mem added, ?_⟩
    intro batch member
    rcases placed with below | alone
    · rw [below] at member
      rcases List.mem_append.mp member with earlier | last
      · exact (before below).2 batch earlier
      · rw [List.mem_singleton.mp last]
        exact ⟨line, rfl⟩
    · rw [alone] at member
      rw [List.mem_singleton.mp member]
      exact ⟨line, rfl⟩
  | sectionTotals => trivial
  | grandTotals => trivial

end Follows

/-- A press that has come to a stage of a report. -/
structure Press.At (design : Design) (stage : Stage) (press : Press) : Prop where
  pageHeight : press.pageHeight = design.options.pageHeight
  heading : ∀ key ∈ stage.key?, press.heading = some key
  opened : ∀ key ∈ stage.key?, openSection press.sheets = some key
  tops : press.TopsKnown design
  top : press.last.HasNoRow → stage.Top design press.last

namespace Press.At

variable {design : Design} {stage next : Stage} {press printed : Press} {block : Block}

theorem start : (Press.start design.options.pageHeight).At design .between where
  pageHeight := rfl
  heading _ named := by cases named
  opened _ named := by cases named
  tops := by
    refine ⟨?_, Sheet.topKnown_of_hasNoRow (by simp [Sheet.HasNoRow, Press.start])⟩
    intro before sheet after same
    simp [Press.start] at same
  top _ := trivial

private theorem or_eq_some {α : Type} {first second third : Option α} {a : α}
    (same : first.or second = some a) (rest : ∀ b ∈ second, third = some b) :
    first.or third = some a := by
  cases first with
  | none => exact rest a same
  | some b => exact same

/-- A block that is no data row goes below what is there or opens a page. -/
private theorem flow (reached : press.At design stage) (follows : Follows design.columns stage block next)
    (other : block.isDataRow = false) {cells : List Cell} {showRepeats : Bool}
    (made : design.cells block showRepeats press.y = .ok cells) :
    (((press.put block .flow cells).skip block.gap).note block).At design next := by
  have tops : (press.put block .flow cells).TopsKnown design := reached.tops.put other
  have opens : openSection (press.put block .flow cells).sheets =
      block.sectionKey?.or (openSection press.sheets) :=
    openSection_put press block cells (by decide)
  obtain ⟨height, placed⟩ := exists_last_put press block .flow cells
  have remade : design.cells block showRepeats height = .ok (atHeight height cells) :=
    Design.cells_eq_ok_atHeight made height
  rw [note_eq]
  constructor
  · exact (pageHeight_put press block .flow cells).trans reached.pageHeight
  · intro key named
    change block.sectionKey?.or (press.put block .flow cells).heading = some key
    rw [heading_put]
    exact or_eq_some (follows.key?_eq named) reached.heading
  · intro key named
    exact opens.trans (or_eq_some (follows.key?_eq named) reached.opened)
  · exact ⟨tops.closed, tops.last⟩
  · exact follows.top other remade reached.top placed

end Press.At

/-- A press with an open section, whatever stands on its last sheet. -/
structure Press.Open (design : Design) (key : SectionKey) (press : Press) : Prop where
  pageHeight : press.pageHeight = design.options.pageHeight
  heading : press.heading = some key
  opened : openSection press.sheets = some key
  tops : press.TopsKnown design

namespace Press.Open

variable {design : Design} {key : SectionKey} {press : Press}

theorem newSheet (isOpen : press.Open design key) : press.newSheet.Open design key where
  pageHeight := isOpen.pageHeight
  heading := isOpen.heading
  opened := by
    rw [openSection, body_newSheet]
    exact isOpen.opened
  tops := isOpen.tops.newSheet

theorem repeatHeaders (isOpen : press.Open design key) :
    (press.repeatHeaders design).Open design key where
  pageHeight := (pageHeight_repeatHeaders press).trans isOpen.pageHeight
  heading := (heading_repeatHeaders press).trans isOpen.heading
  opened := (openSection_repeatHeaders press).trans isOpen.opened
  tops := repeatHeaders_keeps (fun _ _ _ other known => known.put other) isOpen.tops

/-- A data row can be added if it is known how it comes to be the first one of its page. -/
theorem stackRow (isOpen : press.Open design key) {row : Row} {previous : Option Row}
    {placement : Placement} (turn : placement ≠ .copy)
    (agree : key.agrees (.ofRow design.columns row) = true) {cells : List Cell}
    (first : press.last.HasNoRow → TopRow design key press.last
      ⟨.dataRow row previous, placement, press.y, atHeight press.y cells⟩ previous) :
    (press.stack (.dataRow row previous) placement cells).At design (.within key row) where
  pageHeight := isOpen.pageHeight
  heading _ same := Option.some.inj same ▸ isOpen.heading
  opened _ same := by
    rw [← same, openSection, body_stack]
    simpa [openSection, Block.sectionKey?, Stage.key?, turn] using isOpen.opened
  tops := by
    apply isOpen.tops.stack
    rintro none _ _ ⟨⟩
    exact ⟨key, isOpen.opened, agree, first none⟩
  top none := by
    have isRow := none _ (List.mem_append_right _ List.mem_cons_self)
    cases isRow

/-- A row for which there is no room goes below the headers that are repeated for it. -/
theorem overflow (isOpen : press.Open design key) {row : Row} {previous : Option Row}
    (agree : key.agrees (.ofRow design.columns row) = true) {showRepeats : Bool} {y : Int}
    {cells : List Cell} (made : design.cells (.dataRow row previous) showRepeats y = .ok cells) :
    ((press.newSheet.repeatHeaders design).put (.dataRow row previous) .overflow cells).At design
      (.within key row) := by
  have fresh := isOpen.newSheet.repeatHeaders
  have repeated (named : design.options.repeatSectionHeader = true)
      (titled : design.options.repeatColumnHeader = true) (top : Int)
      (room : HasRoom design key (atHeight top cells)) :
      (press.newSheet.repeatHeaders design).last.ShowsHeaders design key ∧
        (press.newSheet.repeatHeaders design).paginator.needsBreak (batchHeight cells) = false := by
    obtain ⟨low, room⟩ := room
    rw [batchHeight_atHeight] at room
    obtain ⟨shown, y⟩ := showsHeaders_repeatHeaders isOpen.newSheet.heading rfl named titled (by
      rw [isOpen.newSheet.pageHeight]
      omega)
    have high := Coordinate.wrap_le low
    refine ⟨shown, Paginator.room_of_lt (Design.inRange_batchHeight_cells made).1 ?_⟩
    simp only [paginator, y, fresh.pageHeight]
    omega
  rw [Press.put]
  split
  · next full =>
    refine fresh.newSheet.stackRow (by decide) agree fun _ => .overflow rfl ?_
    intro named titled room
    exact absurd (repeated named titled _ room).2 (by simp [full.2])
  · refine fresh.stackRow (by decide) agree fun _ => .overflow rfl ?_
    intro named titled room
    exact (repeated named titled _ room).1

end Press.Open

namespace Press.At

variable {design : Design} {stage next : Stage} {press printed : Press} {block : Block}

/-- A data row that is printed goes on with the open section. -/
private theorem row (reached : press.At design stage) {key : SectionKey} {row : Row}
    {previous : Option Row} (named : stage.key? = some key)
    (agree : key.agrees (.ofRow design.columns row) = true)
    (first : stage.Top design press.last → ∀ batch, TopRow design key press.last batch previous)
    (run : press.print design (.dataRow row previous) = .ok printed) :
    printed.At design (.within key row) := by
  have isOpen : press.Open design key :=
    ⟨reached.pageHeight, reached.heading key named, reached.opened key named, reached.tops⟩
  obtain ⟨cells, made, placed⟩ := bind_eq_ok_iff.mp run
  split at placed
  · obtain ⟨cells, made, same⟩ := bind_eq_ok_iff.mp placed
    cases same
    exact isOpen.overflow agree made
  · next roomy =>
    cases placed
    rw [put_of_room (by simpa [Block.isDataRow] using roomy)]
    change ((press.stack (.dataRow row previous) .flow cells).skip 0).At design (.within key row)
    rw [skip_zero]
    exact isOpen.stackRow (by decide) agree fun none => first (reached.top none) _

/-- A block that is printed leads to the next stage. -/
theorem print (reached : press.At design stage) (follows : Follows design.columns stage block next)
    (run : press.print design block = .ok printed) : printed.At design next := by
  cases follows with
  | firstRow agree => exact reached.row rfl agree (fun top _ => .first rfl top) run
  | nextRow agree => exact reached.row rfl agree (fun top _ => .later top) run
  | _ =>
    rw [print_eq_put design press rfl] at run
    obtain ⟨cells, made, rfl⟩ := map_eq_ok_iff.mp run
    refine reached.flow ?_ rfl made
    constructor

/-- Blocks that take their course lead from stage to stage. -/
theorem printAll {blocks : List Block} (course : Course design.columns stage blocks next)
    (reached : press.At design stage)
    (run : press.printAll design (blocks.map .ok) = .ok printed) : printed.At design next := by
  induction course generalizing press with
  | nil => cases run; exact reached
  | cons step _ ih =>
    obtain ⟨middle, first, others⟩ := bind_eq_ok_iff.mp run
    exact ih (reached.print step first) others

end Press.At

/-- The first data rows of all pages came there in one of the known ways. -/
theorem topKnown_of_transcript {design : Design} {rows : List Row} {sheets : List Sheet}
    (run : transcript design rows = .ok sheets) {before after : List Sheet} {sheet : Sheet}
    (place : sheets = before ++ sheet :: after) : sheet.TopKnown design before := by
  have read : Account.script design true (.start design) rows = (design.outline rows).map .ok := by
    rw [script_eq_body run, body_eq_outline run]
  obtain ⟨press, printed, rfl⟩ := map_eq_ok_iff.mp run
  rw [read] at printed
  have reached : press.At design .between := Press.At.start.printAll (.outline design rows) printed
  exact reached.tops.newSheet.closed before sheet after place

end PagedReport
