import PagedReport.Proofs.Decimal.TotalPlaces
import PagedReport.Proofs.Outline

/-! # The order of the rows of a section

Rows of one section can change places without any effect on which sections there are, and as long as
no sum is out of range the totals line of the section shows the same numbers. In a column without a
format it may show them with more or fewer decimals, since these depend on the order in which the
amounts are added.
-/

namespace PagedReport

section Sections

variable {columns : List Column}

private theorem sameSection_comm (row other : Row) :
    sameSection columns row other = sameSection columns other row := by
  rw [Bool.eq_iff_iff, sameSection, sameSection, SectionKey.agrees_iff, SectionKey.agrees_iff, eq_comm]

/-- All rows of a section agree with one another. -/
theorem sameSection_of_mem {rows group : List Row} (member : group ∈ sections columns rows)
    {row other : Row} (here : row ∈ group) (there : other ∈ group) :
    sameSection columns row other = true := by
  obtain ⟨first, rest, rfl⟩ := List.exists_cons_of_ne_nil (List.ne_nil_of_mem_splitBy member)
  have agree : ∀ other ∈ first :: rest, sameSection columns first other = true := by
    intro other member'
    rcases List.mem_cons.mp member' with rfl | behind
    · exact sameSection_refl columns other
    · exact sameSection_of_isChain (List.isChain_of_mem_splitBy member) other behind
  rw [← sameSection_congr (agree row here)]
  exact agree other there

/-- A chain stays one if an item is replaced by one that has the same neighbours. -/
private theorem isChain_replace {α : Type} {R : α → α → Prop} {before after : List α} {a b : α}
    (chain : (before ++ a :: after).IsChain R) (left : ∀ x, R x a → R x b)
    (right : ∀ x, R a x → R b x) : (before ++ b :: after).IsChain R := by
  rw [List.isChain_append, List.isChain_cons] at chain ⊢
  obtain ⟨front, ⟨next, behind⟩, joint⟩ := chain
  refine ⟨front, ⟨fun x member => right x (next x member), behind⟩, ?_⟩
  intro x last y first
  obtain rfl : b = y := by simpa using first
  exact left x (joint x last a rfl)

/-- The rows of a section in another order are a section between the same others. -/
theorem sections_of_perm {rows group group' : List Row} {earlier later : List (List Row)}
    (divided : sections columns rows = earlier ++ group :: later) (perm : group'.Perm group) :
    sections columns (earlier.flatten ++ group' ++ later.flatten) = earlier ++ group' :: later := by
  have member : group ∈ sections columns rows := List.mem_iff_append.mpr ⟨earlier, later, divided⟩
  have filled : group ≠ [] := List.ne_nil_of_mem_splitBy member
  have filled' : group' ≠ [] := by
    rintro rfl
    exact filled perm.nil_eq.symm
  have agree {row other : Row} (here : row ∈ group) (there : other ∈ group') :
      sameSection columns row other = true := sameSection_of_mem member here (perm.mem_iff.mp there)
  obtain ⟨_, nonempty, chains, apart⟩ := List.splitBy_eq_iff.mp divided
  -- What parts two sections is a comparison of two rows, and every row of the section stands for all.
  refine List.splitBy_eq_iff.mpr ⟨by simp, ?_, ?_, isChain_replace apart ?_ ?_⟩
  · simp only [List.mem_append, List.mem_cons, not_or] at nonempty ⊢
    exact ⟨nonempty.1, filled'.symm, nonempty.2.2⟩
  · intro part known
    rcases List.mem_append.mp known with before | known
    · exact chains part (List.mem_append_left _ before)
    rcases List.mem_cons.mp known with rfl | after
    · have pairs : part.Pairwise fun row other => sameSection columns row other := by
        apply List.pairwise_of_forall_mem_list
        exact fun row here other there => agree (perm.mem_iff.mp here) there
      exact pairs.isChain
    · exact chains part (List.mem_append_right _ (List.mem_cons_of_mem _ after))
  · rintro part ⟨nonempty, _, differ⟩
    refine ⟨nonempty, filled', ?_⟩
    have same := agree (List.head_mem filled) (List.head_mem filled')
    rwa [sameSection_comm, ← sameSection_congr same, sameSection_comm]
  · rintro part ⟨_, nonempty, differ⟩
    refine ⟨filled', nonempty, ?_⟩
    have same := agree (List.getLast_mem filled) (List.getLast_mem filled')
    rwa [← sameSection_congr same]

end Sections

/-- The amounts of rows in a column that has totals. -/
def subtotalAmounts (index : Nat) (rows : List Row) : List Decimal :=
  rows.filterMap (Level.subtotal.amount? index)

/-- A batch that is the totals line of a section, behind everything of the sections before it. -/
structure Batch.IsSectionTotals (design : Design) (sheets : List Sheet) (earlier : List (List Row))
    (group : List Row) (batch : Batch) : Prop where
  place : ∃ above below, body sheets = above ++ batch :: below ∧
    above.map Batch.block = earlier.flatMap design.sectionBlocks ++ (design.sectionBlocks group).dropLast
  line : ∃ first ∈ group.head?, batch.block = .sectionTotals (design.sectionLine first group)
  whole : batch.IsWhole design

/-- A batch that is a totals line and shows a text as the total of a column. -/
def Batch.ShowsTotal (design : Design) (batch : Batch) (column : Column) (index : Nat) (text : String) :
    Prop :=
  ∃ line cell, batch.block = .sectionTotals line ∧
    design.totalCell line false batch.top column index = .ok (some cell) ∧
    cell ∈ batch.cells ∧ cell.text = text

/-- Every section has its totals line. -/
theorem exists_isSectionTotals {design : Design} {rows group : List Row} {sheets : List Sheet}
    {earlier later : List (List Row)} (run : transcript design rows = .ok sheets)
    (divided : sections design.columns rows = earlier ++ group :: later) :
    ∃ batch : Batch, batch.IsSectionTotals design sheets earlier group := by
  have member : group ∈ sections design.columns rows := List.mem_iff_append.mpr ⟨earlier, later, divided⟩
  obtain ⟨first, rest, rfl⟩ := List.exists_cons_of_ne_nil (List.ne_nil_of_mem_splitBy member)
  have parts : design.sectionBlocks (first :: rest) = (design.sectionBlocks (first :: rest)).dropLast ++
      [.sectionTotals (design.sectionLine first (first :: rest))] := by
    rw [Design.sectionBlocks, List.dropLast_concat]
  have outline : (body sheets).map Batch.block =
      (earlier.flatMap design.sectionBlocks ++ (design.sectionBlocks (first :: rest)).dropLast) ++
        .sectionTotals (design.sectionLine first (first :: rest)) ::
          (later.flatMap design.sectionBlocks ++ design.grandBlocks rows) := by
    rw [body_eq_outline run, Design.outline, divided, List.flatMap_append, List.flatMap_cons, parts]
    simp
  -- The totals line is the last block of its section, so the body divides there.
  obtain ⟨above, others, whole, before, behind⟩ := List.map_eq_append_iff.mp outline
  obtain ⟨batch, below, rfl, block, _⟩ := List.map_eq_cons_iff.mp behind
  have placed : batch ∈ body sheets := List.mem_iff_append.mpr ⟨above, below, whole⟩
  refine ⟨batch, ⟨above, below, whole, before⟩, ⟨first, rfl, block⟩, ?_⟩
  exact isWhole_of_mem_sheets run (List.mem_filter.mp placed).1

/-- The totals line of a section shows the total of a column without a format in its written form. -/
theorem Batch.IsSectionTotals.showsTotal {design : Design} {sheets : List Sheet}
    {earlier : List (List Row)} {group : List Row} {batch : Batch}
    (totals : batch.IsSectionTotals design sheets earlier group) {column : Column} {index : Nat}
    (visible : (column, index) ∈ visibleColumns design.columns) (active : column.subtotal = true)
    (plain : column.format = none) {total : Decimal}
    (made : Decimal.total? (subtotalAmounts index group) = some total) :
    batch.ShowsTotal design column index total.text := by
  obtain ⟨first, _, line⟩ := totals.line
  have found : design.columns[index]? = some column :=
    (List.mem_zipIdx_iff_getElem?).mp (List.mem_filter.mp visible).1
  have stored : (design.sectionLine first group).sums.sum? index = some total :=
    (Level.subtotal.sum?_sums found active group).trans made
  have whole := totals.whole
  rw [Batch.IsWhole, line] at whole
  have held : (design.sectionLine first group).sums.hasTotals = true :=
    Sums.hasTotals_of_sum? (Option.isSome_of_eq_some stored)
  rw [Design.cells, Design.totals, if_pos held] at whole
  obtain ⟨cells, run, same⟩ := bind_eq_ok_iff.mp whole
  obtain ⟨shown, kept, cell⟩ := exists_of_mem_left (mapM_eq_ok_iff.mp run) visible
  have text : design.displayText column (.number total) = .ok total.text := by
    rw [Design.displayText, plain]
    rfl
  have written := cell
  simp only [Design.totalCell, stored, text, ok_bind] at written
  cases written
  refine ⟨_, _, line, cell, ?_, rfl⟩
  rw [← Except.ok.inj same]
  exact List.mem_cons_of_mem _ (List.mem_filterMap.mpr ⟨_, kept, rfl⟩)

/-- If the rows of a section come in another order, its totals line shows the same numbers, as long as
the amounts are in range. In a column without a format each is written with the decimals that its order
gives it, so the two are written alike exactly if both orders give them equally many, and thus if all
amounts have equally many. -/
theorem layOut_section_totals_of_perm {design : Design} {first second : Cursor} {pages pages' : List Page}
    {earlier later : List (List Row)} {group group' : List Row}
    (divided : sections design.columns first.set.rows = earlier ++ group :: later)
    (reordered : second.set.rows = earlier.flatten ++ group' ++ later.flatten)
    (perm : group'.Perm group)
    (success : (Report.new first design).layOut.1 = .ok pages)
    (success' : (Report.new second design).layOut.1 = .ok pages') :
    ∃ (sheets sheets' : List Sheet) (batch batch' : Batch),
      transcript design first.set.rows = .ok sheets ∧ pages = sheets.map Sheet.cells ∧
      transcript design second.set.rows = .ok sheets' ∧ pages' = sheets'.map Sheet.cells ∧
      batch.IsSectionTotals design sheets earlier group ∧
      batch'.IsSectionTotals design sheets' earlier group' ∧
      ∀ column index, (column, index) ∈ visibleColumns design.columns → column.subtotal = true →
        column.format = none →
        Decimal.SumInRange (subtotalAmounts index group) →
        ∃ total total' : Decimal,
          batch.ShowsTotal design column index total.text ∧
          batch'.ShowsTotal design column index total'.text ∧
          total.toRat = Decimal.exactSum (subtotalAmounts index group) ∧
          total'.toRat = total.toRat ∧
          (NumberFormat.decimalsOf total.text.toList).length =
            Decimal.totalPlaces (subtotalAmounts index group) ∧
          (NumberFormat.decimalsOf total'.text.toList).length =
            Decimal.totalPlaces (subtotalAmounts index group') ∧
          (total'.text = total.text ↔
            Decimal.totalPlaces (subtotalAmounts index group') =
              Decimal.totalPlaces (subtotalAmounts index group)) ∧
          ((∃ places, ∀ amount ∈ subtotalAmounts index group,
            amount.places = places) → total'.text = total.text) := by
  obtain ⟨sheets, run, rfl⟩ := Report.exists_transcript success
  obtain ⟨sheets', run', rfl⟩ := Report.exists_transcript success'
  have divided' : sections design.columns second.set.rows = earlier ++ group' :: later := by
    rw [reordered]
    exact sections_of_perm divided perm
  obtain ⟨batch, totals⟩ := exists_isSectionTotals run divided
  obtain ⟨batch', totals'⟩ := exists_isSectionTotals run' divided'
  refine ⟨sheets, sheets', batch, batch', run, rfl, run', rfl, totals, totals', ?_⟩
  intro column index visible active plain range
  have amounts := perm.filterMap (Level.subtotal.amount? index)
  obtain ⟨total, total', made, made', value, same, written, written', alike⟩ :=
    range.inRange.total?_perm amounts
  refine ⟨total, total', totals.showsTotal visible active plain made,
    totals'.showsTotal visible active plain made', value, same, written, written', alike, ?_⟩
  rintro ⟨places, equal⟩
  rw [alike]
  exact (Decimal.totalPlaces_of_perm amounts equal)

/-- A column of amounts with totals. -/
def amountColumn : Column := { Column.numeric "Amount" 80 with subtotal := true }

/-- Amounts in a single section. -/
def amountsDesign : Design := ⟨[amountColumn], {}, FixedPitch.standard.metrics⟩

/-- Amounts, each in a row. -/
def amountsSet (amounts : List Decimal) : ResultSet where
  columns := ["Amount"]
  rows := amounts.map fun amount => [.number amount]
  rectangular := by simp

/-- The layout of amounts. -/
def layOutAmounts (amounts : List Decimal) : Except ReportError (List Page) :=
  (Report.new (Cursor.ofSet (amountsSet amounts)) amountsDesign).layOut.1

/-- One and a half and two and a quarter have a total with two decimals in either order. -/
theorem layOut_section_totals_of_perm_amounts :
    ∃ first second : Decimal, first.text = "1.50" ∧ second.text = "2.25" ∧
      ∃ (sheets sheets' : List Sheet) (batch batch' : Batch) (text : String),
      layOutAmounts [first, second] = .ok (sheets.map Sheet.cells) ∧
      layOutAmounts [second, first] = .ok (sheets'.map Sheet.cells) ∧
      batch.IsSectionTotals amountsDesign sheets [] (amountsSet [first, second]).rows ∧
      batch'.IsSectionTotals amountsDesign sheets' [] (amountsSet [second, first]).rows ∧
      batch.ShowsTotal amountsDesign amountColumn 0 text ∧
      batch'.ShowsTotal amountsDesign amountColumn 0 text ∧
      (NumberFormat.decimalsOf text.toList).length = 2 := by
  let first : Decimal := ⟨⟨150, 2⟩, by decide, by decide⟩
  let second : Decimal := ⟨⟨225, 2⟩, by decide, by decide⟩
  have checked : (layOutAmounts [first, second]).toOption.any (fun _ => true) = true := by decide +kernel
  have checked' : (layOutAmounts [second, first]).toOption.any (fun _ => true) = true := by decide +kernel
  obtain ⟨pages, success, _⟩ := exists_ok_of_any checked
  obtain ⟨pages', success', _⟩ := exists_ok_of_any checked'
  have divided : sections amountsDesign.columns (amountsSet [first, second]).rows =
      [] ++ (amountsSet [first, second]).rows :: [] := by decide +kernel
  have perm : (amountsSet [second, first]).rows.Perm (amountsSet [first, second]).rows := by decide +kernel
  obtain ⟨sheets, sheets', batch, batch', _, rfl, _, rfl, totals, totals', shown⟩ :=
    layOut_section_totals_of_perm divided rfl perm success success'
  have range : Decimal.SumInRange (subtotalAmounts 0 (amountsSet [first, second]).rows) := by
    decide +kernel
  have equal : ∀ amount ∈ subtotalAmounts 0 (amountsSet [first, second]).rows, amount.places = 2 := by
    decide +kernel
  obtain ⟨total, total', here, there, _, _, written, _, _, alike⟩ :=
    shown amountColumn 0 (by decide +kernel) rfl rfl range
  rw [alike ⟨2, equal⟩] at there
  have places : Decimal.totalPlaces (subtotalAmounts 0 (amountsSet [first, second]).rows) = 2 := by
    decide +kernel
  exact ⟨first, second, by decide +kernel, by decide +kernel, sheets, sheets', batch, batch', total.text,
    success, success', totals, totals', here, there, written.trans places⟩

/-- Two, and one and a half that is cancelled, once written with a zero at the end. The total has two
decimals if the two comes first, and none if it comes last. -/
theorem layOut_amounts_total_by_order :
    ∃ two credit debit : Decimal, two.text = "2" ∧ credit.text = "1.50" ∧ debit.text = "-1.5" ∧
      (amountsSet [credit, debit, two]).rows.Perm (amountsSet [two, credit, debit]).rows ∧
      sections amountsDesign.columns (amountsSet [two, credit, debit]).rows =
        [(amountsSet [two, credit, debit]).rows] ∧
      groupIndexes amountsDesign.columns = [] ∧
      Decimal.SumInRange (subtotalAmounts 0 (amountsSet [two, credit, debit]).rows) ∧
      ∃ pages pages', layOutAmounts [two, credit, debit] = .ok pages ∧
        layOutAmounts [credit, debit, two] = .ok pages' ∧
        pages.map (List.map Cell.text) = [["", "Amount", "2", "1.50", "-1.5", "Total: ", "2.00"]] ∧
        pages'.map (List.map Cell.text) = [["", "Amount", "1.50", "-1.5", "2", "Total: ", "2"]] := by
  let two : Decimal := ⟨⟨2, 0⟩, by decide, by decide⟩
  let credit : Decimal := ⟨⟨150, 2⟩, by decide, by decide⟩
  let debit : Decimal := ⟨⟨-15, 1⟩, by decide, by decide⟩
  have checked : (layOutAmounts [two, credit, debit]).toOption.any (fun pages =>
      pages.map (List.map Cell.text) ==
        [["", "Amount", "2", "1.50", "-1.5", "Total: ", "2.00"]]) = true := by
    decide +kernel
  have checked' : (layOutAmounts [credit, debit, two]).toOption.any (fun pages =>
      pages.map (List.map Cell.text) ==
        [["", "Amount", "1.50", "-1.5", "2", "Total: ", "2"]]) = true := by
    decide +kernel
  obtain ⟨pages, success, texts⟩ := exists_ok_of_any checked
  obtain ⟨pages', success', texts'⟩ := exists_ok_of_any checked'
  exact ⟨two, credit, debit, by decide +kernel, by decide +kernel, by decide +kernel, by decide +kernel,
    by decide +kernel, rfl, by decide +kernel, pages, pages', success, success',
    beq_iff_eq.mp texts, beq_iff_eq.mp texts'⟩

end PagedReport
