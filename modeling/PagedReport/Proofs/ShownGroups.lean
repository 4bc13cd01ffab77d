import PagedReport.Proofs.RepeatedHeaders

/-! # Group values at the top of a page

A group column leaves out a value that the row before it has too. At the top of a page that row is
out of sight, so the first data row of a page shows all its group values, those of the row before in
parentheses. The exception is a page that the totals of a group opened in the midst of a section: a
data row below them was placed without a look at the page, and may leave out the value of an outer
group.
-/

namespace PagedReport

/-- A cell shows a value as its column shows it, be it in parentheses. -/
def Design.ShowsValue (design : Design) (column : Column) (value : Value) (cell : Cell) : Prop :=
  ∃ shown, design.displayText column value = .ok shown ∧
    (cell.text = shown ∨ cell.text = "(" ++ shown ++ ")")

namespace Design

variable {design : Design} {column : Column} {index : Nat} {row : Row} {previous : Option Row}
variable {y : Int} {showRepeats : Bool} {cell : Cell}

/-- A data cell shows its value, unless it is a repeated one and such values are left out. -/
theorem showsValue_dataCell
    (made : design.dataCell column index row previous y showRepeats = .ok cell)
    (seen : isRepeated column index row previous = true → showRepeats = true) :
    design.ShowsValue column (row.getD index .null) cell := by
  obtain ⟨shown, found, same⟩ := bind_eq_ok_iff.mp made
  cases same
  refine ⟨shown, found, ?_⟩
  cases repeated : isRepeated column index row previous with
  | false => exact .inl rfl
  | true =>
    rw [seen repeated]
    exact .inr rfl

/-- A data cell that leaves out its value is blank. -/
theorem text_dataCell_of_hidden
    (made : design.dataCell column index row previous y false = .ok cell)
    (repeated : isRepeated column index row previous = true) : cell.text = "" := by
  obtain ⟨shown, found, same⟩ := bind_eq_ok_iff.mp made
  cases same
  simp [repeated]

/-- A repeated value belongs to a group column, and the row before has it. -/
theorem exists_of_isRepeated (repeated : isRepeated column index row previous = true) :
    ∃ earlier, previous = some earlier ∧
      (earlier.getD index .null).agrees (row.getD index .null) = true := by
  cases previous with
  | none => simp [isRepeated] at repeated
  | some earlier => exact ⟨earlier, rfl, (Bool.and_eq_true_iff.mp repeated).2⟩

end Design

/-- A data row that comes to be the first one of its page shows its values or follows the totals of
groups. -/
theorem TopRow.shown {design : Design} {key : SectionKey} {above : Sheet} {batch : Batch}
    {previous : Option Row} (top : TopRow design key above batch previous) :
    previous = none ∨ Batch.showsRepeats design batch.placement = true ∨ above.HasGroupTotalsOnly := by
  cases top with
  | overflow placement => exact .inr (.inl (by simp [Batch.showsRepeats, placement]))
  | first start => exact .inl start
  | later totals => exact .inr (.inr totals)

/-- In a successful layout the first data row of every page shows the values of its group columns,
unless the totals of groups opened the page. There it leaves out what the row before it has too. -/
theorem layOut_shows_groups {design : Design} {cursor : Cursor} {pages : List Page}
    (success : (Report.new cursor design).layOut.1 = .ok pages) :
    ∃ sheets, transcript design cursor.set.rows = .ok sheets ∧ pages = sheets.map Sheet.cells ∧
      (body sheets).map Batch.block = design.outline cursor.set.rows ∧
      ∀ before above batch below after row previous,
        sheets = before ++ (above ++ batch :: below) :: after → Sheet.HasNoRow above →
        batch.block = .dataRow row previous →
        List.Forall₂
          (fun place cell => place.1.isGroup = true →
            design.ShowsValue place.1 (row.getD place.2 .null) cell ∨
            (Sheet.HasGroupTotalsOnly above ∧ cell.text = "" ∧
              ∃ earlier, previous = some earlier ∧
                (earlier.getD place.2 .null).agrees (row.getD place.2 .null) = true))
          (visibleColumns design.columns) batch.cells := by
  obtain ⟨sheets, run, divided⟩ := Report.exists_transcript success
  refine ⟨sheets, run, divided, body_eq_outline run, ?_⟩
  intro before above batch below after row previous place none isRow
  obtain ⟨key, _, _, top⟩ :=
    topKnown_of_transcript run place above batch below row previous rfl none isRow
  have whole : batch.IsWhole design := isWhole_of_mem_sheets run (by simp [place])
  rw [Batch.IsWhole, isRow] at whole
  have each := mapM_eq_ok_iff.mp whole
  refine each.imp ?_
  rintro ⟨column, index⟩ cell made _
  by_cases seen : Design.isRepeated column index row previous = true →
      Batch.showsRepeats design batch.placement = true
  · exact .inl (Design.showsValue_dataCell made seen)
  · obtain ⟨repeated, hidden⟩ := Classical.not_imp.mp seen
    obtain ⟨earlier, before, agree⟩ := Design.exists_of_isRepeated repeated
    rw [Bool.not_eq_true] at hidden
    rw [hidden] at made
    refine .inr ⟨?_, Design.text_dataCell_of_hidden made repeated, earlier, before, agree⟩
    rcases top.shown with start | shown | totals
    · cases before.symm.trans start
    · cases hidden.symm.trans shown
    · exact totals

/-- The fourth sale of the cities opens the second page and shows its city, which the third one has
too. -/
theorem layOut_cities_shows_groups :
    ∃ pages, (Report.new (Cursor.ofSet citySet) (salesDesign 80)).layOut.1 = .ok pages ∧
      ∃ (sheets : List Sheet) (first above : Sheet) (batch : Batch) (below : Sheet)
        (after : List Sheet), pages = sheets.map Sheet.cells ∧
        sheets = first :: (above ++ batch :: below) :: after ∧ Sheet.HasNoRow above ∧
        batch.block = .dataRow [.text "A", .text "x", .number (.ofInt 4)]
          (some [.text "A", .text "x", .number (.ofInt 3)]) ∧
        ∃ cell ∈ batch.cells, cell.text = "x" ∨ cell.text = "(x)" := by
  obtain ⟨first, header, columns, row, below, after, run, _, named, titled, isRow⟩ :=
    exists_transcript_cities
  have success : (Report.new (Cursor.ofSet citySet) (salesDesign 80)).layOut.1 = .ok _ :=
    Report.layOut_of_transcript rfl run
  obtain ⟨sheets, run', divided, _, shown⟩ := layOut_shows_groups success
  obtain rfl := Except.ok.inj (run.symm.trans run')
  have none : Sheet.HasNoRow [header, columns] := by
    simp [Sheet.HasNoRow, named, titled, Block.isDataRow]
  have each := shown [first] [header, columns] row below after _ _ rfl none isRow
  obtain ⟨cell, others, city, _, cells⟩ := List.forall₂_cons_left_iff.mp each
  refine ⟨_, success, _, first, _, row, below, after, rfl, rfl, none, isRow, cell, by simp [cells], ?_⟩
  rcases city rfl with ⟨text, display, is⟩ | ⟨totals, _⟩
  · obtain rfl : "x" = text := Except.ok.inj display
    exact is
  · obtain ⟨line, other⟩ := totals.2 header List.mem_cons_self
    cases named.symm.trans other

/-- Sales by country and by city. -/
def countryDesign : Design where
  columns := [{ Column.plain "Country" 50 with role := .group },
    { Column.plain "City" 50 with role := .group },
    { Column.numeric "Sales" 40 with subtotal := true }]
  options := { pageHeight := 40 }
  metrics := FixedPitch.standard.metrics

/-- Two sales in two cities of one country. -/
def countrySet : ResultSet where
  columns := ["Country", "City", "Sales"]
  rows := [[.text "X", .text "a", .number (.ofInt 1)], [.text "X", .text "b", .number (.ofInt 2)]]
  rectangular := by decide

/-- The totals of the first city open a page. The sale below them is the first one of that page, and
its country is left out. -/
theorem layOut_countries_hides_group :
    ∃ (first : Sheet) (line batch : Batch) (after : List Sheet),
      transcript countryDesign countrySet.rows = .ok (first :: [line, batch] :: after) ∧
      (Report.new (Cursor.ofSet countrySet) countryDesign).layOut.1 =
        .ok ((first :: [line, batch] :: after).map Sheet.cells) ∧
      Sheet.HasNoRow [line] ∧
      batch.block = .dataRow [.text "X", .text "b", .number (.ofInt 2)]
        (some [.text "X", .text "a", .number (.ofInt 1)]) ∧
      ¬ List.Forall₂
        (fun place cell => place.1.isGroup = true →
          countryDesign.ShowsValue place.1
            (([.text "X", .text "b", .number (.ofInt 2)] : Row).getD place.2 .null) cell)
        (visibleColumns countryDesign.columns) batch.cells := by
  have checked : ((transcript countryDesign countrySet.rows).toOption.any fun sheets =>
      decide (2 ≤ sheets.length ∧ ∀ second ∈ sheets[1]?, second.length = 2 ∧
        (∀ line ∈ second[0]?, line.block.isDataRow = false) ∧
        ∀ batch ∈ second[1]?, batch.cells.map Cell.text = ["", "b", "2"] ∧
          batch.block = .dataRow [.text "X", .text "b", .number (.ofInt 2)]
            (some [.text "X", .text "a", .number (.ofInt 1)]))) = true := by
    decide +kernel
  obtain ⟨sheets, run, facts⟩ := exists_ok_of_any checked
  obtain ⟨two, second⟩ := of_decide_eq_true facts
  obtain ⟨first, others, rfl⟩ := List.exists_cons_of_length_pos (by omega : 0 < sheets.length)
  obtain ⟨page, after, rfl⟩ := List.exists_cons_of_length_pos (Nat.lt_of_succ_lt_succ two)
  obtain ⟨pair, other, row⟩ := second page rfl
  obtain ⟨line, batch, rfl⟩ := List.length_eq_two.mp pair
  obtain ⟨texts, isRow⟩ := row batch rfl
  refine ⟨first, line, batch, after, run, Report.layOut_of_transcript rfl run, ?_, isRow, ?_⟩
  · simpa [Sheet.HasNoRow] using other line rfl
  · intro shown
    obtain ⟨cell, others, country, _, cells⟩ := List.forall₂_cons_left_iff.mp shown
    obtain ⟨text, display, is⟩ := country rfl
    obtain rfl : "X" = text := Except.ok.inj display
    rw [cells, List.map_cons] at texts
    rw [List.head_eq_of_cons_eq texts] at is
    exact absurd is (by decide)

end PagedReport
