import PagedReport.Proofs.Geometry
import PagedReport.Proofs.PageTop

/-! # Headers above the data rows of a page

With both headers repeated, and with room for them, the first data row of every page stands below the
headers of its section, unless the page was opened in the midst of the section by something that is
no data row. Such a page begins with the column headers alone or with totals of groups.
-/

namespace PagedReport

/-- The height of a page exceeds that of any section header, of the column headers and of any batch
of the report together. The heights of the two headers do not add up to less than any coordinate. -/
def Roomy (design : Design) (sheets : List Sheet) : Prop :=
  ∀ header ∈ body sheets, header.block.sectionKey?.isSome = true →
    Coordinate.least ≤ batchHeight header.cells + batchHeight (design.columnHeader 0) ∧
      ∀ batch ∈ body sheets,
        batchHeight header.cells + batchHeight (design.columnHeader 0) + batchHeight batch.cells <
          design.options.pageHeight

instance (design : Design) (sheets : List Sheet) : Decidable (Roomy design sheets) := by
  unfold Roomy
  infer_instance

/-- The header of the section that is open on some sheets is one of their batches. -/
theorem exists_header_of_openSection {design : Design} {rows : List Row} {sheets : List Sheet}
    (run : transcript design rows = .ok sheets) {part : List Sheet} {key : SectionKey}
    (within : body part ⊆ body sheets) (isOpen : openSection part = some key) :
    ∃ header ∈ body sheets, header.block.sectionKey?.isSome = true ∧
      batchHeight header.cells = batchHeight [design.sectionHeader key 0] := by
  obtain ⟨header, member, named⟩ := List.mem_filterMap.mp (List.mem_of_getLast? isOpen)
  have whole := isWhole_of_mem_sheets run (List.mem_of_mem_filter (within member))
  obtain ⟨block, placement, top, cells⟩ := header
  cases block with
  | sectionHeader key' =>
    obtain rfl := Option.some.inj named
    obtain rfl : [design.sectionHeader key' top] = cells := Except.ok.inj whole
    refine ⟨_, within member, rfl, ?_⟩
    rw [design.sectionHeader_atY]
    exact batchHeight_atHeight top [design.sectionHeader key' 0]
  | _ => cases named

/-- In a successful layout with both headers repeated and with room for them, the first data row of
every page has the headers of its section above it, unless the column headers or totals of groups
opened the page in the midst of the section. -/
theorem layOut_repeats_headers {design : Design} {cursor : Cursor} {pages : List Page}
    (named : design.options.repeatSectionHeader = true)
    (titled : design.options.repeatColumnHeader = true)
    (success : (Report.new cursor design).layOut.1 = .ok pages) :
    ∃ sheets, transcript design cursor.set.rows = .ok sheets ∧ pages = sheets.map Sheet.cells ∧
      (body sheets).map Batch.block = design.outline cursor.set.rows ∧
      (Roomy design sheets → ∀ before above batch below after row previous,
        sheets = before ++ (above ++ batch :: below) :: after → Sheet.HasNoRow above →
        batch.block = .dataRow row previous →
        ∃ key, openSection (before ++ [above]) = some key ∧
          key.agrees (.ofRow design.columns row) = true ∧
          (Sheet.ShowsHeaders design key above ∨ Sheet.HasColumnHeaderOnly design above ∨
            Sheet.HasGroupTotalsOnly above) ∧
          (design.metrics.PositiveLines →
            (∀ sheet ∈ sheets, ∀ batch ∈ sheet, batch.InRange design) →
              ∀ upper ∈ above, upper.top + batchHeight upper.cells ≤ batch.top)) := by
  obtain ⟨sheets, run, divided⟩ := Report.exists_transcript success
  refine ⟨sheets, run, divided, body_eq_outline run, ?_⟩
  intro roomy before above batch below after row previous place none isRow
  have page : above ++ batch :: below ∈ sheets := by
    rw [place]
    exact List.mem_append_right _ List.mem_cons_self
  obtain ⟨key, isOpen, agree, top⟩ :=
    topKnown_of_transcript run place above batch below row previous rfl none isRow
  refine ⟨key, isOpen, agree, ?_, ?_⟩
  · cases top with
    | overflow placement headed =>
      refine .inl (headed named titled ?_)
      have parts : body sheets = body (before ++ [above]) ++ body ([batch :: below] ++ after) := by
        rw [← body_append, place]
        simp [body]
      have placed : batch ∈ body sheets := by
        rw [parts]
        simp [body, placement]
      obtain ⟨header, member, header?, height⟩ := exists_header_of_openSection run
        (parts ▸ List.subset_append_left _ _) isOpen
      obtain ⟨low, room⟩ := roomy header member header?
      have twice := room header member
      have once := room batch placed
      rw [height] at low twice once
      rw [HasRoom, Design.headersHeight]
      omega
    | first start headed =>
      rcases headed with both | columns
      · exact .inl both
      · exact .inr (.inl columns)
    | later totals => exact .inr (.inr totals)
  · intro lines range upper member
    have apart := (stacked_of_transcript lines run range _ page).apart
    exact (List.pairwise_append.mp apart).2.2 upper member batch List.mem_cons_self

/-- Six sales in three cities of two regions. -/
def citySet : ResultSet where
  columns := ["Region", "City", "Sales"]
  rows := [[.text "A", .text "x", .number (.ofInt 1)], [.text "A", .text "x", .number (.ofInt 2)],
    [.text "A", .text "x", .number (.ofInt 3)], [.text "A", .text "x", .number (.ofInt 4)],
    [.text "A", .text "y", .number (.ofInt 5)], [.text "B", .text "z", .number (.ofInt 6)]]
  rectangular := by decide

/-- On pages of eighty units the fourth sale comes to the second page, below a section header and
column headers. -/
theorem exists_transcript_cities :
    ∃ (first : Sheet) (header columns row : Batch) (below : Sheet) (after : List Sheet),
      transcript (salesDesign 80) citySet.rows =
        .ok (first :: ([header, columns] ++ row :: below) :: after) ∧
      Roomy (salesDesign 80) (first :: ([header, columns] ++ row :: below) :: after) ∧
      header.block = .sectionHeader ⟨[.text "A", .null, .null]⟩ ∧ columns.block = .columnHeader ∧
      row.block = .dataRow [.text "A", .text "x", .number (.ofInt 4)]
        (some [.text "A", .text "x", .number (.ofInt 3)]) := by
  have checked : ((transcript (salesDesign 80) citySet.rows).toOption.any fun sheets =>
      decide (Roomy (salesDesign 80) sheets ∧ 2 ≤ sheets.length ∧ ∀ second ∈ sheets[1]?,
        (second.take 3).map Batch.block =
          [.sectionHeader ⟨[.text "A", .null, .null]⟩, .columnHeader,
            .dataRow [.text "A", .text "x", .number (.ofInt 4)]
              (some [.text "A", .text "x", .number (.ofInt 3)])])) = true := by
    decide +kernel
  obtain ⟨sheets, run, facts⟩ := exists_ok_of_any checked
  obtain ⟨roomy, two, second⟩ := of_decide_eq_true facts
  obtain ⟨first, others, rfl⟩ := List.exists_cons_of_length_pos (by omega : 0 < sheets.length)
  obtain ⟨page, after, rfl⟩ := List.exists_cons_of_length_pos (Nat.lt_of_succ_lt_succ two)
  obtain ⟨header, rest, top, named, blocks⟩ := List.map_eq_cons_iff.mp (second page rfl)
  obtain ⟨columns, rest, rfl, titled, blocks⟩ := List.map_eq_cons_iff.mp blocks
  obtain ⟨row, rest, rfl, isRow, blocks⟩ := List.map_eq_cons_iff.mp blocks
  obtain rfl := List.map_eq_nil_iff.mp blocks
  have place : page = [header, columns] ++ row :: page.drop 3 := by
    rw [← List.take_append_drop 3 page, top]
    rfl
  rw [place] at run roomy
  exact ⟨first, header, columns, row, page.drop 3, after, run, roomy, named, titled, isRow⟩

/-- The fourth sale opens the second page below the headers of its section. -/
theorem layOut_cities_repeats_headers :
    (salesDesign 80).options.repeatSectionHeader = true ∧
      (salesDesign 80).options.repeatColumnHeader = true ∧
      ∃ pages, (Report.new (Cursor.ofSet citySet) (salesDesign 80)).layOut.1 = .ok pages ∧
        ∃ sheets, pages = sheets.map Sheet.cells ∧ Roomy (salesDesign 80) sheets ∧
          ∃ first above batch below after, sheets = first :: (above ++ batch :: below) :: after ∧
            Sheet.HasNoRow above ∧
            batch.block = .dataRow [.text "A", .text "x", .number (.ofInt 4)]
              (some [.text "A", .text "x", .number (.ofInt 3)]) ∧
            ∃ key, Sheet.ShowsHeaders (salesDesign 80) key above := by
  obtain ⟨first, header, columns, row, below, after, run, roomy, named, titled, isRow⟩ :=
    exists_transcript_cities
  have success : (Report.new (Cursor.ofSet citySet) (salesDesign 80)).layOut.1 = .ok _ :=
    Report.layOut_of_transcript rfl run
  obtain ⟨sheets, run', divided, _, headed⟩ := layOut_repeats_headers rfl rfl success
  obtain rfl := Except.ok.inj (run.symm.trans run')
  have none : Sheet.HasNoRow [header, columns] := by
    simp [Sheet.HasNoRow, named, titled, Block.isDataRow]
  obtain ⟨key, _, _, shown, _⟩ :=
    headed roomy [first] [header, columns] row below after _ _ rfl none isRow
  refine ⟨rfl, rfl, _, success, _, rfl, roomy, first, _, row, below, after, rfl, none, isRow, key, ?_⟩
  rcases shown with both | ⟨_, columns⟩ | totals
  · exact both
  · cases columns
  · obtain ⟨line, other⟩ := totals.2 header List.mem_cons_self
    cases named.symm.trans other

/-- On pages of a hundred units the totals of a group open the second page and the column headers the
third. Both pages have data rows, but the second one has no column headers, and the third one has
no header of its section. -/
theorem layOut_cities_without_headers :
    (salesDesign 100).options.repeatSectionHeader = true ∧
      (salesDesign 100).options.repeatColumnHeader = true ∧
      ∃ first second third : Sheet,
        transcript (salesDesign 100) citySet.rows = .ok [first, second, third] ∧
        (Report.new (Cursor.ofSet citySet) (salesDesign 100)).layOut.1 =
          .ok ([first, second, third].map Sheet.cells) ∧
        Roomy (salesDesign 100) [first, second, third] ∧
        ((∃ batch ∈ second, batch.block.isDataRow = true) ∧
          ∀ cell ∈ Sheet.cells second, cell.text ≠ "City") ∧
        (∃ batch ∈ third, batch.block.isDataRow = true) ∧
          ∀ cell ∈ Sheet.cells third, cell.text ≠ "Region: B" := by
  have checked : ((transcript (salesDesign 100) citySet.rows).toOption.any fun sheets =>
      decide (sheets.length = 3 ∧ Roomy (salesDesign 100) sheets ∧
        (∀ second ∈ sheets[1]?, (∃ batch ∈ second, batch.block.isDataRow = true) ∧
          ∀ cell ∈ Sheet.cells second, cell.text ≠ "City") ∧
        ∀ third ∈ sheets[2]?, (∃ batch ∈ third, batch.block.isDataRow = true) ∧
          ∀ cell ∈ Sheet.cells third, cell.text ≠ "Region: B")) = true := by
    decide +kernel
  obtain ⟨sheets, run, facts⟩ := exists_ok_of_any checked
  obtain ⟨length, roomy, second, third⟩ := of_decide_eq_true facts
  obtain ⟨first, second', third', rfl⟩ := List.length_eq_three.mp length
  have success : (Report.new (Cursor.ofSet citySet) (salesDesign 100)).layOut.1 = .ok _ :=
    Report.layOut_of_transcript rfl run
  exact ⟨rfl, rfl, first, second', third', run, success, roomy, second second' rfl, third third' rfl⟩

end PagedReport
