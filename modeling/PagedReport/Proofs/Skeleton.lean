import PagedReport.Proofs.Outline

/-! # The skeleton of a report

A format only decides how a value reads, and so does the value itself in a column that is shown and
serves no other purpose. The skeleton of a report is what is left without them: columns without
formats, rows without such values, cells without the texts of values. Two reports with the same
skeleton are laid out with the same skeleton: no text of a value moves a cell or changes its looks.
-/

namespace PagedReport

namespace Column

/-- The column without its format. -/
def unformatted (column : Column) : Column := { column with format := none }

/-- Whether the values of a column are shown and serve no other purpose. -/
def isShownOnly (column : Column) : Bool :=
  column.isVisible && !column.isGroup && !column.isNumeric && !column.subtotal

theorem isShownOnly_of_isGroup {column : Column} (group : column.isGroup = true) :
    column.isShownOnly = false := by
  simp [isShownOnly, group]

theorem isShownOnly_of_isBreak {column : Column} (opens : column.isBreak = true) :
    column.isShownOnly = false := by
  simp [isShownOnly, isVisible, opens]

theorem isShownOnly_of_accumulates {column : Column} {level : Level}
    (active : level.accumulates column = true) : column.isShownOnly = false := by
  cases level <;> simp_all [isShownOnly, Level.accumulates]

end Column

/-- A row with null in place of the values that are only shown. -/
def Row.skeleton (columns : List Column) (row : Row) : Row :=
  List.zipWith (fun column value => if column.isShownOnly then .null else value) columns row

/-- A block of a report, a row without the values that are only shown. -/
def Block.skeleton (columns : List Column) : Block → Block
  | dataRow row previous => dataRow (Row.skeleton columns row) (previous.map (Row.skeleton columns))
  | block => block

/-- A design without the formats of its columns. -/
def Design.unformatted (design : Design) : Design :=
  { design with columns := design.columns.map Column.unformatted }

@[simp] theorem Design.columns_unformatted (design : Design) :
    design.unformatted.columns = design.columns.map Column.unformatted := rfl

section Rows

variable {columns : List Column} {index : Nat} {column : Column}

/-- A value that is not only shown stays where it is. -/
theorem getElem?_skeleton (found : columns[index]? = some column) (used : column.isShownOnly = false)
    (row : Row) : (Row.skeleton columns row)[index]? = row[index]? := by
  rw [Row.skeleton, List.getElem?_zipWith, found]
  cases row[index]? <;> simp [used]

theorem getD_skeleton (found : columns[index]? = some column) (used : column.isShownOnly = false)
    (row : Row) : (Row.skeleton columns row).getD index .null = row.getD index .null := by
  rw [List.getD_eq_getElem?_getD, getElem?_skeleton found used, List.getD_eq_getElem?_getD]

theorem sameValue_skeleton (found : columns[index]? = some column)
    (used : column.isShownOnly = false) (row other : Row) :
    sameValue index (Row.skeleton columns row) (Row.skeleton columns other) =
      sameValue index row other := by
  rw [sameValue, getD_skeleton found used, getD_skeleton found used, sameValue]

@[simp] theorem ofRow_skeleton (columns : List Column) (row : Row) :
    SectionKey.ofRow (columns.map Column.unformatted) (Row.skeleton columns row) =
      SectionKey.ofRow columns row := by
  rw [SectionKey.ofRow, SectionKey.ofRow, Row.skeleton]
  congr 1
  induction columns generalizing row with
  | nil => rfl
  | cons column rest ih =>
    cases row with
    | nil => rfl
    | cons value row =>
      have opens : column.unformatted.isBreak = column.isBreak := rfl
      rw [List.map_cons, List.zipWith_cons_cons, List.zipWith_cons_cons, List.zipWith_cons_cons, ih,
        opens]
      by_cases key : column.isBreak = true
      · simp [key, Column.isShownOnly_of_isBreak key]
      · simp [key]

@[simp] theorem sameSection_skeleton (columns : List Column) (row other : Row) :
    sameSection (columns.map Column.unformatted) (Row.skeleton columns row)
      (Row.skeleton columns other) = sameSection columns row other := by
  rw [sameSection, ofRow_skeleton, ofRow_skeleton, sameSection]

end Rows

section Columns

variable (columns : List Column)

@[simp] theorem groupIndexes_unformatted :
    groupIndexes (columns.map Column.unformatted) = groupIndexes columns := by
  rw [groupIndexes, List.zipIdx_map, List.filter_map, List.map_map]
  rfl

theorem visibleColumns_unformatted :
    visibleColumns (columns.map Column.unformatted) =
      (visibleColumns columns).map (Prod.map Column.unformatted id) := by
  rw [visibleColumns, List.zipIdx_map, List.filter_map]
  rfl

@[simp] theorem visibleWidth_unformatted :
    visibleWidth (columns.map Column.unformatted) = visibleWidth columns := by
  rw [visibleWidth, shownWidth, List.filter_map, List.map_map]
  rfl

@[simp] theorem xOffset_unformatted (index : Nat) :
    xOffset (columns.map Column.unformatted) index = xOffset columns index := by
  rw [xOffset, ← List.map_take, visibleWidth_unformatted, xOffset]

theorem entries_unformatted (key : SectionKey) :
    key.entries (columns.map Column.unformatted) = key.entries columns := by
  rw [SectionKey.entries, List.zip_map_right, List.filterMap_map]
  rfl

@[simp] theorem headerText_unformatted (key : SectionKey) :
    key.headerText (columns.map Column.unformatted) = key.headerText columns := by
  rw [SectionKey.headerText, entries_unformatted, SectionKey.headerText]

@[simp] theorem totalsLabel_unformatted (key : SectionKey) :
    key.totalsLabel (columns.map Column.unformatted) = key.totalsLabel columns := by
  rw [SectionKey.totalsLabel, entries_unformatted, SectionKey.totalsLabel]

/-- Totals are made of values that are not only shown. -/
@[simp] theorem sums_skeleton (level : Level) (rows : List Row) :
    level.sums (columns.map Column.unformatted) (rows.map (Row.skeleton columns)) =
      level.sums columns rows := by
  apply List.ext_getElem?
  intro index
  have kind (column : Column) : level.accumulates column.unformatted = level.accumulates column := by
    cases level <;> rfl
  simp only [Level.sums, List.getElem?_mapIdx, List.getElem?_map, Option.map_map]
  cases found : columns[index]? with
  | none => rfl
  | some column =>
    simp only [Option.map_some, Function.comp_apply, kind]
    cases active : level.accumulates column with
    | false => rfl
    | true =>
      have amount : level.amount? index ∘ Row.skeleton columns = level.amount? index := by
        funext row
        rw [Function.comp_apply, Level.amount?,
          getElem?_skeleton found (Column.isShownOnly_of_accumulates active), Level.amount?]
      rw [List.filterMap_map, amount]

end Columns

section Lists

variable {α β : Type}

private theorem splitByLoop_map (r : β → β → Bool) (f : α → β) (items : List α) (item : α)
    (run : List α) (runs : List (List α)) :
    List.splitBy.loop r (items.map f) (f item) (run.map f) (runs.map (List.map f)) =
      (List.splitBy.loop (fun a b => r (f a) (f b)) items item run runs).map (List.map f) := by
  induction items generalizing item run runs with
  | nil => simp [List.splitBy.loop]
  | cons next rest ih =>
    simp only [List.map_cons, List.splitBy.loop]
    cases r (f item) (f next) with
    | true => exact ih next (item :: run) runs
    | false =>
      have closed := ih next [] ((item :: run).reverse :: runs)
      simpa using closed

/-- The runs of a mapped list are the mapped runs of the list. -/
theorem splitBy_map (r : β → β → Bool) (f : α → β) (items : List α) :
    (items.map f).splitBy r = (items.splitBy fun a b => r (f a) (f b)).map (List.map f) := by
  cases items with
  | nil => rfl
  | cons item rest => exact splitByLoop_map r f rest item [] []

theorem rtakeWhile_map (p : β → Bool) (f : α → β) (items : List α) :
    (items.map f).rtakeWhile p = (items.rtakeWhile (p ∘ f)).map f := by
  rw [List.rtakeWhile, ← List.map_reverse, List.takeWhile_map, ← List.map_reverse, List.rtakeWhile]

end Lists

section Outline

variable (design : Design)

theorem sections_skeleton (columns : List Column) (rows : List Row) :
    sections (columns.map Column.unformatted) (rows.map (Row.skeleton columns)) =
      (sections columns rows).map (List.map (Row.skeleton columns)) := by
  rw [sections, splitBy_map, sections]
  simp only [sameSection_skeleton]

theorem exists_of_mem_groupIndexes {columns : List Column} {index : Nat}
    (group : index ∈ groupIndexes columns) :
    ∃ column, columns[index]? = some column ∧ column.isShownOnly = false := by
  obtain ⟨place, member, rfl⟩ := List.mem_map.mp group
  obtain ⟨known, isGroup⟩ := List.mem_filter.mp member
  exact ⟨place.1, List.mem_zipIdx_iff_getElem?.mp known, Column.isShownOnly_of_isGroup isGroup⟩

private theorem lastRun_skeleton {columns : List Column} {index : Nat}
    (group : index ∈ groupIndexes columns) (before : List Row) (row : Row) :
    lastRun index (before.map (Row.skeleton columns)) (Row.skeleton columns row) =
      (lastRun index before row).map (Row.skeleton columns) := by
  obtain ⟨column, found, used⟩ := exists_of_mem_groupIndexes group
  have same : (sameValue index · (Row.skeleton columns row)) ∘ Row.skeleton columns =
      (sameValue index · row) :=
    funext fun earlier => sameValue_skeleton found used earlier row
  rw [lastRun, openRun, rtakeWhile_map, same, lastRun, openRun, List.map_append]
  rfl

theorem groupLine_skeleton {index : Nat} (group : index ∈ groupIndexes design.columns)
    (before : List Row) (row : Row) :
    design.unformatted.groupLine (before.map (Row.skeleton design.columns))
        (Row.skeleton design.columns row) index =
      design.groupLine before row index := by
  obtain ⟨column, found, used⟩ := exists_of_mem_groupIndexes group
  simp only [Design.groupLine, lastRun_skeleton group, getD_skeleton found used]
  exact congrArg (TotalsLine.mk _ index) (sums_skeleton design.columns .subtotal _)

private theorem endingGroups_skeleton (columns : List Column) (row : Row) (next : Option Row) :
    endingGroups (columns.map Column.unformatted) (Row.skeleton columns row)
        (next.map (Row.skeleton columns)) =
      endingGroups columns row next := by
  rw [endingGroups, groupIndexes_unformatted, endingGroups]
  apply List.filter_congr
  intro index member
  obtain ⟨column, found, used⟩ := exists_of_mem_groupIndexes (List.mem_reverse.mp member)
  cases next with
  | none => rfl
  | some next => exact congrArg Bool.not (sameValue_skeleton found used row next)

private theorem rowBlocks_skeleton (before : List Row) (row : Row) (next : Option Row) :
    design.unformatted.rowBlocks (before.map (Row.skeleton design.columns))
        (Row.skeleton design.columns row) (next.map (Row.skeleton design.columns)) =
      (design.rowBlocks before row next).map (Block.skeleton design.columns) := by
  have groups := endingGroups_skeleton design.columns row next
  rw [Design.rowBlocks, Design.rowBlocks, List.map_cons, List.map_map, List.getLast?_map]
  refine congrArg (_ :: ·) ?_
  rw [Design.columns_unformatted, groups]
  refine List.map_congr_left fun index member => ?_
  have group : index ∈ groupIndexes design.columns :=
    List.mem_reverse.mp (List.mem_filter.mp member).1
  exact congrArg Block.groupTotals (groupLine_skeleton design group before row)

private theorem rowsBlocks_skeleton (before rest : List Row) :
    design.unformatted.rowsBlocks (before.map (Row.skeleton design.columns))
        (rest.map (Row.skeleton design.columns)) =
      (design.rowsBlocks before rest).map (Block.skeleton design.columns) := by
  induction rest generalizing before with
  | nil => rfl
  | cons row rest ih =>
    have others := ih (before ++ [row])
    rw [List.map_append, List.map_singleton] at others
    rw [List.map_cons, Design.rowsBlocks, List.head?_map, rowBlocks_skeleton, others,
      Design.rowsBlocks, List.map_append]

private theorem sectionBlocks_skeleton (rows : List Row) :
    design.unformatted.sectionBlocks (rows.map (Row.skeleton design.columns)) =
      (design.sectionBlocks rows).map (Block.skeleton design.columns) := by
  cases rows with
  | nil => rfl
  | cons first rest =>
    have blocks := rowsBlocks_skeleton design [] (first :: rest)
    have key := ofRow_skeleton design.columns first
    have line : design.unformatted.sectionLine (Row.skeleton design.columns first)
        ((first :: rest).map (Row.skeleton design.columns)) =
        design.sectionLine first (first :: rest) := by
      rw [Design.sectionLine, Design.columns_unformatted, key, totalsLabel_unformatted,
        sums_skeleton, Design.sectionLine]
    rw [List.map_nil, List.map_cons] at blocks
    rw [List.map_cons] at line
    rw [List.map_cons, Design.sectionBlocks, blocks, line, Design.sectionBlocks, List.map_append,
      List.map_append, Design.columns_unformatted, key]
    rfl

/-- The blocks of a report without formats and without values that are only shown. -/
theorem outline_skeleton (rows : List Row) :
    design.unformatted.outline (rows.map (Row.skeleton design.columns)) =
      (design.outline rows).map (Block.skeleton design.columns) := by
  have parts := sections_skeleton design.columns rows
  have grand : design.unformatted.grandBlocks (rows.map (Row.skeleton design.columns)) =
      (design.grandBlocks rows).map (Block.skeleton design.columns) := by
    have line : design.unformatted.grandLine (rows.map (Row.skeleton design.columns)) =
        design.grandLine rows :=
      congrArg (TotalsLine.mk "" 0) (sums_skeleton design.columns .grand rows)
    rw [Design.grandBlocks, line, Design.grandBlocks, apply_ite (List.map _)]
    rfl
  rw [Design.outline, Design.columns_unformatted, parts, grand, Design.outline, List.map_append,
    List.flatMap_map, List.map_flatMap]
  simp only [sectionBlocks_skeleton]

end Outline

end PagedReport
