import PagedReport.Proofs.Outline

/-! # The course of a report

The blocks of a report come in a fixed order: a section header, the column headers, data rows of that
section with totals of groups between them, the totals of the section, and the same again for the
next section. `Follows` says which block can come at which stage, and the outline of a report is a
`Course` of such blocks.
-/

namespace PagedReport

/-- How far a report has come within a section. -/
inductive Stage where
  /-- No section is open. -/
  | between
  /-- The header of the section is there, those of the columns are not. -/
  | named (key : SectionKey)
  /-- All headers are there, but no row. -/
  | opened (key : SectionKey)
  /-- There are rows, and this is the last one. -/
  | within (key : SectionKey) (row : Row)

namespace Stage

/-- The key of the section that is open. -/
def key? : Stage → Option SectionKey
  | between => none
  | named key | opened key | within key _ => some key

/-- The stage of an open section after some of its rows. -/
def after (key : SectionKey) (rows : List Row) : Stage :=
  match rows.getLast? with
  | none => opened key
  | some row => within key row

@[simp] theorem after_concat (key : SectionKey) (rows : List Row) (row : Row) :
    after key (rows ++ [row]) = within key row := by
  simp [after]

end Stage

/-- Which block can come at a stage, and the stage that it leads to. -/
inductive Follows (columns : List Column) : Stage → Block → Stage → Prop
  | sectionHeader (key : SectionKey) : Follows columns .between (.sectionHeader key) (.named key)
  | columnHeader (key : SectionKey) : Follows columns (.named key) .columnHeader (.opened key)
  | firstRow {key : SectionKey} {row : Row} (agree : key.agrees (.ofRow columns row) = true) :
      Follows columns (.opened key) (.dataRow row none) (.within key row)
  | nextRow {key : SectionKey} {earlier row : Row} (agree : key.agrees (.ofRow columns row) = true) :
      Follows columns (.within key earlier) (.dataRow row (some earlier)) (.within key row)
  | groupTotals (key : SectionKey) (row : Row) (line : TotalsLine) :
      Follows columns (.within key row) (.groupTotals line) (.within key row)
  | sectionTotals (key : SectionKey) (row : Row) (line : TotalsLine) :
      Follows columns (.within key row) (.sectionTotals line) .between
  | grandTotals (line : TotalsLine) : Follows columns .between (.grandTotals line) .between

/-- Blocks each of which can come where it does. -/
inductive Course (columns : List Column) : Stage → List Block → Stage → Prop
  | nil (stage : Stage) : Course columns stage [] stage
  | cons {stage next last : Stage} {block : Block} {blocks : List Block} :
      Follows columns stage block next → Course columns next blocks last →
        Course columns stage (block :: blocks) last

namespace Course

variable {columns : List Column}

theorem single {stage next : Stage} {block : Block} (step : Follows columns stage block next) :
    Course columns stage [block] next :=
  .cons step (.nil next)

/-- Courses compose at the stage that they share. -/
theorem append {stage middle last : Stage} {first second : List Block} :
    Course columns stage first middle → Course columns middle second last →
      Course columns stage (first ++ second) last
  | .nil _, others => others
  | .cons step rest, others => .cons step (append rest others)

/-- Totals of groups can come anywhere after a row. -/
private theorem groupTotals (key : SectionKey) (row : Row) (lines : List TotalsLine) :
    Course columns (.within key row) (lines.map .groupTotals) (.within key row) := by
  induction lines with
  | nil => exact .nil _
  | cons line rest ih => exact .cons (.groupTotals key row line) ih

variable (design : Design)

private theorem rowBlocks {key : SectionKey} (before : List Row) (row : Row) (next : Option Row)
    (agree : key.agrees (.ofRow design.columns row) = true) :
    Course design.columns (.after key before) (design.rowBlocks before row next)
      (.after key (before ++ [row])) := by
  let lines := (endingGroups design.columns row next).map (design.groupLine before row)
  have totals : Course design.columns (.within key row) (lines.map .groupTotals) (.within key row) :=
    groupTotals key row lines
  rw [List.map_map] at totals
  rw [Stage.after_concat]
  refine .cons ?_ totals
  rcases List.eq_nil_or_concat before with rfl | ⟨earlier, last, rfl⟩
  · exact .firstRow agree
  · rw [List.concat_eq_append, Stage.after_concat, List.getLast?_concat]
    exact .nextRow agree

private theorem rowsBlocks {key : SectionKey} (before rest : List Row)
    (agree : ∀ row ∈ rest, key.agrees (.ofRow design.columns row) = true) :
    Course design.columns (.after key before) (design.rowsBlocks before rest)
      (.after key (before ++ rest)) := by
  induction rest generalizing before with
  | nil =>
    rw [List.append_nil]
    exact .nil _
  | cons row rest ih =>
    have others := ih (before ++ [row]) fun other member => agree other (List.mem_cons_of_mem _ member)
    rw [List.append_assoc, List.singleton_append] at others
    exact (rowBlocks design before row rest.head? (agree row List.mem_cons_self)).append others

private theorem sectionBlocks {source rows : List Row}
    (member : rows ∈ sections design.columns source) :
    Course design.columns .between (design.sectionBlocks rows) .between := by
  obtain ⟨first, rest, rfl⟩ := List.exists_cons_of_ne_nil (List.ne_nil_of_mem_splitBy member)
  let key := SectionKey.ofRow design.columns first
  have agree : ∀ row ∈ first :: rest, key.agrees (.ofRow design.columns row) = true := by
    intro row inside
    rcases List.mem_cons.mp inside with rfl | later
    · exact sameSection_refl design.columns row
    · exact sameSection_of_isChain (List.isChain_of_mem_splitBy member) row later
  have headers : Course design.columns .between [.sectionHeader key, .columnHeader] (.after key []) :=
    .cons (.sectionHeader key) (.single (.columnHeader key))
  have rows := rowsBlocks design [] (first :: rest) agree
  obtain ⟨last, found⟩ : ∃ last, (first :: rest).getLast? = some last :=
    Option.isSome_iff_exists.mp (List.getLast?_isSome.mpr (List.cons_ne_nil first rest))
  have reached : Stage.after key (first :: rest) = .within key last := by
    simp [Stage.after, found]
  rw [List.nil_append, reached] at rows
  exact (headers.append rows).append (.single (.sectionTotals key last _))

/-- A report takes its course from section to section. -/
theorem outline (rows : List Row) : Course design.columns .between (design.outline rows) .between := by
  have grand : Course design.columns .between (design.grandBlocks rows) .between := by
    rw [Design.grandBlocks]
    split
    · exact .single (.grandTotals _)
    · exact .nil _
  refine append ?_ grand
  have each (group : List Row) (member : group ∈ sections design.columns rows) :
      Course design.columns .between (design.sectionBlocks group) .between :=
    sectionBlocks design member
  generalize sections design.columns rows = groups at each
  induction groups with
  | nil => exact .nil _
  | cons group groups ih =>
    rw [List.flatMap_cons]
    exact (each group List.mem_cons_self).append
      (ih fun other member => each other (List.mem_cons_of_mem _ member))

end Course

end PagedReport
