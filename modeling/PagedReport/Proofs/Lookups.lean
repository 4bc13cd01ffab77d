import PagedReport.Proofs.Consistency

/-! # Lookups by position

A layout takes values from lists by their position and does not ask whether the list is long enough:
values from a row, the row before and the row ahead, names of columns for errors, pages to fill, and
rows of the result set. The keys of sections are gone through beside the columns. This module follows
a layout from step to step, lists its lookups, and proves that each is within its list.
-/

namespace PagedReport

/-- The position of a lookup and the length of the list. -/
structure Lookup where
  index : Nat
  length : Nat
deriving DecidableEq, Repr

/-- The list has an entry at the position. -/
def Lookup.InRange (lookup : Lookup) : Prop := lookup.index < lookup.length

/-- Every one of the lookups finds an entry. -/
def AllInRange (lookups : List Lookup) : Prop := ∀ lookup ∈ lookups, lookup.InRange

@[simp] theorem allInRange_nil : AllInRange [] := by simp [AllInRange]

@[simp] theorem allInRange_cons {lookup : Lookup} {rest : List Lookup} :
    AllInRange (lookup :: rest) ↔ lookup.InRange ∧ AllInRange rest := by simp [AllInRange]

@[simp] theorem allInRange_append {first second : List Lookup} :
    AllInRange (first ++ second) ↔ AllInRange first ∧ AllInRange second := by
  simp [AllInRange, or_imp, forall_and]

/-- The lookups of all positions below a number. -/
def Lookup.upTo (count length : Nat) : List Lookup := (List.range count).map fun index => ⟨index, length⟩

theorem allInRange_upTo {count length : Nat} (bound : count ≤ length) :
    AllInRange (Lookup.upTo count length) := by
  intro lookup member
  obtain ⟨index, below, rfl⟩ := List.mem_map.mp member
  exact Nat.lt_of_lt_of_le (List.mem_range.mp below) bound

namespace Design

variable (design : Design)

/-- The lookups of a data row: the value of every column that is shown and, for a group column, that
of the row before. -/
def rowLookups (row : Row) (previous : Option Row) : List Lookup :=
  (visibleColumns design.columns).flatMap fun place =>
    ⟨place.2, row.length⟩ ::
      if place.1.isGroup then previous.toList.map fun earlier => ⟨place.2, earlier.length⟩ else []

/-- The lookups of a section key, which has a value for every column. -/
def keyLookups (row : Row) : List Lookup :=
  Lookup.upTo design.columns.length (SectionKey.ofRow design.columns row).values.length

variable {design} {row : Row}

theorem allInRange_rowLookups (width : row.length = design.columns.length) {previous : Option Row}
    (wide : ∀ earlier ∈ previous, earlier.length = design.columns.length) :
    AllInRange (design.rowLookups row previous) := by
  intro lookup member
  obtain ⟨place, shown, found⟩ := List.mem_flatMap.mp member
  obtain ⟨bound, _⟩ := List.getElem?_eq_some_iff.mp
    (List.mem_zipIdx_iff_getElem?.mp (List.mem_filter.mp shown).1)
  rcases List.mem_cons.mp found with rfl | found
  · exact Nat.lt_of_lt_of_eq bound width.symm
  · split at found
    · obtain ⟨earlier, known, rfl⟩ := List.mem_map.mp found
      exact Nat.lt_of_lt_of_eq bound (wide earlier (Option.mem_toList.mp known)).symm
    · cases found

theorem allInRange_keyLookups (width : row.length = design.columns.length) :
    AllInRange (design.keyLookups row) := by
  apply allInRange_upTo
  simp [SectionKey.ofRow, width]

end Design

namespace LayoutRun

/-- The lookup of the page that is being filled. -/
def pageLookup (run : LayoutRun) : Lookup := ⟨run.paginator.currentPage, run.paginator.pages.length⟩

theorem inRange_pageLookup (run : LayoutRun) : run.pageLookup.InRange := by
  simp [Lookup.InRange, pageLookup, Paginator.currentPage, Paginator.pages]

/-- The lookup of the page to which a step has come, if it has not failed. -/
def reachedLookups : Except ReportError LayoutRun → List Lookup
  | .ok run => [run.pageLookup]
  | .error _ => []

theorem allInRange_reachedLookups (step : Except ReportError LayoutRun) :
    AllInRange (reachedLookups step) := by
  cases step with
  | ok run => simp [reachedLookups, inRange_pageLookup]
  | error error => exact allInRange_nil

/-- The lookups of the headers of a section. -/
def startLookups (design : Design) (run : LayoutRun) (key : SectionKey) : List Lookup :=
  [(run.append [design.sectionHeader key run.paginator.y]).pageLookup,
    (startSection design run key).pageLookup]

/-- The lookups of a data row, with those of the headers above it if it opens a page. -/
def placeLookups (design : Design) (run : LayoutRun) (row : Row) : List Lookup :=
  let opened := { run with paginator := run.paginator.newPage }
  let headed := repeatIf design.options.repeatSectionHeader opened opened.sectionHeader
  let below := repeatIf design.options.repeatColumnHeader headed headed.columnHeader
  design.rowLookups row run.previous ++
    [opened.pageLookup, headed.pageLookup, below.pageLookup] ++
    reachedLookups (placeRow design run row)

/-- The lookups of the names of the columns, by which a value that is refused is reported. -/
def nameLookups (run : LayoutRun) (row : Row) : List Lookup :=
  Lookup.upTo row.length run.totals.columns.length

/-- The lookups of the totals of group columns, one column after the other. -/
def groupLookups (design : Design) (row : Row) : List Nat → LayoutRun → List Lookup
  | [], _ => []
  | column :: rest, run =>
    ⟨column, row.length⟩ ::
      match closeGroup design row run column with
      | .error _ => []
      | .ok run => run.pageLookup :: groupLookups design row rest run

/-- The lookups of the totals of a section and of its groups. -/
def sectionLookups (design : Design) (row : Row) (run : LayoutRun) : List Lookup :=
  groupLookups design row run.totals.groupColumns run ++ reachedLookups (closeSection design row run)

/-- The lookups that tell which groups end between two rows, and those of their totals. -/
def changeLookups (design : Design) (row next : Row) (run : LayoutRun) : List Lookup :=
  (run.totals.groupColumns.flatMap fun column => [⟨column, row.length⟩, ⟨column, next.length⟩]) ++
    groupLookups design row
      (run.totals.groupColumns.filter fun column =>
        !(row.getD column .null).agrees (next.getD column .null)) run

/-- The lookups of all totals that are due after a row. -/
def closeLookups (design : Design) (row : Row) (next : Option Row) (run : LayoutRun) : List Lookup :=
  match next with
  | none => sectionLookups design row run
  | some next =>
    design.keyLookups next ++
      if startsSection run.detector.current (.ofRow design.columns next) then
        sectionLookups design row run
      else changeLookups design row next run

/-- The lookups of a row that is taken into the report. -/
def enterLookups (design : Design) (isFirst : Bool) (row : Row) (run : LayoutRun) : List Lookup :=
  let key := SectionKey.ofRow design.columns row
  design.keyLookups row ++
    match run.detector.observe (run.rowCount + 1) isFirst key with
    | .error _ => []
    | .ok (isNew, detector) =>
      let run := { run with rowCount := run.rowCount + 1, detector }
      (if isNew then startLookups design run key else []) ++
        placeLookups design (if isNew then startSection design run key else run) row ++
        run.nameLookups row

/-- The lookups of a visit to a row, as far as it comes. -/
def visitLookups (design : Design) (isFirst : Bool) (row : Row) (next : Option Row)
    (run : LayoutRun) : List Lookup :=
  enterLookups design isFirst row run ++
    match enterRow design isFirst row run with
    | .error _ => []
    | .ok run => closeLookups design row next run

/-- The lookup of the row at which a cursor stands. -/
def cursorLookups (cursor : Cursor) : List Lookup :=
  cursor.currentIndex?.toList.map fun index => ⟨index, cursor.set.rows.length⟩

/-- The lookups of the visits to the rows ahead of a cursor and of the grand totals after them, as
far as the layout comes. -/
def rowsLookups (design : Design) : (fuel : Nat) → Cursor → LayoutRun → List Lookup
  | 0, _, _ => []
  | fuel + 1, cursor, run =>
    match RowCursor.advance cursor with
    | (false, _) => reachedLookups (appendTotals design run run.totals.flushGrand true)
    | (true, cursor) =>
      cursorLookups cursor ++ cursorLookups (RowCursor.advance cursor).2 ++
        match RowCursor.row cursor, RowCursor.peekNext cursor with
        | .ok row, (.ok next, after) =>
          visitLookups design (RowCursor.isFirst cursor) row next run ++
            match visitRow design (RowCursor.isFirst cursor) row (.ok next) run with
            | .error _ => []
            | .ok run => rowsLookups design fuel after run
        | _, _ => []

/-- The lookups of a layout. -/
def layOutLookups (design : Design) (cursor : Cursor) : List Lookup :=
  rowsLookups design (RowCursor.rowBound cursor + 1) (RowCursor.rewind cursor) (start design)

section Steps

variable {design : Design} {isFirst : Bool} {run : LayoutRun} {row : Row}

theorem allInRange_placeLookups (consistent : run.Consistent design isFirst)
    (width : row.length = design.columns.length) : AllInRange (placeLookups design run row) := by
  simp [placeLookups, inRange_pageLookup, allInRange_reachedLookups,
    Design.allInRange_rowLookups width consistent.previous]

theorem allInRange_nameLookups (consistent : run.Consistent design isFirst)
    (width : row.length = design.columns.length) : AllInRange (run.nameLookups row) := by
  obtain ⟨_, _, _, tracks⟩ := consistent.tracks
  exact allInRange_upTo (by rw [tracks.columns_eq, width])

theorem allInRange_groupLookups (consistent : run.Consistent design isFirst)
    (width : row.length = design.columns.length) {columns : List Nat}
    (bound : ∀ column ∈ columns, column < design.columns.length) :
    AllInRange (groupLookups design row columns run) := by
  induction columns generalizing run with
  | nil => exact allInRange_nil
  | cons column rest ih =>
    have ends : Ends (Consistent design isFirst) (DataError design []) (closeGroup design row run column) :=
      consistent.ends_closeGroup row column
    rw [groupLookups, allInRange_cons]
    refine ⟨Nat.lt_of_lt_of_eq (bound column List.mem_cons_self) width.symm, ?_⟩
    cases closed : closeGroup design row run column with
    | error error => exact allInRange_nil
    | ok next =>
      have others := ih (ends.of_ok closed) fun other member =>
        bound other (List.mem_cons_of_mem _ member)
      exact allInRange_cons.mpr ⟨next.inRange_pageLookup, others⟩

theorem allInRange_sectionLookups (consistent : run.Consistent design isFirst)
    (width : row.length = design.columns.length) : AllInRange (sectionLookups design row run) := by
  rw [sectionLookups, allInRange_append]
  refine ⟨allInRange_groupLookups consistent width ?_, allInRange_reachedLookups _⟩
  exact fun _ member => consistent.groupColumns_lt member

theorem allInRange_changeLookups (consistent : run.Consistent design isFirst)
    (width : row.length = design.columns.length) {next : Row}
    (wide : next.length = design.columns.length) :
    AllInRange (changeLookups design row next run) := by
  rw [changeLookups, allInRange_append]
  constructor
  · intro lookup member
    obtain ⟨column, known, found⟩ := List.mem_flatMap.mp member
    have bound := consistent.groupColumns_lt known
    rcases List.mem_pair.mp found with rfl | rfl
    · exact Nat.lt_of_lt_of_eq bound width.symm
    · exact Nat.lt_of_lt_of_eq bound wide.symm
  · refine allInRange_groupLookups consistent width fun column member => ?_
    exact consistent.groupColumns_lt (List.mem_filter.mp member).1

theorem allInRange_closeLookups (consistent : run.Consistent design isFirst)
    (width : row.length = design.columns.length) {next : Option Row}
    (wide : ∀ row ∈ next, row.length = design.columns.length) :
    AllInRange (closeLookups design row next run) := by
  cases next with
  | none => exact allInRange_sectionLookups consistent width
  | some next =>
    have ahead := wide next rfl
    rw [closeLookups, allInRange_append]
    refine ⟨Design.allInRange_keyLookups ahead, ?_⟩
    split
    · exact allInRange_sectionLookups consistent width
    · exact allInRange_changeLookups consistent width ahead

theorem allInRange_enterLookups (consistent : run.Consistent design isFirst)
    (width : row.length = design.columns.length) :
    AllInRange (enterLookups design isFirst row run) := by
  rw [enterLookups, allInRange_append]
  refine ⟨Design.allInRange_keyLookups width, ?_⟩
  split
  · exact allInRange_nil
  · next isNew detector observed =>
    let counted : LayoutRun := { run with rowCount := run.rowCount + 1, detector := detector }
    -- The lookups of a row that is placed do not ask whether a section is open.
    have entered : counted.Consistent design true :=
      ⟨consistent.tracks, consistent.previous, .inl rfl⟩
    have names := allInRange_nameLookups entered width
    cases isNew with
    | false =>
      exact allInRange_append.mpr ⟨allInRange_placeLookups entered width, names⟩
    | true =>
      have headers : AllInRange (startLookups design counted (.ofRow design.columns row)) := by
        simp [startLookups, inRange_pageLookup]
      exact allInRange_append.mpr ⟨allInRange_append.mpr ⟨headers,
        allInRange_placeLookups (entered.startSection _) width⟩, names⟩

theorem allInRange_visitLookups (consistent : run.Consistent design isFirst)
    (width : row.length = design.columns.length) {next : Option Row}
    (wide : ∀ row ∈ next, row.length = design.columns.length) :
    AllInRange (visitLookups design isFirst row next run) := by
  have ends := consistent.ends_enterRow (List.mem_singleton_self row) width
  rw [visitLookups, allInRange_append]
  refine ⟨allInRange_enterLookups consistent width, ?_⟩
  cases entered : enterRow design isFirst row run with
  | error error => exact allInRange_nil
  | ok next => exact allInRange_closeLookups (ends.of_ok entered) width wide

end Steps

theorem allInRange_cursorLookups_behind (set : ResultSet) {count : Nat}
    (within : count ≤ set.rows.length) : AllInRange (cursorLookups (Cursor.behind set count)) := by
  cases count with
  | zero => exact allInRange_nil
  | succ index => simpa [cursorLookups, Cursor.currentIndex?, Cursor.behind, Lookup.InRange]

/-- Every lookup of the visits to the rows that are left is in range. -/
theorem allInRange_rowsLookups {design : Design} {set : ResultSet}
    (width : design.columns.length = set.columns.length) (fuel : Nat) {count : Nat}
    {run : LayoutRun} (consistent : run.Consistent design (count == 0))
    (within : count ≤ set.rows.length) :
    AllInRange (rowsLookups design fuel (Cursor.behind set count) run) := by
  have wide (row : Row) (known : row ∈ set.rows) : row.length = design.columns.length :=
    (set.rectangular row known).trans width.symm
  induction fuel generalizing count run with
  | zero => exact allInRange_nil
  | succ fuel ih =>
    by_cases more : count < set.rows.length
    · have known := List.getElem_mem more
      have ahead (row : Row) (found : row ∈ set.rows[count + 1]?) :=
        wide row (List.mem_of_getElem? found)
      have peeked : AllInRange (cursorLookups (RowCursor.advance (Cursor.behind set (count + 1))).2) := by
        by_cases last : count + 1 < set.rows.length
        · rw [Cursor.advance_behind last]
          exact allInRange_cursorLookups_behind set last
        · rw [Cursor.advance_behind_all (Nat.le_of_not_lt last)]
          exact allInRange_nil
      have ends := consistent.ends_visitRow known (wide _ known) set.rows[count + 1]?
      simp only [rowsLookups, Cursor.advance_behind more, Cursor.row_behind more,
        Cursor.peekNext_behind more, Cursor.isFirst_behind, allInRange_append]
      refine ⟨⟨allInRange_cursorLookups_behind set more, peeked⟩,
        allInRange_visitLookups consistent (wide _ known) ahead, ?_⟩
      cases visited : visitRow design (count == 0) set.rows[count] (.ok set.rows[count + 1]?) run with
      | error error => exact allInRange_nil
      | ok next => exact ih (ends.of_ok visited) more
    · simp only [rowsLookups, Cursor.advance_behind_all (Nat.le_of_not_lt more)]
      exact allInRange_reachedLookups _

/-- A layout with a column for each of those of the result set looks up nothing that is not there. -/
theorem allInRange_layOutLookups {design : Design} {cursor : Cursor}
    (width : design.columns.length = cursor.set.columns.length) :
    AllInRange (layOutLookups design cursor) := by
  have unvisited : (start design).Consistent design (0 == 0) := consistent_start design
  exact allInRange_rowsLookups width (cursor.set.rows.length + 1) unvisited (Nat.zero_le _)

end LayoutRun

end PagedReport
