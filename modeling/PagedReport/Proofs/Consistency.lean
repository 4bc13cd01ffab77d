import PagedReport.Proofs.Faults

/-! # Runs that are consistent

Between its steps a layout is consistent: its totals are those of its columns, the row before has a
value for every column, and a section is open after the first row. Every step of a consistent layout
leaves it consistent or fails because of a value of the rows, and for no other reason.
-/

namespace PagedReport

/-- The errors that stem from the values of rows. -/
inductive DataError (design : Design) (rows : List Row) : ReportError → Prop
  /-- A value that has to be totalled is neither null nor a number. -/
  | notNumeric {row : Row} {place : Column × Value} (known : row ∈ rows)
      (inRow : place ∈ design.columns.zip row)
      (totalled : place.1.isNumeric = true ∨ place.1.subtotal = true)
      (foreign : place.2.isForeign = true) :
      DataError design rows (.notNumeric place.1.name place.2)
  /-- A value that has to be subtotalled is null. -/
  | nullSubtotal {row : Row} {place : Column × Value} (known : row ∈ rows)
      (inRow : place ∈ design.columns.zip row) (totalled : place.1.subtotal = true)
      (missing : place.2.isNull = true) (number : Nat) :
      DataError design rows (.nullSubtotal place.1.name number)
  /-- A total of a column is out of range. -/
  | totalOverflow {column : Column} (known : column ∈ design.columns) (number : Nat) :
      DataError design rows (.totalOverflow column.name number)
  /-- A value of a row cannot be shown in the format of its column. -/
  | formatValue {row : Row} {place : Column × Value} {format : NumberFormat} {source : FormatError}
      (known : row ∈ rows) (inRow : place ∈ design.columns.zip row)
      (formatted : place.1.format = some format) (given : place.2.isNull = false)
      (refused : format.format place.2 = .error source) :
      DataError design rows (.format place.1.name source)
  /-- A total cannot be shown in the format of its column. -/
  | formatTotal {column : Column} {total : Decimal} {format : NumberFormat} {source : FormatError}
      (known : column ∈ design.columns) (formatted : column.format = some format)
      (refused : format.format (.number total) = .error source) :
      DataError design rows (.format column.name source)

section Cells

variable {design : Design} {rows : List Row}

/-- A value is not shown only if the format of its column refuses it. -/
private theorem displayText_eq_error {column : Column} {value : Value} {error : ReportError}
    (run : design.displayText column value = .error error) :
    ∃ format source, column.format = some format ∧ value.isNull = false ∧
      format.format value = .error source ∧ error = .format column.name source := by
  unfold Design.displayText at run
  split at run
  · cases run
  · next format formatted =>
    split at run
    · cases run
    · next given =>
      cases shown : format.format value with
      | ok text => simp [shown, Except.mapError] at run
      | error source =>
        rw [shown] at run
        cases run
        exact ⟨format, source, formatted, by simpa using given, shown, rfl⟩

/-- A column that is shown has its value in a row that is wide enough. -/
private theorem mem_zip_of_visible {row : Row} (width : row.length = design.columns.length)
    {place : Column × Nat} (member : place ∈ visibleColumns design.columns) :
    (place.1, row.getD place.2 .null) ∈ design.columns.zip row := by
  obtain ⟨known, _⟩ := List.mem_filter.mp member
  obtain ⟨bound, found⟩ := List.getElem?_eq_some_iff.mp (List.mem_zipIdx_iff_getElem?.mp known)
  have inRow : place.2 < row.length := width ▸ bound
  refine List.mem_iff_getElem.mpr ⟨place.2, by simp [bound, inRow], ?_⟩
  simp [found, inRow]

theorem ends_dataRow {row : Row} (known : row ∈ rows) (width : row.length = design.columns.length)
    (previous : Option Row) (y : Int) (showRepeats : Bool) :
    Ends (fun _ => True) (DataError design rows) (design.dataRow row previous y showRepeats) := by
  refine Ends.mapM fun place member => ?_
  have inRow := mem_zip_of_visible width member
  have shown : Ends (fun _ => True) (DataError design rows)
      (design.displayText place.1 (row.getD place.2 .null)) := by
    cases made : design.displayText place.1 (row.getD place.2 .null) with
    | ok text => trivial
    | error error =>
      obtain ⟨format, source, formatted, given, refused, rfl⟩ := displayText_eq_error made
      exact .formatValue known inRow formatted given refused
  exact shown.bind fun text _ => trivial

private theorem ends_totalCell {column : Column} (known : column ∈ design.columns) (line : TotalsLine)
    (grand : Bool) (y : Int) (index : Nat) :
    Ends (fun _ => True) (DataError design rows) (design.totalCell line grand y column index) := by
  unfold Design.totalCell
  split
  · trivial
  · next total held =>
    have shown : Ends (fun _ => True) (DataError design rows)
        (design.displayText column (.number total)) := by
      cases made : design.displayText column (.number total) with
      | ok text => trivial
      | error error =>
        obtain ⟨format, source, formatted, _, refused, rfl⟩ := displayText_eq_error made
        exact .formatTotal known formatted refused
    exact shown.bind fun text _ => trivial

theorem ends_totals (line : TotalsLine) (grand : Bool) (y : Int) :
    Ends (fun _ => True) (DataError design rows) (design.totals line grand y) := by
  unfold Design.totals
  split
  · refine (Ends.mapM fun place member => ?_).bind fun cells _ => trivial
    have known := List.fst_mem_of_mem_zipIdx (List.mem_filter.mp member).1
    exact ends_totalCell known line grand y place.2
  · trivial

end Cells

/-- The amounts of a row are refused only because of one of its values. -/
private theorem dataError_of_rowAmounts {design : Design} {rows : List Row} {policy : NullSubtotals}
    {number : Nat} {row : Row} {error : ReportError} (known : row ∈ rows)
    (run : TotalsTracker.rowAmounts policy number design.columns 0 row = .error error) :
    DataError design rows error := by
  have fault := errorOf?_rowAmounts policy number design.columns 0 row
  rw [run, errorOf?_error] at fault
  obtain ⟨place, inRow, found⟩ := List.exists_of_findSome?_eq_some fault.symm
  unfold Column.totalFault? at found
  split at found
  · next wrong =>
    cases found
    obtain ⟨totalled, foreign⟩ := Bool.and_eq_true_iff.mp wrong
    exact .notNumeric known inRow (Bool.or_eq_true_iff.mp totalled) foreign
  · split at found
    · next wrong =>
      cases found
      obtain ⟨missing, _⟩ := Bool.and_eq_true_iff.mp wrong
      obtain ⟨totalled, null⟩ := Bool.and_eq_true_iff.mp missing
      exact .nullSubtotal known inRow totalled null number
    · cases found

namespace LayoutRun

/-- What holds of a layout between its steps; `isFirst` tells that no row has been visited. -/
structure Consistent (design : Design) (isFirst : Bool) (run : LayoutRun) : Prop where
  tracks : ∃ all current runs, run.totals.Tracks design.columns all current runs
  previous : ∀ earlier ∈ run.previous, earlier.length = design.columns.length
  opened : isFirst = true ∨ run.detector.current.isSome = true

variable {design : Design} {rows : List Row} {isFirst : Bool} {run : LayoutRun}

theorem consistent_start (design : Design) : (start design).Consistent design true where
  tracks := ⟨[], [], fun _ => [], .start design.columns design.options.nullSubtotals⟩
  previous _ none := nomatch none
  opened := .inl rfl

namespace Consistent

theorem append (consistent : run.Consistent design isFirst) (cells : List Cell) :
    (run.append cells).Consistent design isFirst :=
  ⟨consistent.tracks, consistent.previous, consistent.opened⟩

theorem repeatIf (consistent : run.Consistent design isFirst) (wanted : Bool) (cells : List Cell) :
    (LayoutRun.repeatIf wanted run cells).Consistent design isFirst := by
  cases wanted with
  | false => exact consistent
  | true => exact ⟨consistent.tracks, consistent.previous, consistent.opened⟩

theorem startSection (consistent : run.Consistent design isFirst) (key : SectionKey) :
    (LayoutRun.startSection design run key).Consistent design isFirst where
  tracks := consistent.tracks
  previous _ none := nomatch none
  opened := consistent.opened

theorem groupColumns_lt (consistent : run.Consistent design isFirst) {column : Nat}
    (member : column ∈ run.totals.groupColumns) : column < design.columns.length := by
  obtain ⟨_, _, _, tracks⟩ := consistent.tracks
  rw [tracks.groupColumns_eq, List.mem_reverse] at member
  obtain ⟨place, known, rfl⟩ := List.mem_map.mp member
  exact (List.getElem?_eq_some_iff.mp
    (List.mem_zipIdx_iff_getElem?.mp (List.mem_filter.mp known).1)).1

theorem ends_placeRow (consistent : run.Consistent design isFirst) {row : Row} (known : row ∈ rows)
    (width : row.length = design.columns.length) :
    Ends (Consistent design isFirst) (DataError design rows) (placeRow design run row) := by
  refine (ends_dataRow known width _ _ _).bind fun cells _ => ?_
  split
  · let opened : LayoutRun := { run with paginator := run.paginator.newPage }
    have same : opened.Consistent design isFirst :=
      ⟨consistent.tracks, consistent.previous, consistent.opened⟩
    have headed := (same.repeatIf design.options.repeatSectionHeader opened.sectionHeader)
    exact (ends_dataRow known width _ _ _).bind fun cells _ => (headed.repeatIf _ _).append cells
  · exact consistent.append cells

theorem ends_appendTotals (consistent : run.Consistent design isFirst) (line : TotalsLine)
    (grand : Bool) :
    Ends (Consistent design isFirst) (DataError design rows) (appendTotals design run line grand) :=
  (ends_totals line grand _).bind fun cells _ => consistent.append cells

theorem ends_closeGroup (consistent : run.Consistent design isFirst) (row : Row) (column : Nat) :
    Ends (Consistent design isFirst) (DataError design rows) (closeGroup design row run column) := by
  obtain ⟨_, _, _, tracks⟩ := consistent.tracks
  unfold closeGroup
  by_cases group : column ∈ groupIndexes design.columns
  · obtain ⟨flushed, found, left⟩ :=
      tracks.flushGroup group (" " ++ design.plainText (row.getD column .null))
    rw [found]
    have taken : Consistent design isFirst { run with totals := flushed } :=
      ⟨⟨_, _, _, left⟩, consistent.previous, consistent.opened⟩
    exact taken.ends_appendTotals _ false
  · rw [tracks.flushGroup_eq_none group]
    exact consistent

theorem ends_closeSection (consistent : run.Consistent design isFirst) (row : Row) :
    Ends (Consistent design isFirst) (DataError design rows) (closeSection design row run) := by
  have groups : Ends (Consistent design isFirst) (DataError design rows)
      (run.totals.groupColumns.foldlM (closeGroup design row) run) :=
    Ends.foldlM consistent fun column _ run consistent => consistent.ends_closeGroup row column
  refine groups.bind fun run consistent => ?_
  obtain ⟨_, _, _, tracks⟩ := consistent.tracks
  let label := (run.detector.current.map fun key => key.totalsLabel design.columns).getD ""
  have taken : Consistent design isFirst { run with totals := (run.totals.flushSection label).2 } :=
    ⟨⟨_, _, _, (tracks.flushSection label).2⟩, consistent.previous, consistent.opened⟩
  refine (taken.ends_appendTotals _ false).bind fun run consistent => ?_
  exact ⟨consistent.tracks, consistent.previous, consistent.opened⟩

theorem ends_closeAfter (consistent : run.Consistent design isFirst) (row : Row)
    (next : Option Row) :
    Ends (Consistent design isFirst) (DataError design rows) (closeAfter design row next run) := by
  cases next with
  | none => exact consistent.ends_closeSection row
  | some next =>
    rw [closeAfter]
    split
    · exact consistent.ends_closeSection row
    · exact Ends.foldlM consistent fun column _ run consistent => consistent.ends_closeGroup row column

/-- The amounts of a row are added, or one of them is refused or too large. -/
private theorem ends_accumulate (consistent : run.Consistent design isFirst) {row : Row}
    (known : row ∈ rows) (number : Nat) :
    Ends (fun totals => ∃ all current runs, totals.Tracks design.columns all current runs)
      (DataError design rows) (run.totals.accumulate number row) := by
  obtain ⟨all, current, runs, tracks⟩ := consistent.tracks
  cases added : run.totals.accumulate number row with
  | ok totals => exact ⟨_, _, _, tracks.accumulate added⟩
  | error error =>
    cases read : TotalsTracker.rowAmounts run.totals.nullSubtotals number design.columns 0 row with
    | error refusal =>
      have same : run.totals.accumulate number row = .error refusal := by
        rw [TotalsTracker.accumulate, tracks.columns_eq, read]
        rfl
      rw [added] at same
      cases same
      exact dataError_of_rowAmounts known read
    | ok found =>
      obtain ⟨_, _, column, _, _, there, _, _, _, rfl⟩ := tracks.accumulate_eq_error read added
      exact .totalOverflow (List.mem_of_getElem? there) number

theorem ends_enterRow (consistent : run.Consistent design isFirst) {row : Row} (known : row ∈ rows)
    (width : row.length = design.columns.length) :
    Ends (Consistent design false) (DataError design rows) (enterRow design isFirst row run) := by
  obtain ⟨isNew, detector, observed, open'⟩ := Account.exists_observe consistent.opened
    (run.rowCount + 1) (.ofRow design.columns row)
  rw [enterRow, observed]
  let counted : LayoutRun := { run with rowCount := run.rowCount + 1, detector := detector }
  have entered : counted.Consistent design false :=
    ⟨consistent.tracks, consistent.previous, .inr open'⟩
  have headed : (if isNew then LayoutRun.startSection design counted (.ofRow design.columns row)
      else counted).Consistent design false := by
    cases isNew with
    | false => exact entered
    | true => exact entered.startSection _
  refine (headed.ends_placeRow known width).bind fun placed consistent => ?_
  refine (consistent.ends_accumulate known _).bind fun totals tracks => ?_
  exact ⟨tracks, consistent.previous, consistent.opened⟩

theorem ends_visitRow (consistent : run.Consistent design isFirst) {row : Row} (known : row ∈ rows)
    (width : row.length = design.columns.length) (next : Option Row) :
    Ends (Consistent design false) (DataError design rows)
      (visitRow design isFirst row (.ok next) run) := by
  refine (consistent.ends_enterRow known width).bind fun run consistent => ?_
  refine (consistent.ends_closeAfter row next).bind fun run consistent => ?_
  refine ⟨consistent.tracks, ?_, consistent.opened⟩
  intro earlier same
  cases same
  exact width

theorem ends_finish (consistent : run.Consistent design isFirst) :
    Ends (fun _ => True) (DataError design rows) (finish design run) := by
  rw [finish]
  split
  · exact (consistent.ends_appendTotals _ true).bind fun run _ => trivial
  · trivial

/-- The visits to rows leave a consistent layout or fail because of a value of the rows. -/
theorem ends_visitEach (consistent : run.Consistent design isFirst) {visited : List Row}
    (known : ∀ row ∈ visited, row ∈ rows)
    (wide : ∀ row ∈ visited, row.length = design.columns.length) :
    Ends (fun run => ∃ isFirst, run.Consistent design isFirst) (DataError design rows)
      (visitEach design isFirst visited run) := by
  induction visited generalizing isFirst run with
  | nil => exact ⟨isFirst, consistent⟩
  | cons row rest ih =>
    refine (consistent.ends_visitRow (known row List.mem_cons_self)
      (wide row List.mem_cons_self) rest.head?).bind fun run consistent => ?_
    refine ih consistent ?_ ?_
    · exact fun other member => known other (List.mem_cons_of_mem _ member)
    · exact fun other member => wide other (List.mem_cons_of_mem _ member)

end Consistent

end LayoutRun

/-- A layout with a column for each of those of the result set fails only because of a value. -/
theorem Report.ends_layOut {design : Design} {cursor : Cursor}
    (width : design.columns.length = cursor.set.columns.length) :
    Ends (fun _ => True) (DataError design cursor.set.rows) (Report.new cursor design).layOut.1 := by
  rw [Report.layOut_new, if_pos width, LayoutRun.layOut_eq_visitEach]
  have wide : ∀ row ∈ cursor.set.rows, row.length = design.columns.length :=
    fun row member => (cursor.set.rectangular row member).trans width.symm
  have visits := (LayoutRun.consistent_start design).ends_visitEach (fun _ member => member) wide
  exact visits.bind fun run consistent => consistent.choose_spec.ends_finish

end PagedReport
