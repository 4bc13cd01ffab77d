import PagedReport.Definition.Json
import PagedReport.Proofs.Decimal.Rounding
import PagedReport.Proofs.Lookups
import PagedReport.ResultSet.Csv

/-! # Reports that are checked

A definition is checked against a result set before a report is laid out: they need as many columns.
That check is enough. A layout after it looks up nothing that is not there, and if it fails, then
because of a value. CSV cells that were read with the data types of the definition leave even fewer
reasons: the numeric columns hold numbers and nulls, so only the other columns can hold a value that
is no number.
-/

namespace PagedReport

/-- Whether an error says that a layout was not used or did not walk as it should. -/
def ReportError.isInternal : ReportError → Bool
  | .alreadyLaidOut | .columnCountMismatch _ _ | .undefinedSectionKey _ | .noCurrentRow
  | .columnOutOfRange _ _ => true
  | _ => false

/-- The errors that stem from values are not internal. -/
theorem DataError.isInternal_eq_false {design : Design} {rows : List Row} {error : ReportError}
    (stems : DataError design rows error) : error.isInternal = false := by
  cases stems <;> rfl

/-- The design of a report after its definition. -/
def Definition.design (definition : Definition) (metrics : Metrics) : Design :=
  ⟨definition.layoutColumns, definition.layout, metrics⟩

/-- A checked definition has a column for each of those of the result set. -/
theorem Definition.length_of_checkNames {definition : Definition} {names : List String}
    {warnings : List NameWarning} (checked : definition.checkNames names = .ok warnings) :
    definition.layoutColumns.length = names.length := by
  unfold checkNames at checked
  split at checked
  · cases checked
  · next same => simpa [layoutColumns, eq_comm] using same

section Typing

/-- The values that a CSV column of a data type holds. -/
def DataType.Holds : DataType → Value → Prop
  | numeric, value => value.isNull = true ∨ ∃ n, value = .number n
  | other, value => value.isNull = true ∨ ∃ s, value = .text s

private theorem holds_of_valueOfField {dataType : DataType} {column field : String} {value : Value}
    (read : ResultSet.valueOfField dataType column field = .ok value) : dataType.Holds value := by
  unfold ResultSet.valueOfField at read
  split at read
  · cases read
    cases dataType <;> exact .inl rfl
  · cases dataType with
    | other =>
      cases read
      exact .inr ⟨field, rfl⟩
    | numeric =>
      dsimp only at read
      split at read
      · cases read
        exact .inr ⟨_, rfl⟩
      · cases read

private theorem holds_of_rowOfRecord {columns : List String} {types : List DataType}
    {record : List Csv.RawField} {row : Row}
    (read : ResultSet.rowOfRecord columns types record = .ok row) :
    ∀ place ∈ types.zip row, place.1.Holds place.2 := by
  obtain ⟨fields, _, made⟩ := bind_eq_ok_iff.mp read
  have values := mapM_eq_ok_iff.mp made
  intro place member
  obtain ⟨index, inside, rfl⟩ := List.mem_iff_getElem.mp member
  have inRow : index < row.length := Nat.lt_of_lt_of_le inside (List.length_zip ▸ Nat.min_le_right ..)
  have cell := values.get (Nat.lt_of_lt_of_eq inRow values.length_eq.symm) inRow
  simp only [List.get_eq_getElem, List.getElem_zip] at cell ⊢
  exact holds_of_valueOfField cell

/-- CSV cells that were read with data types are of these types. -/
theorem ResultSet.holds_of_ofCsvInput {types : List DataType} {input : List Text.Symbol}
    {set : ResultSet} (read : ofCsvInput (some types) input = .ok set) :
    ∀ row ∈ set.rows, ∀ place ∈ types.zip row, place.1.Holds place.2 := by
  unfold ofCsvInput at read
  obtain ⟨columns, _, rest⟩ := bind_eq_ok_iff.mp read
  simp only [Option.getD_some] at rest
  split at rest
  · cases rest
  · obtain ⟨rows, made, checked⟩ := bind_eq_ok_iff.mp rest
    unfold ofRows at checked
    split at checked
    · cases checked
      intro row member
      obtain ⟨record, _, found⟩ := exists_of_mem_mapM made member
      exact holds_of_rowOfRecord found
    · cases checked

/-- In a column of a definition there are only values of its data type. -/
private theorem holds_of_mem_zip {definition : Definition} {input : List Text.Symbol}
    {set : ResultSet} (read : ResultSet.ofCsvInput (some definition.dataTypes) input = .ok set)
    {row : Row} (known : row ∈ set.rows) {place : Column × Value}
    (inRow : place ∈ definition.layoutColumns.zip row) : place.1.dataType.Holds place.2 := by
  have same : definition.dataTypes = definition.layoutColumns.map Column.dataType := by
    simp [Definition.dataTypes, Definition.layoutColumns, ColumnDefinition.column]
  refine ResultSet.holds_of_ofCsvInput read row known (place.1.dataType, place.2) ?_
  rw [same, List.zip_map_left]
  exact List.mem_map_of_mem inRow

/-- A number is not foreign, and neither is a null. -/
private theorem isForeign_of_holds_numeric {value : Value} (holds : DataType.numeric.Holds value) :
    value.isForeign = false := by
  rcases holds with null | ⟨n, rfl⟩
  · simp [Value.isForeign, null]
  · rfl

end Typing

/-- A format refuses a number only as a percentage that is too large. -/
private theorem format_number_eq_error {format : NumberFormat} {n : Decimal} {source : FormatError}
    (refused : format.format (.number n) = .error source) :
    (∃ places, format = .percentage places) ∧ source = .percentageTooLarge (.number n) ∧
      (Decimal.limit : ℚ) + 1 / 2 ≤ |n.toRat * 100| := by
  rw [← Decimal.timesHundred?_eq_none_iff]
  cases format with
  | percentage places =>
    cases hundred : n.timesHundred? with
    | none =>
      simp only [NumberFormat.format, Value.toDecimal?, NumberFormat.formatNumber, hundred] at refused
      cases refused
      exact ⟨⟨places, rfl⟩, rfl, rfl⟩
    | some percent =>
      simp [NumberFormat.format, Value.toDecimal?, NumberFormat.formatNumber, hundred] at refused
  | general | number _ _ | currency _ _ =>
    simp [NumberFormat.format, Value.toDecimal?, NumberFormat.formatNumber] at refused

/-- A layout after a check never fails with an internal error, only because of a value, and looks up
nothing that is not there. Over CSV cells of the data types of the definition, a value is refused as
no number only in a subtotal column that is not numeric, and a format fails only in a column that is
not numeric or over a percentage that is out of range. -/
theorem layOut_of_checkNames {definition : Definition} {cursor : Cursor}
    {warnings : List NameWarning} (checked : definition.checkNames cursor.set.columns = .ok warnings)
    (metrics : Metrics) :
    let design := definition.design metrics
    let result := (Report.new cursor design).layOut.1
    (∀ error, result = .error error →
        error.isInternal = false ∧ DataError design cursor.set.rows error) ∧
      AllInRange (LayoutRun.layOutLookups design cursor) ∧
      ∀ input, ResultSet.ofCsvInput (some definition.dataTypes) input = .ok cursor.set →
        (∀ name value, result = .error (.notNumeric name value) →
          ∃ row ∈ cursor.set.rows, ∃ place ∈ definition.layoutColumns.zip row, place.1.name = name ∧
            place.2 = value ∧ place.1.dataType = .other ∧ place.1.subtotal = true) ∧
        ∀ name source, result = .error (.format name source) →
          ∃ column ∈ definition.layoutColumns, column.name = name ∧
            (column.dataType = .other ∨ ∃ places n, column.format = some (.percentage places) ∧
              source = .percentageTooLarge (.number n) ∧
              (Decimal.limit : ℚ) + 1 / 2 ≤ |n.toRat * 100|) := by
  have width : (definition.design metrics).columns.length = cursor.set.columns.length :=
    definition.length_of_checkNames checked
  have ends := Report.ends_layOut width
  refine ⟨?_, LayoutRun.allInRange_layOutLookups width, ?_⟩
  · intro error failed
    have stems := ends.of_error failed
    exact ⟨stems.isInternal_eq_false, stems⟩
  intro input read
  constructor
  · intro name value failed
    cases ends.of_error failed with
    | @notNumeric row place known inRow totalled foreign =>
      have other : place.1.dataType = .other := by
        cases typed : place.1.dataType with
        | other => rfl
        | numeric =>
          have holds := holds_of_mem_zip read known inRow
          rw [typed] at holds
          simp [isForeign_of_holds_numeric holds] at foreign
      have idle : place.1.isNumeric = false := by simp [Column.isNumeric, other]
      refine ⟨row, known, place, inRow, rfl, rfl, other, ?_⟩
      exact totalled.resolve_left (by simp [idle])
  · intro name source failed
    cases ends.of_error failed with
    | @formatValue row place format source known inRow formatted given refused =>
      refine ⟨place.1, (List.of_mem_zip inRow).1, rfl, ?_⟩
      cases typed : place.1.dataType with
      | other => exact .inl rfl
      | numeric =>
        have holds := holds_of_mem_zip read known inRow
        rw [typed] at holds
        obtain ⟨n, same⟩ := holds.resolve_left (by simp [given])
        rw [same] at refused
        obtain ⟨⟨places, rfl⟩, rfl, large⟩ := format_number_eq_error refused
        exact .inr ⟨places, n, formatted, rfl, large⟩
    | @formatTotal column total format source known formatted refused =>
      obtain ⟨⟨places, rfl⟩, rfl, large⟩ := format_number_eq_error refused
      exact ⟨column, known, rfl, .inr ⟨places, total, formatted, rfl, large⟩⟩

/-- A definition with a subtotal column that is not numeric. -/
def feesText : String :=
  "\x7b\"columns\":[\x7b\"name\":\"Item\",\"group_or_break\":\"group\"\x7d," ++
    "\x7b\"name\":\"Fee\",\"subtotal\":true\x7d]\x7d"

/-- What the text defines. -/
def fees : Definition where
  columns := [{ name := "Item", role := .group }, { name := "Fee", subtotal := true }]

/-- Fees, one of which is not a number. -/
def feesCsv : String := "item,fee\nlight,12.50\nheat,n/a\n"

/-- The fees, with the cursor where another walk has left it. -/
def feesCursor : Cursor where
  set :=
    { columns := ["item", "fee"]
      rows := [[.text "light", .text "12.50"], [.text "heat", .text "n/a"]]
      rectangular := by decide }
  position := .afterLast

/-- The layout of the fees fails because one of them is not a number, after thirty-two lookups. -/
theorem layOut_fees_fails :
    let design := fees.design FixedPitch.standard.metrics
    Definition.ofText feesText = .ok fees ∧ fees.checkNames feesCursor.set.columns = .ok [] ∧
      ResultSet.ofCsvText (some fees.dataTypes) feesCsv = .ok feesCursor.set ∧
      (Report.new feesCursor design).layOut.1 = .error (.notNumeric "Fee" (.text "n/a")) ∧
      (∃ row ∈ feesCursor.set.rows, ∃ place ∈ fees.layoutColumns.zip row, place.1.name = "Fee" ∧
        place.2 = .text "n/a" ∧ place.1.dataType = .other ∧ place.1.subtotal = true) ∧
      (LayoutRun.layOutLookups design feesCursor).length = 32 ∧
      AllInRange (LayoutRun.layOutLookups design feesCursor) := by
  have checked : fees.checkNames feesCursor.set.columns = .ok [] := by decide +kernel
  have read : ResultSet.ofCsvText (some fees.dataTypes) feesCsv = .ok feesCursor.set := by
    decide +kernel
  have failed : (Report.new feesCursor (fees.design FixedPitch.standard.metrics)).layOut.1 =
      .error (.notNumeric "Fee" (.text "n/a")) := rfl
  obtain ⟨_, lookups, typed⟩ := layOut_of_checkNames checked FixedPitch.standard.metrics
  exact ⟨by decide +kernel, checked, read, failed, (typed _ read).1 _ _ failed, by rfl, lookups⟩

end PagedReport
