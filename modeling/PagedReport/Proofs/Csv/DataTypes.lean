import PagedReport.Proofs.Faults
import PagedReport.ResultSet.Csv

/-! # CSV read with and without data types

Input that is read with data types is the input read as texts, whose cells in numeric columns are read
once more as numbers, row by row and from the left to the right. It is refused for the first of these
cells that is no number. What a row adds to the totals is the same in both forms.
-/

namespace PagedReport

open Text (Symbol)

/-- How a cell that was read as text is read in a column of a data type. -/
inductive DataType.Rereads : DataType → Value → Value → Prop where
  | null (dataType : DataType) : Rereads dataType .null .null
  | text (s : String) : Rereads .other (.text s) (.text s)
  | number {s : String} {n : Decimal} (written : (Value.text s).toDecimal? = some n) :
      Rereads .numeric (.text s) (.number n)

/-- How a row of texts is read in columns of data types, cell by cell. -/
inductive RereadsRow : List DataType → Row → Row → Prop where
  | nil : RereadsRow [] [] []
  | cons {dataType : DataType} {before after : Value} {types : List DataType} {row typed : Row}
      (first : dataType.Rereads before after) (others : RereadsRow types row typed) :
      RereadsRow (dataType :: types) (before :: row) (after :: typed)

namespace DataType.Rereads

variable {dataType : DataType} {before after : Value}

/-- A cell adds the same amount in both forms. -/
theorem amountOf_eq (same : dataType.Rereads before after) (column : Column) :
    TotalsTracker.amountOf column before = TotalsTracker.amountOf column after := by
  cases same with
  | null => rfl
  | text s => rfl
  | number written =>
    rw [TotalsTracker.amountOf, TotalsTracker.amountOf, written]
    rfl

end DataType.Rereads

namespace RereadsRow

variable {types : List DataType} {row typed : Row}

theorem length_eq (same : RereadsRow types row typed) : typed.length = row.length := by
  induction same with
  | nil => rfl
  | cons _ _ ih => rw [List.length_cons, List.length_cons, ih]

theorem rowAmounts_eq (same : RereadsRow types row typed) (policy : NullSubtotals) (number : Nat)
    (columns : List Column) (index : Nat) :
    TotalsTracker.rowAmounts policy number columns index row =
      TotalsTracker.rowAmounts policy number columns index typed := by
  induction same generalizing columns index with
  | nil => rfl
  | cons first _ ih =>
    cases columns with
    | nil => rfl
    | cons column columns =>
      rw [TotalsTracker.rowAmounts, TotalsTracker.rowAmounts, TotalsTracker.amountsOf,
        TotalsTracker.amountsOf, first.amountOf_eq, ih]

/-- Totals do not depend on the form in which a row was read. -/
theorem accumulate_eq (same : RereadsRow types row typed) (tracker : TotalsTracker) (number : Nat) :
    tracker.accumulate number row = tracker.accumulate number typed := by
  rw [TotalsTracker.accumulate, TotalsTracker.accumulate, same.rowAmounts_eq]

end RereadsRow

namespace Csv

variable {columns : Nat} {record : List RawField} {fields : List String}

/-- Symbols are joined to one text for each field. -/
private theorem length_of_mapM_text? {strings : List String}
    (joined : record.mapM Symbol.text? = some strings) : strings.length = record.length := by
  induction record generalizing strings with
  | nil =>
    cases joined
    rfl
  | cons first rest ih =>
    rw [List.mapM_cons] at joined
    obtain ⟨head, _, joined⟩ := Option.bind_eq_some_iff.mp joined
    obtain ⟨tail, others, same⟩ := Option.bind_eq_some_iff.mp joined
    cases same
    rw [List.length_cons, List.length_cons, ih others]

theorem length_of_texts (read : texts record = .ok fields) : fields.length = record.length := by
  unfold texts at read
  split at read
  · next strings joined =>
    cases read
    rw [List.length_map, length_of_mapM_text? joined]
  · cases read

/-- A record has a text for each column. -/
theorem length_of_recordTexts (read : recordTexts columns record = .ok fields) :
    fields.length = columns := by
  unfold recordTexts at read
  split at read
  · cases read
  · next same => rw [length_of_texts read, not_not.mp same]

end Csv

namespace ResultSet

/-- A cell with the name and the data type of its column. -/
abbrev Place := Value × String × DataType

/-- The cells of a result set, row by row and from the left to the right. -/
def places (set : ResultSet) (types : List DataType) : List Place :=
  set.rows.flatMap fun row => row.zip (set.columns.zip types)

/-- Whether a cell of a numeric column holds what is no number. -/
def isUnreadable (place : Place) : Bool := place.2.2 == .numeric && place.1.isForeign

/-- A cell that was read as text, read again in its column. -/
def reread (place : Place) : Except ReportError Value :=
  if isUnreadable place then .error (.notNumeric place.2.1 place.1)
  else match place.2.2, place.1.toDecimal? with
    | .numeric, some n => .ok (.number n)
    | _, _ => .ok place.1

/-- A field as a text, or as null if it is empty. -/
def textOrNull (field : String) : Value := if field.isEmpty then .null else .text field

theorem valueOfField_other (column field : String) :
    valueOfField .other column field = .ok (textOrNull field) := by
  unfold valueOfField textOrNull
  split <;> rfl

/-- A field is read in a column as its text is read again there. -/
theorem valueOfField_eq_reread (dataType : DataType) (column field : String) :
    valueOfField dataType column field = reread (textOrNull field, column, dataType) := by
  unfold valueOfField textOrNull
  split
  · cases dataType <;> rfl
  · cases dataType with
    | other => rfl
    | numeric =>
      cases written : Decimal.ofText? field with
      | none => simp [reread, isUnreadable, Value.isForeign, Value.isNull, Value.toDecimal?, written]
      | some n => simp [reread, isUnreadable, Value.isForeign, Value.toDecimal?, written]

theorem rereads_of_reread {field : String} {column : String} {dataType : DataType} {value : Value}
    (read : reread (textOrNull field, column, dataType) = .ok value) :
    dataType.Rereads (textOrNull field) value := by
  rw [← valueOfField_eq_reread] at read
  unfold valueOfField at read
  unfold textOrNull
  split
  · next empty =>
    rw [if_pos empty] at read
    cases read
    exact .null dataType
  · next filled =>
    rw [if_neg filled] at read
    cases dataType with
    | other =>
      cases read
      exact .text field
    | numeric =>
      dsimp only at read
      split at read
      · next n written =>
        cases read
        exact .number written
      · cases read

/-- Only a cell that is unreadable is refused. -/
theorem errorOf?_reread (place : Place) :
    errorOf? (reread place) =
      if isUnreadable place then some (.notNumeric place.2.1 place.1) else none := by
  unfold reread
  split
  · rfl
  · split <;> rfl

section Records

variable {columns : List String} {types : List DataType} {record : List Csv.RawField} {row : Row}

/-- Without data types every column holds texts. -/
def textTypes (columns : List String) : List DataType := columns.map fun _ => .other

theorem rowOfRecord_textTypes (columns : List String) (record : List Csv.RawField) :
    rowOfRecord columns (textTypes columns) record =
      ((Csv.recordTexts columns.length record).mapError .csv).map (List.map textOrNull) := by
  unfold rowOfRecord
  cases read : Csv.recordTexts columns.length record with
  | error fault => rfl
  | ok fields =>
    let cells := fields.zip (columns.zip (textTypes columns))
    have wide : fields.length ≤ (columns.zip (textTypes columns)).length := by
      simp [textTypes, Csv.length_of_recordTexts read]
    have shown : fields.map textOrNull = cells.map fun cell => textOrNull cell.1 := by
      rw [← List.map_fst_zip wide, List.map_map]
      rfl
    change cells.mapM (fun cell => valueOfField cell.2.2 cell.2.1 cell.1) = .ok (fields.map textOrNull)
    rw [mapM_eq_ok_iff, shown, List.forall₂_map_right_iff, List.forall₂_same]
    intro cell member
    have text : cell.2.2 = .other :=
      (List.mem_map.mp (List.of_mem_zip (List.of_mem_zip member).2).2).elim fun _ found => found.2.symm
    rw [text, valueOfField_other]

/-- A record is read with data types as its texts are read again. -/
theorem rowOfRecord_eq_bind (columns : List String) (types : List DataType)
    (record : List Csv.RawField) :
    rowOfRecord columns types record =
      rowOfRecord columns (textTypes columns) record >>= fun row =>
        (row.zip (columns.zip types)).mapM reread := by
  rw [rowOfRecord_textTypes, rowOfRecord]
  cases Csv.recordTexts columns.length record with
  | error fault => rfl
  | ok fields =>
    change _ = ((fields.map textOrNull).zip (columns.zip types)).mapM reread
    rw [List.zip_map_left, List.mapM_map]
    apply congrArg fun f => (fields.zip (columns.zip types)).mapM f
    funext place
    exact valueOfField_eq_reread place.2.2 place.2.1 place.1

/-- A row without data types has a text or a null for each column. -/
theorem textOrNull_of_rowOfRecord (read : rowOfRecord columns (textTypes columns) record = .ok row) :
    row.length = columns.length ∧ ∀ value ∈ row, ∃ field, textOrNull field = value := by
  rw [rowOfRecord_textTypes] at read
  cases fields : Csv.recordTexts columns.length record with
  | error fault =>
    rw [fields] at read
    cases read
  | ok texts =>
    rw [fields] at read
    cases read
    refine ⟨(List.length_map ..).trans (Csv.length_of_recordTexts fields), fun value member => ?_⟩
    obtain ⟨field, _, same⟩ := List.mem_map.mp member
    exact ⟨field, same⟩

/-- The cells of a row are read again one by one. -/
theorem rereadsRow_of_mapM (wide : row.length = columns.length) (typed : types.length = columns.length)
    (texts : ∀ value ∈ row, ∃ field, textOrNull field = value) {after : Row}
    (read : (row.zip (columns.zip types)).mapM reread = .ok after) : RereadsRow types row after := by
  induction row generalizing columns types after with
  | nil =>
    obtain rfl := List.eq_nil_of_length_eq_zero wide.symm
    obtain rfl := List.eq_nil_of_length_eq_zero typed
    cases read
    exact .nil
  | cons value row ih =>
    obtain ⟨column, columns, rfl⟩ := List.exists_cons_of_length_eq_add_one wide.symm
    obtain ⟨dataType, types, rfl⟩ := List.exists_cons_of_length_eq_add_one typed
    obtain ⟨⟨field, rfl⟩, others⟩ := List.forall_mem_cons.mp texts
    rw [List.zip_cons_cons, List.zip_cons_cons, List.mapM_cons] at read
    obtain ⟨first, here, read⟩ := bind_eq_ok_iff.mp read
    obtain ⟨rest, run, same⟩ := bind_eq_ok_iff.mp read
    cases same
    exact .cons (rereads_of_reread here)
      (ih (Nat.succ.inj wide) (Nat.succ.inj typed) others run)

/-- The row that is read again is refused for the first of its cells that is unreadable. -/
theorem errorOf?_mapM_reread (places : List Place) :
    errorOf? (places.mapM reread) =
      (places.find? isUnreadable).map fun place => .notNumeric place.2.1 place.1 := by
  rw [errorOf?_mapM]
  induction places with
  | nil => rfl
  | cons place rest ih =>
    rw [List.findSome?_cons, List.find?_cons, errorOf?_reread, ih]
    cases isUnreadable place <;> rfl

end Records

section Loading

variable {types : List DataType} {input : List Symbol} {plain typed : ResultSet}

/-- The rows of a result set read again with data types. -/
def rereadRows (plain : ResultSet) (types : List DataType) : Except ReportError (List Row) :=
  plain.rows.mapM fun row => (row.zip (plain.columns.zip types)).mapM reread

theorem ofCsvInput_eq (types : Option (List DataType)) (input : List Symbol) :
    ofCsvInput types input =
      (Csv.texts ((Csv.records input).headD [])).mapError .csv >>= fun columns =>
        let types := types.getD (textTypes columns)
        if types.length ≠ columns.length then .error (.columnCountMismatch types.length columns.length)
        else (Csv.records input).tail.mapM (rowOfRecord columns types) >>= ofRows columns := by
  unfold ofCsvInput
  cases Csv.records input <;> rfl

/-- Without data types there are as many as there are columns. -/
theorem ofCsvInput_none_eq (input : List Symbol) :
    ofCsvInput none input =
      (Csv.texts ((Csv.records input).headD [])).mapError .csv >>= fun columns =>
        (Csv.records input).tail.mapM (rowOfRecord columns (textTypes columns)) >>= ofRows columns := by
  rw [ofCsvInput_eq]
  apply congrArg (Except.bind _)
  funext columns
  exact if_neg (not_not.mpr (List.length_map _))

theorem ofRows_eq_ok {columns : List String} {rows : List Row} {set : ResultSet}
    (built : ofRows columns rows = .ok set) : set.columns = columns ∧ set.rows = rows := by
  unfold ofRows at built
  split at built
  · cases built
    exact ⟨rfl, rfl⟩
  · cases built

/-- A result set that was read as texts tells how its input is read with data types: its rows are read
again. -/
theorem ofCsvInput_some_of_ok (width : types.length = ((Csv.records input).headD []).length)
    (read : ofCsvInput none input = .ok plain) :
    ofCsvInput (some types) input = plain.rereadRows types >>= ofRows plain.columns ∧
      types.length = plain.columns.length ∧
      ∀ row ∈ plain.rows, ∀ value ∈ row, ∃ field, textOrNull field = value := by
  rw [ofCsvInput_none_eq] at read
  rw [ofCsvInput_eq]
  obtain ⟨columns, header, read⟩ := bind_eq_ok_iff.mp read
  have named : types.length = columns.length := by
    cases names : Csv.texts ((Csv.records input).headD []) with
    | error fault =>
      rw [names] at header
      cases header
    | ok texts =>
      rw [names] at header
      cases header
      rw [Csv.length_of_texts names, width]
  obtain ⟨rows, body, built⟩ := bind_eq_ok_iff.mp read
  obtain ⟨rfl, rfl⟩ := ofRows_eq_ok built
  refine ⟨?_, named, fun row member => ?_⟩
  · have rereads : (Csv.records input).tail.mapM (rowOfRecord plain.columns types) =
        plain.rereadRows types := by
      rw [rereadRows, ← mapM_bind_of_ok body]
      exact congrArg (List.mapM · _) (funext fun record => rowOfRecord_eq_bind _ types record)
    simp only [header, ok_bind, Option.getD_some, named, ne_eq, not_true_eq_false, ↓reduceIte, rereads]
  · obtain ⟨record, _, found⟩ := exists_of_mem_mapM body member
    exact (textOrNull_of_rowOfRecord found).2

/-- Input that can be read with data types can be read as texts. -/
theorem exists_ofCsvInput_none (read : ofCsvInput (some types) input = .ok typed) :
    ∃ plain, ofCsvInput none input = .ok plain := by
  rw [ofCsvInput_eq] at read
  obtain ⟨columns, header, read⟩ := bind_eq_ok_iff.mp read
  simp only [Option.getD_some] at read
  split at read
  · cases read
  · obtain ⟨rows, body, _⟩ := bind_eq_ok_iff.mp read
    have steps : (Csv.records input).tail.mapM (fun record =>
        rowOfRecord columns (textTypes columns) record >>= fun row =>
          (row.zip (columns.zip types)).mapM reread) = .ok rows := by
      rw [← body]
      exact congrArg (List.mapM · _) (funext fun record => (rowOfRecord_eq_bind columns types record).symm)
    obtain ⟨texts, plain⟩ := exists_ok_of_mapM_bind steps
    have even : ∀ row ∈ texts, row.length = columns.length := by
      intro row member
      obtain ⟨record, _, found⟩ := exists_of_mem_mapM plain member
      exact (textOrNull_of_rowOfRecord found).1
    refine ⟨⟨columns, texts, even⟩, ?_⟩
    rw [ofCsvInput_none_eq, header, ok_bind, plain, ok_bind, ofRows, dif_pos even]

/-- The rows are refused for the first cell, from the top and from the left, that is unreadable. -/
theorem errorOf?_rereadRows (plain : ResultSet) (types : List DataType) :
    errorOf? (plain.rereadRows types) =
      ((plain.places types).find? isUnreadable).map fun place => .notNumeric place.2.1 place.1 := by
  rw [rereadRows, errorOf?_mapM, places, List.find?_flatMap, List.map_findSome?]
  exact congrArg (List.findSome? · _) (funext fun row => errorOf?_mapM_reread _)

theorem rereadsRow_of_rereadRows (named : types.length = plain.columns.length)
    (texts : ∀ row ∈ plain.rows, ∀ value ∈ row, ∃ field, textOrNull field = value) {rows : List Row}
    (read : plain.rereadRows types = .ok rows) : List.Forall₂ (RereadsRow types) plain.rows rows := by
  have each := mapM_eq_ok_iff.mp read
  rw [List.forall₂_iff_zip] at each ⊢
  refine ⟨each.1, fun paired => ?_⟩
  have known := (List.of_mem_zip paired).1
  exact rereadsRow_of_mapM (plain.rectangular _ known) named (texts _ known) (each.2 paired)

/-- Rows that are read again still have a value for each column, so nothing but an unreadable cell is
refused. -/
theorem errorOf?_ofCsvInput_some (width : types.length = ((Csv.records input).headD []).length)
    (read : ofCsvInput none input = .ok plain) :
    errorOf? (ofCsvInput (some types) input) =
      ((plain.places types).find? isUnreadable).map fun place => .notNumeric place.2.1 place.1 := by
  obtain ⟨run, named, texts⟩ := ofCsvInput_some_of_ok width read
  have built : ∀ rows, plain.rereadRows types = .ok rows →
      errorOf? (ofRows plain.columns rows) = none := by
    intro rows reread
    have even : ∀ row ∈ rows, row.length = plain.columns.length := by
      intro row member
      obtain ⟨before, known, same⟩ :=
        exists_of_mem_right (rereadsRow_of_rereadRows named texts reread) member
      rw [same.length_eq, plain.rectangular before known]
    rw [ofRows, dif_pos even, errorOf?_ok]
  rw [run, errorOf?_bind built, errorOf?_rereadRows, Option.or_none]

/-- Input with a data type for each name of its header is read with these types exactly if it is read
as texts and all cells of numeric columns that are not null are numbers. Then every cell is the same in
both forms, but that a number stands for its text, and every row adds the same to any totals. Input
that is only read as texts is refused for the first cell, from the top and from the left, of a numeric
column that is no number. -/
theorem ofCsvInput_rereads (width : types.length = ((Csv.records input).headD []).length) :
    ((∃ typed, ofCsvInput (some types) input = .ok typed) ↔
      ∃ plain, ofCsvInput none input = .ok plain ∧
        ∀ place ∈ plain.places types, isUnreadable place = false) ∧
    ∀ plain, ofCsvInput none input = .ok plain →
      (∀ error, ofCsvInput (some types) input = .error error ↔
        ∃ place, (plain.places types).find? isUnreadable = some place ∧
          error = .notNumeric place.2.1 place.1) ∧
      ∀ typed, ofCsvInput (some types) input = .ok typed →
        typed.columns = plain.columns ∧
        List.Forall₂ (RereadsRow types) plain.rows typed.rows ∧
        ∀ (tracker : TotalsTracker) (number : Nat), List.Forall₂
          (fun before after => tracker.accumulate number before = tracker.accumulate number after)
          plain.rows typed.rows := by
  refine ⟨⟨?_, ?_⟩, fun plain read => ⟨?_, ?_⟩⟩
  · rintro ⟨typed, run⟩
    obtain ⟨plain, read⟩ := exists_ofCsvInput_none run
    have none := errorOf?_ofCsvInput_some width read
    rw [run, errorOf?_ok, eq_comm, Option.map_eq_none_iff, List.find?_eq_none] at none
    exact ⟨plain, read, fun place member => Bool.eq_false_of_not_eq_true (none place member)⟩
  · rintro ⟨plain, read, readable⟩
    rw [← errorOf?_eq_none_iff, errorOf?_ofCsvInput_some width read, Option.map_eq_none_iff,
      List.find?_eq_none]
    exact fun place member => Bool.not_eq_true _ ▸ readable place member
  · intro error
    rw [← errorOf?_eq_some_iff, errorOf?_ofCsvInput_some width read, Option.map_eq_some_iff]
    simp only [eq_comm]
  · intro typed run
    obtain ⟨same, named, texts⟩ := ofCsvInput_some_of_ok width read
    obtain ⟨rows, reread, built⟩ := bind_eq_ok_iff.mp (same.symm.trans run)
    obtain ⟨columns, rfl⟩ := ofRows_eq_ok built
    have rereads := rereadsRow_of_rereadRows named texts reread
    exact ⟨columns, rereads, fun tracker number => rereads.imp fun _ _ row =>
      row.accumulate_eq tracker number⟩

/-- Amounts with blanks around them, without a value and with an exponent. -/
theorem ofCsvInput_rereads_amounts :
    let types : List DataType := [.other, .numeric]
    let input := Symbol.ofString "city,amount\nReno, 10.50 \nElko,\n,1e3\n"
    types.length = ((Csv.records input).headD []).length ∧
      ∃ plain typed, ofCsvInput none input = .ok plain ∧ ofCsvInput (some types) input = .ok typed ∧
        plain.rows = [[.text "Reno", .text "10.50"], [.text "Elko", .null], [.null, .text "1e3"]] ∧
        List.Forall₂ (RereadsRow types) plain.rows typed.rows := by
  intro types input
  have width : types.length = ((Csv.records input).headD []).length := by decide +kernel
  obtain ⟨reads, forms⟩ := ofCsvInput_rereads width
  obtain ⟨plain, read, shown⟩ : ∃ plain, ofCsvInput none input = .ok plain ∧
      (decide (plain.rows = [[.text "Reno", .text "10.50"], [.text "Elko", .null],
        [.null, .text "1e3"]]) && !(plain.places types).any isUnreadable) = true :=
    exists_ok_of_any (by decide +kernel)
  rw [Bool.and_eq_true, decide_eq_true_eq, Bool.not_eq_true', List.any_eq_false] at shown
  obtain ⟨rows, readable⟩ := shown
  obtain ⟨typed, run⟩ := reads.mpr ⟨plain, read, fun place member =>
    Bool.eq_false_of_not_eq_true (readable place member)⟩
  exact ⟨width, plain, typed, read, run, rows, ((forms plain read).2 typed run).2.1⟩

end Loading

end ResultSet

end PagedReport
