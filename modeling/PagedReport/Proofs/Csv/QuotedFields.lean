import PagedReport.Proofs.Csv.DataTypes
import PagedReport.Proofs.Json.WrittenStrings

/-! # Quoted CSV

Every table of texts can be written as CSV: each field between quotes, in which its own quotes are
doubled, with commas between the fields and any line end behind each record. Between quotes nothing
divides fields or records, so the table is read back: a quoted field takes a reader from the start of a
field to the end of a quoted part, and a written record from the start of a record to that of the next.
-/

namespace PagedReport

open Text (Symbol)

namespace Text

/-- A text with no blank at either end. -/
structure IsTrimmed (s : String) : Prop where
  front : s.toList.head?.any isBlank = false
  back : s.toList.getLast?.any isBlank = false

instance (s : String) : Decidable (IsTrimmed s) :=
  decidable_of_iff (s.toList.head?.any isBlank = false ∧ s.toList.getLast?.any isBlank = false)
    ⟨fun ⟨front, back⟩ => ⟨front, back⟩, fun ⟨front, back⟩ => ⟨front, back⟩⟩

private theorem dropWhile_eq_self {cs : List Char} (solid : cs.head?.any isBlank = false) :
    cs.dropWhile isBlank = cs := by
  cases cs with
  | nil => rfl
  | cons c rest => exact List.dropWhile_cons_of_neg (Bool.not_eq_true _ ▸ solid)

theorem IsTrimmed.trim_eq {s : String} (trimmed : IsTrimmed s) : trim s = s := by
  have back : s.toList.reverse.head?.any isBlank = false := by
    rw [List.head?_reverse]
    exact trimmed.back
  rw [trim, strip, stripWhere, dropWhile_eq_self trimmed.front, dropWhile_eq_self back,
    List.reverse_reverse, String.ofList_toList]

end Text

namespace Csv

/-- The ways in which a line ends. -/
inductive LineEnd where
  | lineFeed
  | carriageReturn
  | both
deriving DecidableEq, Repr

/-- The characters of a line end. -/
def LineEnd.chars : LineEnd → List Char
  | .lineFeed => ['\n']
  | .carriageReturn => ['\r']
  | .both => ['\r', '\n']

/-- The fields of a record and the line end that is written behind them. -/
structure WrittenRecord where
  fields : List String
  lineEnd : LineEnd
deriving DecidableEq, Repr

/-- Characters with every quote written twice. -/
def doubled (cs : List Char) : List Char := cs.flatMap fun c => if c = '"' then ['"', '"'] else [c]

/-- A field between quotes. -/
def quoted (field : String) : List Char := '"' :: (doubled field.toList ++ ['"'])

namespace WrittenRecord

/-- The line of a record: its fields between quotes, divided by commas, and the line end. -/
def chars (record : WrittenRecord) : List Char :=
  [','].intercalate (record.fields.map quoted) ++ record.lineEnd.chars

/-- The fields as a reader gathers them. -/
def gathered (record : WrittenRecord) : List RawField :=
  record.fields.map fun field => Symbol.ofString field

end WrittenRecord

/-- The text of records, line by line. -/
def quotedText (lines : List WrittenRecord) : String :=
  String.ofList (lines.flatMap WrittenRecord.chars)

section Reading

variable (field : RawField) (record : List RawField) (records : List (List RawField))

/-- In a quoted part every character is taken into the field, two quotes as one. -/
theorem foldl_doubled (cs : List Char) :
    (Symbol.ofChars (doubled cs)).foldl Progress.step ⟨.quoted, field, record, records⟩ =
      ⟨.quoted, (Symbol.ofChars cs).reverse ++ field, record, records⟩ := by
  induction cs generalizing field with
  | nil => rfl
  | cons c cs ih =>
    rw [doubled, List.flatMap_cons, Symbol.ofChars_append, List.foldl_append, Symbol.ofChars_cons,
      List.reverse_cons, List.append_assoc]
    by_cases quote : c = '"'
    · subst quote
      exact ih _
    · have taken : Progress.step ⟨.quoted, field, record, records⟩ (.char c) =
          ⟨.quoted, .char c :: field, record, records⟩ := by
        simp [Progress.step, Progress.take, quote]
      rw [if_neg quote, Symbol.ofChars_cons, List.foldl_cons, taken]
      exact ih _

/-- A quoted field leads from the start of a field to the end of its quoted part. -/
theorem foldl_quoted {state : State} (opens : state = .recordStart ∨ state = .fieldStart)
    (s : String) :
    (Symbol.ofChars (quoted s)).foldl Progress.step ⟨state, [], record, records⟩ =
      ⟨.afterQuote, (Symbol.ofString s).reverse, record, records⟩ := by
  have opened : Progress.step ⟨state, [], record, records⟩ (.char '"') =
      ⟨.quoted, [], record, records⟩ := by
    rcases opens with rfl | rfl <;> rfl
  rw [quoted, Symbol.ofChars_cons, List.foldl_cons, opened, Symbol.ofChars_append, List.foldl_append,
    foldl_doubled, List.append_nil]
  rfl

/-- A comma behind a quoted part closes the field. -/
theorem step_comma : Progress.step ⟨.afterQuote, field, record, records⟩ (.char ',') =
    ⟨.fieldStart, [], field.reverse :: record, records⟩ := rfl

/-- Every line end closes the field and the record. -/
theorem foldl_lineEnd (lineEnd : LineEnd) :
    (Symbol.ofChars lineEnd.chars).foldl Progress.step ⟨.afterQuote, field, record, records⟩ =
      ⟨.recordStart, [], [], (field.reverse :: record).reverse :: records⟩ := by
  cases lineEnd <;> rfl

/-- The line of a record leads from the start of a field to the start of the next record. -/
theorem foldl_chars {written : WrittenRecord} (filled : written.fields ≠ []) {state : State}
    (opens : state = .recordStart ∨ state = .fieldStart) :
    (Symbol.ofChars written.chars).foldl Progress.step ⟨state, [], record, records⟩ =
      ⟨.recordStart, [], [], (record.reverse ++ written.gathered) :: records⟩ := by
  obtain ⟨fields, lineEnd⟩ := written
  induction fields generalizing record state with
  | nil => exact absurd rfl filled
  | cons first rest ih =>
    cases rest with
    | nil =>
      rw [WrittenRecord.chars, List.map_singleton, List.intercalate_singleton, Symbol.ofChars_append,
        List.foldl_append, foldl_quoted record records opens, foldl_lineEnd, List.reverse_reverse,
        List.reverse_cons]
      rfl
    | cons second others =>
      have parts : WrittenRecord.chars ⟨first :: second :: others, lineEnd⟩ =
          quoted first ++ ',' :: WrittenRecord.chars ⟨second :: others, lineEnd⟩ := by
        simp [WrittenRecord.chars, List.intercalate_cons_cons]
      rw [parts, Symbol.ofChars_append, List.foldl_append, foldl_quoted record records opens,
        Symbol.ofChars_cons, List.foldl_cons, step_comma, List.reverse_reverse,
        ih _ (.inr rfl) (List.cons_ne_nil _ _), List.reverse_cons, List.append_assoc]
      rfl

/-- All lines are read, one record each. -/
theorem foldl_flatMap_chars {lines : List WrittenRecord} (filled : ∀ line ∈ lines, line.fields ≠ []) :
    (Symbol.ofChars (lines.flatMap WrittenRecord.chars)).foldl Progress.step
        ⟨.recordStart, [], [], records⟩ =
      ⟨.recordStart, [], [], (lines.map WrittenRecord.gathered).reverse ++ records⟩ := by
  induction lines generalizing records with
  | nil => rfl
  | cons line lines ih =>
    obtain ⟨here, others⟩ := List.forall_mem_cons.mp filled
    rw [List.flatMap_cons, Symbol.ofChars_append, List.foldl_append, foldl_chars _ _ here (.inl rfl),
      ih _ others, List.map_cons, List.reverse_cons, List.append_assoc]
    rfl

end Reading

/-- A quoted text starts with a quote, and with no byte order mark. -/
private theorem dropMark_quotedText {lines : List WrittenRecord}
    (filled : ∀ line ∈ lines, line.fields ≠ []) :
    dropMark (Symbol.ofString (quotedText lines)) =
      Symbol.ofChars (lines.flatMap WrittenRecord.chars) := by
  rw [Symbol.ofString, quotedText, String.toList_ofList]
  cases lines with
  | nil => rfl
  | cons line lines =>
    obtain ⟨first, rest, fields⟩ := List.exists_cons_of_ne_nil (filled line List.mem_cons_self)
    cases rest <;> simp [WrittenRecord.chars, fields, quoted, dropMark]

/-- The records of a quoted text are those that were written. -/
theorem records_quotedText {lines : List WrittenRecord} (filled : ∀ line ∈ lines, line.fields ≠ []) :
    records (Symbol.ofString (quotedText lines)) = lines.map WrittenRecord.gathered := by
  rw [records, dropMark_quotedText filled, Progress.start, foldl_flatMap_chars [] filled,
    List.append_nil]
  exact List.reverse_reverse _

/-- Fields without blanks at their ends are the texts of a record. -/
theorem texts_gathered {line : WrittenRecord} (trimmed : ∀ field ∈ line.fields, Text.IsTrimmed field) :
    texts line.gathered = .ok line.fields := by
  have whole (field : String) : Symbol.text? (Symbol.ofString field) = some field := by
    rw [Symbol.ofString, Json.text?_ofChars, String.ofList_toList]
  have fields : line.gathered.mapM Symbol.text? = some line.fields := by
    rw [WrittenRecord.gathered, List.mapM_map]
    have kept := List.mapM_pure (m := Option) (f := id) (l := line.fields)
    rw [List.map_id] at kept
    exact (congrArg (List.mapM · line.fields) (funext whole)).trans kept
  have same : line.fields.map Text.trim = line.fields :=
    (List.map_congr_left fun field member => (trimmed field member).trim_eq).trans (List.map_id _)
  rw [texts, fields]
  dsimp only
  rw [same]

end Csv

namespace ResultSet

open Csv (WrittenRecord quotedText)

/-- A table whose fields have no blanks at their ends is read back from its quoted text, with whatever
commas, quotes and line ends there are in the fields, and whatever line ends there are between the
records. An empty field is read as null. -/
theorem ofCsvText_quotedText {header : WrittenRecord} {body : List WrittenRecord}
    (named : header.fields ≠ []) (even : ∀ line ∈ body, line.fields.length = header.fields.length)
    (trimmed : ∀ line ∈ header :: body, ∀ field ∈ line.fields, Text.IsTrimmed field) :
    ∃ set, ofCsvText none (quotedText (header :: body)) = .ok set ∧ set.columns = header.fields ∧
      set.rows = body.map fun line => line.fields.map textOrNull := by
  have filled : ∀ line ∈ header :: body, line.fields ≠ [] := by
    refine List.forall_mem_cons.mpr ⟨named, fun line member => ?_⟩
    apply List.ne_nil_of_length_pos
    rw [even line member]
    exact List.length_pos_of_ne_nil named
  obtain ⟨headerTrimmed, bodyTrimmed⟩ := List.forall_mem_cons.mp trimmed
  have rows : (body.map WrittenRecord.gathered).mapM
      (rowOfRecord header.fields (textTypes header.fields)) =
        .ok (body.map fun line => line.fields.map textOrNull) := by
    rw [mapM_eq_ok_iff, List.forall₂_map_left_iff, List.forall₂_map_right_iff, List.forall₂_same]
    intro line member
    have width : line.gathered.length = header.fields.length :=
      (List.length_map _).trans (even line member)
    rw [rowOfRecord_textTypes, Csv.recordTexts, if_neg (not_not.mpr width),
      Csv.texts_gathered (bodyTrimmed line member)]
    rfl
  have square : ∀ row ∈ body.map fun line => line.fields.map textOrNull,
      row.length = header.fields.length := by
    intro row member
    obtain ⟨line, known, rfl⟩ := List.mem_map.mp member
    rw [List.length_map, even line known]
  refine ⟨⟨header.fields, _, square⟩, ?_, rfl, rfl⟩
  rw [ofCsvText, ofCsvInput_none_eq, Csv.records_quotedText filled, List.map_cons, List.headD_cons,
    List.tail_cons, Csv.texts_gathered headerTrimmed, Except.mapError, ok_bind, rows, ok_bind, ofRows,
    dif_pos square]

/-- Fields with a comma, quotes, line ends and nothing in them, and records with three line ends. -/
theorem ofCsvText_quotedText_notes :
    let header : WrittenRecord := ⟨["city", "say \"note\""], .both⟩
    let body : List WrittenRecord := [⟨["Reno, NV", "a\r\nb"], .carriageReturn⟩, ⟨["", "\""], .lineFeed⟩]
    quotedText (header :: body) =
        "\"city\",\"say \"\"note\"\"\"\r\n\"Reno, NV\",\"a\r\nb\"\r\"\",\"\"\"\"\n" ∧
      ∃ set, ofCsvText none (quotedText (header :: body)) = .ok set ∧
        set.columns = ["city", "say \"note\""] ∧
        set.rows = [[.text "Reno, NV", .text "a\r\nb"], [.null, .text "\""]] := by
  intro header body
  have trimmed : ∀ line ∈ header :: body, ∀ field ∈ line.fields, Text.IsTrimmed field := by
    decide +kernel
  exact ⟨by decide +kernel, ofCsvText_quotedText (by decide) (by decide) trimmed⟩

end ResultSet

end PagedReport
