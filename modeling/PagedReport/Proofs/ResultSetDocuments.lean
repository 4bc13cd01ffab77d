import PagedReport.Proofs.Json.Documents
import PagedReport.ResultSet.Json

/-! # Result sets read back

A result set can be written as a document with the names of its columns and its rows, a number by its
digits, a text as a string, and truth values and nulls as such. It is read back as it was. A cell is
first kept as it is written, and its first character tells a number from a text: a text that looks like a
number still begins with a quote.
-/

namespace PagedReport

open Json (Draft EndsNumber Fills Input Readable Reads Style quotedChars reads_array reads_record
  reads_string)
open Text (Symbol)

namespace Value

/-- A value as a cell of a document. -/
def written : Value → List Char
  | .null => ['n', 'u', 'l', 'l']
  | .boolean true => ['t', 'r', 'u', 'e']
  | .boolean false => ['f', 'a', 'l', 's', 'e']
  | .number n => n.text.toList
  | .text s => quotedChars s

theorem written_number (n : Decimal) : written (.number n) = n.chars := by
  rw [written, Decimal.text, Numeral.text, String.toList_ofList]

end Value

namespace ResultSet

/-- The document of a result set. -/
def document (set : ResultSet) : Draft :=
  .object [("columns", .array (set.columns.map fun name => .token (quotedChars name))),
    ("rows", .array (set.rows.map fun row => .array (row.map fun value => .token value.written)))]

/-- A value is passed over to its end. -/
theorem skipValue_written (value : Value) {rest : Input} (ends : EndsNumber rest) :
    Json.skipValue (Symbol.ofChars value.written ++ rest) = .ok rest := by
  cases value with
  | null => rfl
  | boolean b => cases b <;> rfl
  | number n =>
    rw [Value.written_number]
    exact Json.skipValue_of_literal (n.literal_chars ends)
  | text s => exact Json.skipValue_quotedChars s rest

/-- A cell is kept as it is written. -/
theorem reads_written (value : Value) : Reads readRawCell (.token value.written) value.written where
  opens := by
    cases value with
    | null => exact ⟨'n', fun _ _ => ⟨_, rfl⟩, rfl, by decide⟩
    | boolean b => cases b <;> exact ⟨_, fun _ _ => ⟨_, rfl⟩, rfl, by decide⟩
    | number n =>
      rw [Value.written_number]
      exact Json.opens_numeral n.toNumeral
    | text s => exact ⟨'"', fun _ _ => ⟨_, rfl⟩, rfl, by decide⟩
  reads style level input rest here ends := by
    -- A cell keeps what it was written with: the input as far as skipping the value went.
    have taken : (Symbol.ofChars value.written ++ rest).take
        ((Symbol.ofChars value.written ++ rest).length - rest.length) = Symbol.ofChars value.written := by
      rw [List.length_append, Nat.add_sub_cancel, List.take_left]
    rw [readRawCell, here, Draft.token]
    simp only [skipValue_written value ends, ok_bind, taken, Symbol.allChars?_ofChars]

/-- A cell that is no number is parsed by itself. -/
private theorem valueOfRaw_of_readable {value : Json} (readable : Readable Json.depthLimit value)
    (style : Style) (other : startsNumber (value.draft style 0) = false) :
    valueOfRaw (value.draft style 0) = .ok (valueOfJson value) := by
  rw [valueOfRaw, other, if_neg Bool.false_ne_true, readable.parse style]
  rfl

/-- A cell that is kept as it is written has the value that was written. -/
theorem valueOfRaw_written (value : Value) : valueOfRaw value.written = .ok value := by
  cases value with
  | null => exact valueOfRaw_of_readable .null .compact rfl
  | boolean b =>
    cases b with
    | true => exact valueOfRaw_of_readable (.bool true) .compact rfl
    | false => exact valueOfRaw_of_readable (.bool false) .compact rfl
  | number n =>
    rw [Value.written_number, valueOfRaw, if_pos n.spells_literal.startsNumber]
    dsimp only
    rw [n.ofText?_chars]
  | text s => exact valueOfRaw_of_readable (.string s) .compact rfl

/-- The document is read with every cell as it is written. -/
theorem reads_document (set : ResultSet) :
    Reads (Json.readRecord rawFields false ⟨[], []⟩) set.document
      ⟨set.columns, set.rows.map (List.map Value.written)⟩ := by
  have columns : Reads (Json.readArray Json.readString)
      (.array (set.columns.map fun name => .token (quotedChars name))) set.columns := by
    apply reads_array
    rw [List.forall₂_map_left_iff, List.forall₂_same]
    exact fun name _ => reads_string name
  have rows : Reads (Json.readArray (Json.readArray readRawCell))
      (.array (set.rows.map fun row => .array (row.map fun value => .token value.written)))
      (set.rows.map (List.map Value.written)) := by
    apply reads_array
    rw [List.forall₂_map_left_iff, List.forall₂_map_right_iff, List.forall₂_same]
    intro row _
    apply reads_array
    rw [List.forall₂_map_left_iff, List.forall₂_map_right_iff, List.forall₂_same]
    exact fun value _ => reads_written value
  apply reads_record (by decide)
  apply Fills.given columns.storing
  apply Fills.given rows.storing
  exact .nil _

/-- A result set is read back from its document, in every style: with the same names, and with the same
rows, each number with its coefficient and its decimals and each text as a text. -/
theorem ofJsonText_document (set : ResultSet) (style : Style) :
    ofJsonText (String.ofList (set.document style 0)) = .ok set := by
  have rows : (set.rows.map (List.map Value.written)).mapM (List.mapM valueOfRaw) = .ok set.rows := by
    rw [mapM_eq_ok_iff, List.forall₂_map_left_iff, List.forall₂_same]
    intro row _
    rw [mapM_eq_ok_iff, List.forall₂_map_left_iff, List.forall₂_same]
    exact fun value _ => valueOfRaw_written value
  rw [ofJsonText, ofJsonInput, Symbol.ofString, String.toList_ofList,
    (reads_document set).readDocument style 0]
  simp only [Except.mapError, ok_bind, rows]
  rw [ofRows, dif_pos set.rectangular]

end ResultSet

end PagedReport
