import PagedReport.Column
import PagedReport.ResultSet.Basic
import PagedReport.Text.Blank
import PagedReport.Text.Symbol

/-! # Result sets in CSV

Records end at a line feed, a carriage return or both, and empty lines count for nothing. Fields are
divided by commas. A quote at the very start of a field opens a quoted part, in which commas and line
ends are text and a quote is written twice; what follows its closing quote is text again. Fields are
trimmed, and empty ones are null. The first record holds the names of the columns, and every other
one must have as many fields.
-/

namespace PagedReport

open Text (Symbol)

namespace Csv

/-- Where a reader stands. -/
inductive State where
  /-- At the start of a record, of which nothing has been seen. -/
  | recordStart
  /-- At the start of a field. -/
  | fieldStart
  /-- In a field, outside of quotes. -/
  | unquoted
  /-- In the quoted part of a field. -/
  | quoted
  /-- After a quote in the quoted part: its end, or the first half of a doubled quote. -/
  | afterQuote
deriving DecidableEq, Repr

/-- A field as it was gathered. -/
abbrev RawField := List Symbol

/-- What has been read so far. The last symbol, field and record come first. -/
structure Progress where
  state : State
  field : List Symbol
  record : List RawField
  records : List (List RawField)
deriving DecidableEq, Repr

namespace Progress

/-- Nothing has been read. -/
def start : Progress := ⟨.recordStart, [], [], []⟩

/-- A symbol taken into the field. -/
def take (progress : Progress) (state : State) (s : Symbol) : Progress :=
  { progress with state, field := s :: progress.field }

/-- The field closed. -/
def endField (progress : Progress) : Progress :=
  { progress with state := .fieldStart, field := [], record := progress.field.reverse :: progress.record }

/-- The field and the record closed. -/
def endRecord (progress : Progress) : Progress :=
  ⟨.recordStart, [], [], (progress.field.reverse :: progress.record).reverse :: progress.records⟩

/-- Whether a symbol ends a line. -/
def isLineEnd (s : Symbol) : Bool := s = .char '\n' || s = .char '\r'

/-- A symbol outside of quotes: it divides fields or records, or is text. -/
def outside (progress : Progress) (s : Symbol) : Progress :=
  if s = .char ',' then progress.endField
  else if isLineEnd s then progress.endRecord
  else progress.take .unquoted s

/-- The next symbol. -/
def step (progress : Progress) (s : Symbol) : Progress :=
  match progress.state with
  | .recordStart =>
    if isLineEnd s then progress
    else if s = .char '"' then { progress with state := .quoted }
    else progress.outside s
  | .fieldStart =>
    if s = .char '"' then { progress with state := .quoted } else progress.outside s
  | .unquoted => progress.outside s
  | .quoted =>
    if s = .char '"' then { progress with state := .afterQuote } else progress.take .quoted s
  | .afterQuote => if s = .char '"' then progress.take .quoted s else progress.outside s

/-- The records in order, once the input has ended. A record that has begun ends with the input. -/
def finish (progress : Progress) : List (List RawField) :=
  match progress.state with
  | .recordStart => progress.records.reverse
  | _ => progress.endRecord.records.reverse

end Progress

/-- The input without a byte order mark at its start. -/
def dropMark : List Symbol → List Symbol
  | .char '\uFEFF' :: rest => rest
  | input => input

/-- The records of the input. -/
def records (input : List Symbol) : List (List RawField) :=
  ((dropMark input).foldl Progress.step .start).finish

/-- The texts of the fields of a record, trimmed. -/
def texts (record : List RawField) : Except CsvFault (List String) :=
  match record.mapM Symbol.text? with
  | some fields => .ok (fields.map Text.trim)
  | none => .error .invalidText

/-- The texts of a record with as many fields as there are columns. -/
def recordTexts (columns : Nat) (record : List RawField) : Except CsvFault (List String) :=
  if record.length ≠ columns then .error (.unequalLengths columns record.length) else texts record

end Csv

namespace ResultSet

/-- The value of a field: null if it is empty, a number in a numeric column, else its text. -/
def valueOfField (dataType : DataType) (column field : String) : Except ReportError Value :=
  if field.isEmpty then .ok .null
  else match dataType with
    | .other => .ok (.text field)
    | .numeric =>
      match Decimal.ofText? field with
      | some n => .ok (.number n)
      | none => .error (.notNumeric column (.text field))

/-- The row of a record. -/
def rowOfRecord (columns : List String) (types : List DataType) (record : List Csv.RawField) :
    Except ReportError Row := do
  let fields ← (Csv.recordTexts columns.length record).mapError .csv
  (fields.zip (columns.zip types)).mapM fun (field, column, dataType) =>
    valueOfField dataType column field

/-- The result set of CSV input. Without data types every field that is not empty is text. -/
def ofCsvInput (types : Option (List DataType)) (input : List Symbol) :
    Except ReportError ResultSet := do
  let (header, body) := match Csv.records input with
    | [] => ([], [])
    | header :: body => (header, body)
  let columns ← (Csv.texts header).mapError .csv
  let types := types.getD (columns.map fun _ => .other)
  if types.length ≠ columns.length then
    throw (.columnCountMismatch types.length columns.length)
  let rows ← body.mapM (rowOfRecord columns types)
  ofRows columns rows

/-- The result set that a CSV text holds. -/
def ofCsvText (types : Option (List DataType)) (text : String) : Except ReportError ResultSet :=
  ofCsvInput types (Symbol.ofString text)

end ResultSet

end PagedReport
