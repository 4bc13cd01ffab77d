import PagedReport.Json.Printer
import PagedReport.Json.Record
import PagedReport.ResultSet.Basic

/-! # Result sets in JSON

A result set is an object with the names of its columns and its rows. Cells are first passed over
and kept as they are written, so a number never loses a digit to floating point: it becomes an exact
decimal, or the text of its digits if it is out of range. A cell that is an array or object becomes
the text of its value with sorted keys.
-/

namespace PagedReport

open Json (Reader RecordField Fault Input)
open Text (Symbol)

namespace ResultSet

/-- A document whose cells are still as they are written. -/
structure RawDocument where
  columns : List String
  rows : List (List (List Char))

/-- A cell as it is written. -/
def readRawCell : Reader (List Char) := fun input => do
  let cell := Json.skipBlanks input
  let rest ← Json.skipValue cell
  match Symbol.allChars? (cell.take (cell.length - rest.length)) with
  | some written => .ok (written, rest)
  | none => .error .malformed

/-- The fields of a document. -/
def rawFields : List (RecordField RawDocument) :=
  [.mandatory "columns" (Json.readArray Json.readString)
      fun document columns => { document with columns },
    .optional "rows" (Json.readArray (Json.readArray readRawCell))
      fun document rows => { document with rows }]

/-- The value that a JSON value stands for in a cell. -/
def valueOfJson : Json → Value
  | .null => .null
  | .bool b => .boolean b
  | .string s => .text s
  | value => .text value.sorted.compact

/-- Whether a written cell is a number. -/
def startsNumber (written : List Char) : Bool :=
  match written with
  | c :: _ => c == '-' || c.isDigit
  | [] => false

/-- The value of a written cell. -/
def valueOfRaw (written : List Char) : Except Fault Value :=
  if startsNumber written then
    let text := String.ofList written
    .ok (match Decimal.ofText? text with
      | some n => .number n
      | none => .text text)
  else (Json.parse (Symbol.ofChars written)).map valueOfJson

/-- The result set of a document. -/
def ofJsonInput (input : Input) : Except ReportError ResultSet := do
  let document ← (Json.readDocument (Json.readRecord rawFields false ⟨[], []⟩) input).mapError .json
  let rows ← (document.rows.mapM (List.mapM valueOfRaw)).mapError .json
  ofRows document.columns rows

/-- The result set that a text holds. -/
def ofJsonText (text : String) : Except ReportError ResultSet := ofJsonInput (Symbol.ofString text)

end ResultSet

end PagedReport
