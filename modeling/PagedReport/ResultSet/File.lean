import PagedReport.Definition.Json
import PagedReport.ResultSet.Csv
import PagedReport.ResultSet.Json

/-! # Files

Reports are read from two files: a definition, which is JSON, and a result set, which is CSV if its
name ends in `.csv` and else JSON. What is known of a file is what came of opening and reading it.
-/

namespace PagedReport

/-- What came of opening a path. -/
inductive FileContent where
  /-- The path could not be opened. -/
  | unopened (error : FileError)
  /-- The path was opened but cannot be read, as with a directory. -/
  | unreadable (error : FileError)
  /-- The bytes of the file, as symbols. -/
  | content (input : List Text.Symbol)
deriving DecidableEq, Repr

/-- The last component of a path, if it has one: the name of a file or directory. -/
def fileName? (path : String) : Option String :=
  let components := (path.splitOn "/").filter fun part => part ≠ "" && part ≠ "."
  match components.getLast? with
  | some ".." => none
  | last => last

/-- The extension of a path: what follows the last dot of its file name, unless that dot is the
first character. -/
def extension? (path : String) : Option String := do
  let name ← fileName? path
  let reversed := name.toList.reverse
  let (extension, before) := reversed.span (· ≠ '.')
  match before with
  | [] => none
  | [_] => none
  | _ :: _ :: _ => some (String.ofList extension.reverse)

/-- Whether a path names a CSV file. -/
def isCsvPath (path : String) : Bool :=
  match extension? path with
  | some extension => Text.sameIgnoringCase extension "csv"
  | none => false

/-- The result set in the file at a path. Data types are of use for CSV only. -/
def ResultSet.ofFile (path : String) (content : FileContent) (types : Option (List DataType)) :
    Except ReportError ResultSet :=
  match content with
  | .unopened error => .error (.fileRead path error)
  | .unreadable _ =>
    if isCsvPath path then .error (.csv .unreadable) else .error (.json .unreadable)
  | .content input => if isCsvPath path then ofCsvInput types input else ofJsonInput input

/-- The definition in the file at a path, if it is of use. -/
def Definition.ofFile (path : String) (content : FileContent) : Except ReportError Definition :=
  match content with
  | .unopened error => .error (.fileRead path error)
  | .unreadable error => .error (.fileRead path error)
  | .content input =>
    match Text.Symbol.allChars? input with
    | some _ => ofInput input
    | none => .error (.fileRead path (.other "stream did not contain valid UTF-8"))

end PagedReport
