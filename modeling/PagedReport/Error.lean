import PagedReport.Json.Scanner
import PagedReport.NumberFormat

/-! # Errors

The ways in which reading a report and laying it out can fail, each with the facts that its message
names.
-/

namespace PagedReport

/-- Why a file could not be opened or read. -/
inductive FileError where
  | notFound
  | permissionDenied
  | notADirectory
  | isADirectory
  | nameTooLong
  | containsNul
  | other (message : String)
deriving DecidableEq, Repr

namespace FileError

/-- The wording of the error. -/
def message : FileError → String
  | .notFound => "No such file or directory (os error 2)"
  | .permissionDenied => "Permission denied (os error 13)"
  | .notADirectory => "Not a directory (os error 20)"
  | .isADirectory => "Is a directory (os error 21)"
  | .nameTooLong => "File name too long (os error 36)"
  | .containsNul => "file name contained an unexpected NUL byte"
  | .other message => message

end FileError

/-- Why CSV text was refused. -/
inductive CsvFault where
  /-- A record has another number of fields than the header. -/
  | unequalLengths (expected actual : Nat)
  /-- A field is not UTF-8. -/
  | invalidText
  /-- The text could not be read at all. -/
  | unreadable
deriving DecidableEq, Repr

/-- Why a definition or a result set was refused although it could be read. -/
inductive Inconsistency where
  | noColumns
  | negativeWidth (column : String) (width : Int)
  | pageHeightNotPositive (height : Int)
  | rowLength (row values columns : Nat)
deriving DecidableEq, Repr

namespace Inconsistency

/-- The wording of the reason. -/
def message : Inconsistency → String
  | .noColumns => "a report needs at least one column"
  | .negativeWidth column width => s!"column '{column}' has negative width {width}"
  | .pageHeightNotPositive height => s!"page height must be positive, got {height}"
  | .rowLength row values columns =>
    s!"row {row} has {values} values but the result set has {columns} columns"

end Inconsistency

/-- Why a report could not be read or laid out. -/
inductive ReportError where
  /-- A layout was run a second time. -/
  | alreadyLaidOut
  | columnCountMismatch (expected actual : Nat)
  /-- A row after the first one came while no section was open. -/
  | undefinedSectionKey (row : Nat)
  | noCurrentRow
  | columnOutOfRange (column count : Nat)
  /-- A value that has to be totalled is no number. -/
  | notNumeric (column : String) (value : Value)
  | nullSubtotal (column : String) (row : Nat)
  | totalOverflow (column : String) (row : Nat)
  | format (column : String) (source : FormatError)
  | fileRead (path : String) (source : FileError)
  | json (fault : Json.Fault)
  | csv (fault : CsvFault)
  | inconsistent (reason : Inconsistency)
deriving DecidableEq, Repr

namespace ReportError

/-- The wording of the error. Faults of JSON and CSV texts are only introduced. -/
def message : ReportError → String
  | .alreadyLaidOut =>
    "the layout of a report can only be done once; create a new layout if a new one is needed"
  | .columnCountMismatch expected actual =>
    s!"column specs describe {expected} columns but the result set has {actual}"
  | .undefinedSectionKey row =>
    s!"the section key was undefined at row {row}; rows were visited out of order"
  | .noCurrentRow => "the cursor is not positioned on a row"
  | .columnOutOfRange column count =>
    s!"column {column} is out of range for a result set with {count} columns"
  | .notNumeric column value =>
    s!"column '{column}' holds non-numeric value '{value.describe}' and cannot be totalled"
  | .nullSubtotal column row => s!"null value in subtotal column '{column}' at row {row}"
  | .totalOverflow column row => s!"total of column '{column}' overflowed at row {row}"
  | .format column source =>
    s!"failed to format a value of column '{column}': {source.message}"
  | .fileRead path source => s!"failed to read file '{path}': {source.message}"
  | .json _ => "invalid JSON:"
  | .csv _ => "invalid CSV:"
  | .inconsistent reason => s!"invalid report definition: {reason.message}"

/-- The message of the error that caused this one, if another one did. -/
def sourceMessage? : ReportError → Option String
  | .format _ source => some source.message
  | .fileRead _ source => some source.message
  | _ => none

end ReportError

end PagedReport
