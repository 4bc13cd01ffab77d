import PagedReport.Command.Run

/-! # The command

Reads the files that the arguments name, runs the command and prints what comes of it.
-/

namespace PagedReport

/-- The cause that the number of a system error names. A number above the signed range stands for its
negation, which some calls report in its place. -/
def fileErrorOfCode (code : UInt32) (message : String) : FileError :=
  let number := if code.toNat < 2147483648 then code.toNat else 4294967296 - code.toNat
  match number with
  | 2 => .notFound
  | 13 => .permissionDenied
  | 20 => .notADirectory
  | 21 => .isADirectory
  | 36 => .nameTooLong
  | _ => .other s!"{message} (os error {number})"

/-- The cause of a failure to read a file. -/
def fileErrorOf : IO.Error → FileError
  | .noFileOrDirectory _ code message => fileErrorOfCode code message
  | .inappropriateType _ code message => fileErrorOfCode code message
  | .invalidArgument _ code message => fileErrorOfCode code message
  | .permissionDenied _ code message => fileErrorOfCode code message
  | .resourceExhausted _ code message => fileErrorOfCode code message
  | .noSuchThing _ code message => fileErrorOfCode code message
  | .otherError code message => fileErrorOfCode code message
  | error => .other error.toString

/-- What comes of opening a path. -/
def openFile (path : String) : IO FileContent := do
  try
    let bytes ← IO.FS.readBinFile path
    return .content (Text.Symbol.ofBytes bytes.toList)
  catch error =>
    match fileErrorOf error with
    | .isADirectory => return .unreadable .isADirectory
    | cause => return .unopened cause

/-- Runs the command with its arguments. -/
def runProgram (arguments : List String) : IO Outcome :=
  match Arguments.read arguments with
  | .error refusal => return refusal.outcome
  | .ok request =>
    return request.outcome (← openFile request.definitionPath) (← openFile request.rowsPath)

end PagedReport

/-- The entry point of the command. -/
def main (arguments : List String) : IO UInt32 := do
  let outcome ← PagedReport.runProgram arguments
  IO.print outcome.output
  if !outcome.complaint.isEmpty then IO.eprintln outcome.complaint
  return outcome.code.toUInt32
