import PagedReport.Command.Arguments
import PagedReport.Layout
import PagedReport.Paint.Json
import PagedReport.Paint.Text
import PagedReport.ResultSet.File

/-! # Running the command

The command as a function: from its arguments and what came of opening the files they name to what
it prints and its exit code.
-/

namespace PagedReport

/-- What the command leaves behind. -/
structure Outcome where
  code : Nat
  output : String
  complaint : String
deriving DecidableEq, Repr

/-- An error with what the command was doing. -/
structure Failure where
  activity : Option String
  error : ReportError
deriving DecidableEq, Repr

namespace Failure

/-- The failure as it is told: what was being done, the error, and the error behind it. -/
def message (failure : Failure) : String :=
  ": ".intercalate (failure.activity.toList ++ [failure.error.message] ++
    failure.error.sourceMessage?.toList)

end Failure

namespace Request

/-- The options of a definition with those of the request over them. -/
def override (request : Request) (options : LayoutOptions) : LayoutOptions :=
  { options with
    pageHeight := request.pageHeight.getD options.pageHeight
    availableWidth := request.pageWidth.getD options.availableWidth
    borderStyle := request.borderStyle.getD options.borderStyle
    nullText := request.nullText.getD options.nullText
    grandTotals := request.grandTotals || options.grandTotals
    repeatSectionHeader := options.repeatSectionHeader && !request.omitRepeatedSectionHeader
    repeatColumnHeader := options.repeatColumnHeader && !request.omitRepeatedColumnHeader
    showGroupsAsRepeat := request.showRepeats || options.showGroupsAsRepeat }

/-- The pages in the format of the request. -/
def paint (request : Request) (pages : List Page) : String :=
  match request.output with
  | .json => renderJson pages
  | .text => renderText .plain request.charWidth pages

/-- The report that the request asks for. -/
def produce (request : Request) (definitionFile rowsFile : FileContent) : Except Failure String := do
  let definition ← (Definition.ofFile request.definitionPath definitionFile).mapError (⟨none, ·⟩)
  let set ← (ResultSet.ofFile request.rowsPath rowsFile (some definition.dataTypes)).mapError
    (⟨some s!"loading result set '{request.rowsPath}'", ·⟩)
  let _ ← (definition.checkNames set.columns).mapError (⟨none, ·⟩)
  let design : Design :=
    { columns := definition.layoutColumns
      options := request.override definition.layout
      metrics := (FixedPitch.mk request.charWidth request.lineHeight).metrics }
  let pages ← (Report.new (Cursor.ofSet set) design).layOut.1.mapError (⟨none, ·⟩)
  return request.paint pages

/-- What comes of a request. -/
def outcome (request : Request) (definitionFile rowsFile : FileContent) : Outcome :=
  match request.produce definitionFile rowsFile with
  | .ok text => ⟨0, text, ""⟩
  | .error failure => ⟨1, "", "Error: " ++ failure.message⟩

end Request

namespace Refusal

/-- The version of the command. -/
def versionText : String := "wabit 0.1.0\n"

/-- How the command is used. -/
def usageText : String :=
  "Usage: wabit [OPTIONS] --definition <definition> <rows>\n"

/-- What comes of arguments that make no request. -/
def outcome : Refusal → Outcome
  | .usage => ⟨2, "", usageText⟩
  | .help => ⟨0, usageText, ""⟩
  | .version => ⟨0, versionText, ""⟩

end Refusal

/-- What the command does with arguments, given what comes of opening a path. -/
def runCommand (arguments : List String) (openPath : String → FileContent) : Outcome :=
  match Arguments.read arguments with
  | .error refusal => refusal.outcome
  | .ok request => request.outcome (openPath request.definitionPath) (openPath request.rowsPath)

end PagedReport
