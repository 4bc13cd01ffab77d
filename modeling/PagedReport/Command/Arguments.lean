import PagedReport.Options

/-! # Command-line arguments

The command takes the path of a result set, the path of a definition, and settings that override the
definition. A setting is written `--name value` or `--name=value`, some of them also as a letter with
the value behind it; letters of switches can be written together. Everything after `--` is a path.
Nothing may be given twice.
-/

namespace PagedReport

/-- How the pages are written. -/
inductive OutputFormat where
  | text
  | json
deriving DecidableEq, Repr

/-- What the command is asked to do. -/
structure Request where
  rowsPath : String
  definitionPath : String
  pageHeight : Option Int := none
  pageWidth : Option Int := none
  borderStyle : Option BorderStyle := none
  nullText : Option String := none
  grandTotals : Bool := false
  omitRepeatedSectionHeader : Bool := false
  omitRepeatedColumnHeader : Bool := false
  showRepeats : Bool := false
  charWidth : Int := 7
  lineHeight : Int := 12
  output : OutputFormat := .text
  verbose : Bool := false
deriving DecidableEq, Repr

/-- Why arguments lead to no request. -/
inductive Refusal where
  /-- They cannot be understood. -/
  | usage
  /-- They ask for help. -/
  | help
  /-- They ask for the version. -/
  | version
deriving DecidableEq, Repr

namespace Arguments

/-- A setting that is on or off. -/
inductive Switch where
  | grandTotals
  | omitRepeatedSectionHeader
  | omitRepeatedColumnHeader
  | showRepeats
  | verbose
deriving DecidableEq, Repr

/-- A setting with a value. -/
inductive Setting where
  | definition
  | pageHeight
  | pageWidth
  | border
  | nullText
  | charWidth
  | lineHeight
  | output
deriving DecidableEq, Repr

/-- What a name or letter stands for. -/
inductive Meaning where
  | switch (s : Switch)
  | setting (s : Setting)
  | stop (r : Refusal)
deriving DecidableEq, Repr

/-- The names that follow two hyphens. -/
def longNames : List (String × Meaning) :=
  [("definition", .setting .definition), ("page-height", .setting .pageHeight),
    ("page-width", .setting .pageWidth), ("border", .setting .border),
    ("null-string", .setting .nullText), ("grand-totals", .switch .grandTotals),
    ("no-repeat-section-header", .switch .omitRepeatedSectionHeader),
    ("no-repeat-column-header", .switch .omitRepeatedColumnHeader),
    ("show-repeats", .switch .showRepeats), ("char-width", .setting .charWidth),
    ("line-height", .setting .lineHeight), ("output", .setting .output),
    ("verbose", .switch .verbose), ("help", .stop .help), ("version", .stop .version)]

/-- The letters that follow one hyphen. -/
def letters : List (Char × Meaning) :=
  [('d', .setting .definition), ('b', .setting .border), ('g', .switch .grandTotals),
    ('o', .setting .output), ('v', .switch .verbose), ('h', .stop .help), ('V', .stop .version)]

/-- What has been understood so far. -/
structure Given where
  rowsPath : Option String := none
  switches : List Switch := []
  settings : List (Setting × String) := []
deriving DecidableEq, Repr

/-- A positive whole number of thirty-two bits, with or without a plus sign. -/
def positive? (text : String) : Option Int :=
  let digits := match text.toList with
    | '+' :: rest => rest
    | cs => cs
  if digits ≠ [] ∧ digits.all Char.isDigit then
    let n := digits.foldl (fun n c => n * 10 + (c.toNat - '0'.toNat)) 0
    if 1 ≤ n ∧ n ≤ 2147483647 then some n else none
  else none

/-- The names of output formats. -/
def outputNames : List (String × OutputFormat) := [("text", .text), ("json", .json)]

/-- Whether a setting can have this value. -/
def accepts (setting : Setting) (value : String) : Bool :=
  match setting with
  | .definition | .nullText => true
  | .pageHeight | .pageWidth | .charWidth | .lineHeight => (positive? value).isSome
  | .border => (BorderStyle.names.lookup value).isSome
  | .output => (outputNames.lookup value).isSome

namespace Given

/-- A switch turned on, for the first time. -/
def turnOn (given : Given) (switch : Switch) : Except Refusal Given :=
  if given.switches.contains switch then .error .usage
  else .ok { given with switches := switch :: given.switches }

/-- A setting given an acceptable value, for the first time. -/
def set (given : Given) (setting : Setting) (value : String) : Except Refusal Given :=
  if (given.settings.lookup setting).isSome || !accepts setting value then .error .usage
  else .ok { given with settings := (setting, value) :: given.settings }

/-- The one path that stands by itself. -/
def addPath (given : Given) (path : String) : Except Refusal Given :=
  match given.rowsPath with
  | none => .ok { given with rowsPath := some path }
  | some _ => .error .usage

/-- A setting given the next argument as its value, which must not look like a setting itself. -/
def setNext (given : Given) (setting : Setting) :
    List String → Except Refusal (Given × List String)
  | [] => .error .usage
  | value :: rest =>
    match value.toList with
    | '-' :: _ :: _ => .error .usage
    | _ => return (← given.set setting value, rest)

/-- The name and, after an equals sign, the value of an argument that begins with two hyphens. -/
def splitLong (cs : List Char) : String × Option String :=
  match cs.span (· ≠ '=') with
  | (name, []) => (String.ofList name, none)
  | (name, _ :: value) => (String.ofList name, some (String.ofList value))

/-- An argument that begins with two hyphens, and the arguments after it that are left. -/
def takeLong (given : Given) (cs : List Char) (rest : List String) :
    Except Refusal (Given × List String) :=
  let (name, value) := splitLong cs
  match longNames.lookup name, value with
  | some (.setting setting), some value => return (← given.set setting value, rest)
  | some (.setting setting), none => given.setNext setting rest
  | some (.switch switch), none => return (← given.turnOn switch, rest)
  | some (.stop refusal), none => .error refusal
  | _, _ => .error .usage

/-- The letters of an argument that begins with one hyphen, and the arguments after it that are
left. A letter with a value takes the other letters as its value, without an equals sign before
them, or else the next argument. -/
def takeLetters (given : Given) (rest : List String) :
    List Char → Except Refusal (Given × List String)
  | [] => .ok (given, rest)
  | letter :: more =>
    match letters.lookup letter with
    | none => .error .usage
    | some (.stop refusal) => .error refusal
    | some (.switch switch) => do
      let given ← given.turnOn switch
      takeLetters given rest more
    | some (.setting setting) =>
      match more with
      | [] => given.setNext setting rest
      | '=' :: value => return (← given.set setting (String.ofList value), rest)
      | value => return (← given.set setting (String.ofList value), rest)

/-- The first argument, and the arguments after it that are left. -/
def takeArgument (given : Given) (argument : String) (rest : List String) :
    Except Refusal (Given × List String) :=
  match argument.toList with
  | '-' :: '-' :: cs => given.takeLong cs rest
  | '-' :: c :: cs => given.takeLetters rest (c :: cs)
  | _ => return (← given.addPath argument, rest)

/-- All arguments. Each step takes at least one of them. -/
def takeAll : (fuel : Nat) → Given → List String → Except Refusal Given
  | 0, given, _ => .ok given
  | _, given, [] => .ok given
  | _ + 1, given, "--" :: paths => paths.foldlM addPath given
  | fuel + 1, given, argument :: rest => do
    let (given, rest) ← given.takeArgument argument rest
    takeAll fuel given rest

/-- The request, once the two paths that it needs are there. -/
def request (given : Given) : Except Refusal Request :=
  let value (setting : Setting) := given.settings.lookup setting
  let length (setting : Setting) := (value setting).bind positive?
  match given.rowsPath, value .definition with
  | some rowsPath, some definitionPath => .ok
    { rowsPath, definitionPath
      pageHeight := length .pageHeight
      pageWidth := length .pageWidth
      borderStyle := (value .border).bind fun name => BorderStyle.names.lookup name
      nullText := value .nullText
      grandTotals := given.switches.contains .grandTotals
      omitRepeatedSectionHeader := given.switches.contains .omitRepeatedSectionHeader
      omitRepeatedColumnHeader := given.switches.contains .omitRepeatedColumnHeader
      showRepeats := given.switches.contains .showRepeats
      charWidth := (length .charWidth).getD 7
      lineHeight := (length .lineHeight).getD 12
      output := ((value .output).bind fun name => outputNames.lookup name).getD .text
      verbose := given.switches.contains .verbose }
  | _, _ => .error .usage

end Given

/-- The request that arguments make. -/
def read (arguments : List String) : Except Refusal Request := do
  let given ← Given.takeAll arguments.length {} arguments
  given.request

end Arguments

end PagedReport
