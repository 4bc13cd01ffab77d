import PagedReport.Value

/-! # Number formats

A format turns a value that is or writes a number into text. Numbers with fixed places round half
away from zero; a currency amount takes its sign as parentheses around the symbol and the amount.
-/

namespace PagedReport

/-- How a column shows its numbers. -/
inductive NumberFormat where
  /-- All digits, without trailing zeros. -/
  | general
  /-- A fixed number of decimals, with or without commas between thousands. -/
  | number (places : Nat) (thousands : Bool)
  /-- A symbol and a fixed number of decimals, with commas; parentheses when negative. -/
  | currency (places : Nat) (symbol : String)
  /-- A hundred times the number, with a percent sign. -/
  | percentage (places : Nat)
deriving DecidableEq, Repr

/-- Why a value could not be formatted. -/
inductive FormatError where
  | notANumber (value : Value)
  | percentageTooLarge (value : Value)
deriving DecidableEq, Repr

namespace FormatError

/-- The wording of the error. -/
def message : FormatError → String
  | .notANumber value => s!"'{value.describe}' is not a number"
  | .percentageTooLarge value => s!"'{value.describe}' is too large to show as a percentage"

end FormatError

namespace NumberFormat

/-- Digits with a comma before every third one that is left, except at the start. -/
def groupThousands : List Char → List Char
  | [] => []
  | [d] => [d]
  | d :: rest =>
    if rest.length % 3 = 0 then d :: ',' :: groupThousands rest else d :: groupThousands rest

/-- A numeral with commas between the thousands of its whole part. -/
def separateThousands (numeral : List Char) : List Char :=
  let (whole, fraction) := numeral.span (· ≠ '.')
  (if whole.head? = some '-' then ['-'] else []) ++ groupThousands (whole.filter Char.isDigit) ++
    fraction

/-- The text of a number in a format. `value` is what an error names. -/
def formatNumber (format : NumberFormat) (value : Value) (n : Decimal) : Except FormatError String :=
  match format with
  | .general => .ok n.normalized.text
  | .number places thousands =>
    let fixed := (n.fixedPlaces places).chars
    .ok (String.ofList (if thousands then separateThousands fixed else fixed))
  | .currency places symbol =>
    let amount := symbol ++ String.ofList (separateThousands (n.abs.fixedPlaces places).chars)
    .ok (if n.isNegative then "(" ++ amount ++ ")" else amount)
  | .percentage places =>
    match n.timesHundred? with
    | some percent => .ok (String.ofList (percent.fixedPlaces places).chars ++ "%")
    | none => .error (.percentageTooLarge value)

/-- The text of a value in a format. -/
def format (format : NumberFormat) (value : Value) : Except FormatError String :=
  match value.toDecimal? with
  | some n => format.formatNumber value n
  | none => .error (.notANumber value)

end NumberFormat

end PagedReport
