import PagedReport.Decimal.Arithmetic
import PagedReport.Text.Blank

/-! # Reading decimals

A numeral is an optional sign, digits with at most one decimal point, and underscores anywhere
after the first digit. Decimals that do not fit are rounded away from zero at a half, or dropped if
an underscore parts them from a short coefficient; a whole part that does not fit is refused. A
numeral may carry an exponent of ten.
-/

namespace PagedReport.Decimal

/-- The value of a decimal digit. -/
def digitValue (c : Char) : Nat := c.toNat - '0'.toNat

/-- What may stand after the decimal point. -/
inductive FractionMark where
  | digit (value : Nat)
  | underscore
deriving DecidableEq, Repr

/-- The digits before and the marks after the decimal point of an unsigned numeral. `digit` and
`point` tell whether a digit and the point have been met. -/
def splitPoint (digit point : Bool) : List Char → Option (List Nat × List FractionMark)
  | [] => if digit then some ([], []) else none
  | c :: rest =>
    if c.isDigit then
      (splitPoint true point rest).map fun (whole, fraction) =>
        if point then (whole, .digit (digitValue c) :: fraction)
        else (digitValue c :: whole, fraction)
    else if c = '.' && !point then splitPoint digit true rest
    else if c = '_' && digit then
      (splitPoint digit point rest).map fun (whole, fraction) =>
        if point then (whole, .underscore :: fraction) else (whole, fraction)
    else none

/-- The number that digits write. -/
def ofDigits (digits : List Nat) : Nat := digits.foldl (fun n d => n * 10 + d) 0

/-- One added to a coefficient by rounding. Past the limit the last decimal is given up as well, and
a coefficient without decimals is refused. -/
def roundUp (coefficient : Nat) : (places : Nat) → Option (Nat × Nat)
  | 0 => if coefficient + 1 ≤ limit then some (coefficient + 1, 0) else none
  | places + 1 =>
    if coefficient + 1 ≤ limit then some (coefficient + 1, places + 1)
    else some ((coefficient + 5) / 10, places)

/-- Coefficients below this bound are short: all their digits but the last stay 255 below a tenth of
`2 ^ 64`. -/
def shortLimit : Nat := 18446744073709549060

/-- Decimals taken up one by one until one does not fit; that one decides the rounding. Underscores
are passed over, but one that follows the last place of a short coefficient counts as a zero, so
that nothing is rounded. -/
def takeFraction (coefficient places : Nat) : List FractionMark → Option (Nat × Nat)
  | [] => some (coefficient, places)
  | .underscore :: rest =>
    if places = maxPlaces ∧ coefficient < shortLimit then some (coefficient, places)
    else takeFraction coefficient places rest
  | .digit d :: rest =>
    if places < maxPlaces ∧ coefficient * 10 + d ≤ limit then
      takeFraction (coefficient * 10 + d) (places + 1) rest
    else if 5 ≤ d then roundUp coefficient places
    else some (coefficient, places)

/-- The sign of a numeral and the characters after it. -/
def splitSign : List Char → Bool × List Char
  | '-' :: rest => (true, rest)
  | '+' :: rest => (false, rest)
  | cs => (false, cs)

/-- A numeral without exponent. -/
def ofPlainChars? (cs : List Char) : Option Decimal := do
  let (negative, body) := splitSign cs
  let (whole, fraction) ← splitPoint false false body
  let start := ofDigits whole
  if limit < start then none
  else
    let (coefficient, places) ← takeFraction start 0 fraction
    ofParts? (if negative then -(coefficient : Int) else coefficient) places

/-- The characters before and after the first `e` or `E`. -/
def splitExponent (cs : List Char) : Option (List Char × List Char) :=
  match cs.span fun c => c ≠ 'e' && c ≠ 'E' with
  | (_, []) => none
  | (base, _ :: exponent) => some (base, exponent)

/-- An unsigned exponent: digits after an optional plus sign. -/
def exponentOfChars? (cs : List Char) : Option Nat :=
  let digits := match cs with
    | '+' :: rest => rest
    | _ => cs
  if digits ≠ [] ∧ digits.all Char.isDigit then some (ofDigits (digits.map digitValue)) else none

/-- The number divided by `10 ^ k`. It keeps its digits while they fit the places, and is else
rounded half away from zero. -/
def shiftDown? (d : Decimal) (k : Nat) : Option Decimal :=
  if maxPlaces < k then none
  else if d.places + k ≤ maxPlaces then ofParts? d.coefficient (d.places + k)
  else ofParts? (d.fixedPlaces (maxPlaces - k)).coefficient maxPlaces

/-- The number multiplied by `10 ^ k`, by moving the point and then by adding zeros. -/
def shiftUp? (d : Decimal) (k : Nat) : Option Decimal :=
  if k ≤ d.places then ofParts? d.coefficient (d.places - k)
  else if maxPlaces < k then none
  else ofParts? (d.coefficient * tenPow (k - d.places)) 0

/-- A numeral with an exponent, negative after a minus sign. -/
def ofScientificChars? (cs : List Char) : Option Decimal := do
  let (base, exponent) ← splitExponent cs
  let d ← ofPlainChars? base
  match exponent with
  | '-' :: digits => shiftDown? d (← exponentOfChars? digits)
  | digits => shiftUp? d (← exponentOfChars? digits)

/-- The decimal that a text writes, with or without exponent, blanks around it aside. -/
def ofText? (s : String) : Option Decimal :=
  let cs := Text.strip s.toList
  (ofPlainChars? cs).orElse fun _ => ofScientificChars? cs

end PagedReport.Decimal
