import PagedReport.Decimal.Reader
import PagedReport.Json.Scanner

/-! # Numbers of JSON texts

A number without point and exponent is whole if sixty-four bits hold it, signed or unsigned. Every
other number becomes a floating-point number: its digits make up a significand of sixty-four bits as
far as they fit, and the significand is scaled by the power of ten that is left.
-/

namespace PagedReport.Json

namespace Literal

/-- The greatest significand, sixty-four binary ones. -/
def significandLimit : Nat := 18446744073709551615

/-- The greatest magnitude of a negative whole number, a binary one and sixty-three zeros. -/
def negativeLimit : Nat := 9223372036854775808

/-- Digits appended to a significand up to the first one that does not fit, and the digits from that
one on. -/
def appendDigits (significand : Nat) : List Nat → Nat × List Nat
  | [] => (significand, [])
  | d :: rest =>
    if significand * 10 + d ≤ significandLimit then appendDigits (significand * 10 + d) rest
    else (significand, d :: rest)

/-- The significand of a number and the power of ten to scale it by. Whole digits that do not fit
count as zeros, decimals that do not fit are dropped. -/
def scientific (l : Literal) : Nat × Int :=
  let whole := l.whole.map Decimal.digitValue
  let fraction := (l.fraction.getD []).map Decimal.digitValue
  let (significand, lost) := appendDigits 0 whole
  let (significand, dropped) := appendDigits significand fraction
  let point : Int := lost.length - (fraction.length - dropped.length : Nat)
  let written : Int := match l.exponent with
    | none => 0
    | some (negative, digits) =>
      let n : Int := Decimal.ofDigits (digits.map Decimal.digitValue)
      if negative then -n else n
  (significand, point + written)

/-- The number as a floating-point number, unless it is out of range. -/
def float? (l : Literal) : Option Number :=
  let (significand, exponent) := l.scientific
  (Binary64.ofScientific? significand exponent).map fun x => .float { x with negative := l.negative }

/-- The number that a literal writes, unless it is out of range. Minus zero is not whole. -/
def number? (l : Literal) : Option Number :=
  if l.fraction.isNone ∧ l.exponent.isNone then
    let n := Decimal.ofDigits (l.whole.map Decimal.digitValue)
    if l.negative then
      if n ≠ 0 ∧ n ≤ negativeLimit then some (.integer (-(n : Int))) else l.float?
    else if n ≤ significandLimit then some (.integer n) else l.float?
  else l.float?

end Literal

/-- A number, read from its sign or first digit. -/
def readNumber : Reader Number := fun input => do
  let (l, rest) ← literal input
  match l.number? with
  | some n => .ok (n, rest)
  | none => .error .malformed

end PagedReport.Json
