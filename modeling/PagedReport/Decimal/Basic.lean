import PagedReport.Decimal.Rounding
import PagedReport.Power

/-! # Exact decimals

A `Numeral` is a coefficient with a number of decimal places, of any size. A `Decimal` is a numeral
in range: its coefficient fits ninety-six binary digits and it has at most twenty-eight places.
Both keep their trailing zeros, so `1.50` and `1.5` are different decimals that name the same
number.
-/

namespace PagedReport

/-- The number `coefficient / 10 ^ places`, written with exactly that many decimals. -/
structure Numeral where
  coefficient : Int
  places : Nat
deriving DecidableEq, Repr

namespace Numeral

/-- The decimal digits of a coefficient, with at least one before the decimal point. -/
def paddedDigits (n : Numeral) : List Char :=
  (Nat.toDigits 10 n.coefficient.natAbs).leftpad (n.places + 1) '0'

/-- The digits before the decimal point. -/
def wholeDigits (n : Numeral) : List Char :=
  n.paddedDigits.take (n.paddedDigits.length - n.places)

/-- The digits after the decimal point. -/
def fractionDigits (n : Numeral) : List Char :=
  n.paddedDigits.drop (n.paddedDigits.length - n.places)

/-- The written form: a minus sign for a negative number, and a point only before decimals. -/
def chars (n : Numeral) : List Char :=
  (if n.coefficient < 0 then ['-'] else []) ++ n.wholeDigits ++
    (if n.places = 0 then [] else '.' :: n.fractionDigits)

/-- The written form as a text. -/
def text (n : Numeral) : String := String.ofList n.chars

/-- The numeral without its sign. -/
def abs (n : Numeral) : Numeral := ⟨n.coefficient.natAbs, n.places⟩

end Numeral

namespace Decimal

/-- The greatest magnitude of a coefficient, ninety-six binary ones. -/
def limit : Nat := 79228162514264337593543950335

/-- The greatest number of decimal places. -/
def maxPlaces : Nat := 28

end Decimal

/-- A numeral whose coefficient and number of places are in range. -/
structure Decimal extends Numeral where
  coefficient_le : coefficient.natAbs ≤ Decimal.limit
  places_le : places ≤ Decimal.maxPlaces
deriving DecidableEq, Repr

namespace Decimal

/-- The decimal with these parts, if they are in range. -/
def ofParts? (coefficient : Int) (places : Nat) : Option Decimal :=
  if range : coefficient.natAbs ≤ limit ∧ places ≤ maxPlaces then
    some ⟨⟨coefficient, places⟩, range.1, range.2⟩
  else none

/-- The number zero, without decimals. -/
def zero : Decimal := ⟨⟨0, 0⟩, by decide, by decide⟩

instance : Inhabited Decimal := ⟨zero⟩

/-- A whole number of at most sixty-four bits as a decimal; zero stands for any number beyond. -/
def ofInt (n : Int) : Decimal := (ofParts? n 0).getD zero

/-- Whether the number is zero, with however many decimals. -/
def isZero (d : Decimal) : Bool := d.coefficient == 0

/-- Whether the number is below zero. -/
def isNegative (d : Decimal) : Bool := d.coefficient < 0

/-- Equality as numbers: `1.0` and `1.00` are the same. -/
def sameNumber (a b : Decimal) : Bool :=
  a.coefficient * tenPow b.places == b.coefficient * tenPow a.places

/-- The magnitude of a decimal, with the same decimals. -/
def abs (d : Decimal) : Decimal :=
  ⟨d.toNumeral.abs, by rw [Numeral.abs, Int.natAbs_natCast]; exact d.coefficient_le, d.places_le⟩

/-- The written form, with all of the decimals. -/
def text (d : Decimal) : String := d.toNumeral.text

end Decimal

end PagedReport
