import PagedReport.Decimal.Basic

/-! # Sums, percentages and fixed places

A sum or product is exact as long as it fits. One that is too long loses as few decimals as
possible, rounded half to even, and fails only when even its whole part does not fit. The forms
with a fixed number of places round half away from zero.
-/

namespace PagedReport

namespace Decimal

/-- The coefficient shortened by `dropped` decimals, or by the least greater number of them with
which it is in range. `left` counts the decimals that remain. -/
def fitDropping (coefficient : Int) (dropped : Nat) : (left : Nat) → Option Decimal
  | 0 => ofParts? (roundSigned .toEven coefficient (tenPow dropped)) 0
  | left + 1 =>
    (ofParts? (roundSigned .toEven coefficient (tenPow dropped)) (left + 1)).orElse fun _ =>
      fitDropping coefficient (dropped + 1) left

/-- The number `coefficient / 10 ^ places` with as many of its decimals as are in range. -/
def fit (coefficient : Int) (places : Nat) : Option Decimal := fitDropping coefficient 0 places

/-- The sum, with the decimals of the longer operand. A zero operand leaves the other unchanged,
its decimals included. -/
def add? (a b : Decimal) : Option Decimal :=
  if a.isZero then some b
  else if b.isZero then some a
  else
    let places := max a.places b.places
    fit (a.coefficient * tenPow (places - a.places) + b.coefficient * tenPow (places - b.places)) places

/-- A hundred times the number. -/
def timesHundred? (d : Decimal) : Option Decimal :=
  if d.isZero then some zero else fit (d.coefficient * 100) d.places

end Decimal

namespace Numeral

/-- Decimals removed from the right for as long as they are zeros. -/
def withoutTrailingZeros (coefficient : Int) : (places : Nat) → Numeral
  | 0 => ⟨coefficient, 0⟩
  | places + 1 =>
    if coefficient % 10 = 0 then withoutTrailingZeros (coefficient / 10) places
    else ⟨coefficient, places + 1⟩

/-- At most `extra` zeros added as further decimals, for as long as the coefficient stays in the
range of a decimal. -/
def withZeros (coefficient : Int) (places : Nat) : (extra : Nat) → Numeral
  | 0 => ⟨coefficient, places⟩
  | extra + 1 =>
    if (coefficient * 10).natAbs ≤ Decimal.limit then
      withZeros (coefficient * 10) (places + 1) extra
    else ⟨coefficient, places⟩

end Numeral

namespace Decimal

/-- The number without trailing zeros after its decimal point. -/
def normalized (d : Decimal) : Numeral := Numeral.withoutTrailingZeros d.coefficient d.places

/-- The number with `places` decimals: longer ones are rounded half away from zero, shorter ones
filled with zeros as far as the coefficient has room. Zero has no more places than a decimal. -/
def fixedPlaces (d : Decimal) (places : Nat) : Numeral :=
  if places < d.places then
    ⟨roundSigned .awayFromZero d.coefficient (tenPow (d.places - places)), places⟩
  else if d.isZero then ⟨0, min places maxPlaces⟩
  else Numeral.withZeros d.coefficient d.places (places - d.places)

end Decimal

end PagedReport
