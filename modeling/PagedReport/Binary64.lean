import PagedReport.Decimal.Rounding
import PagedReport.Power

/-! # Binary floating-point numbers

A number of the IEEE 754 format `binary64` is a mantissa of at most fifty-three binary digits times
a power of two. This module rounds ratios to that format, reads a decimal significand with a power
of ten, and finds the fewest decimal digits that read back as the same number, all in exact integer
arithmetic.
-/

namespace PagedReport

/-- The finite number `± mantissa * 2 ^ exponent`. -/
structure Binary64 where
  negative : Bool
  mantissa : Nat
  exponent : Int
deriving DecidableEq, Repr

namespace Binary64

/-- The exponent of the smallest numbers, zero among them. -/
def leastExponent : Int := -1074

/-- The exponent of the greatest numbers. -/
def greatestExponent : Int := 971

/-- The least mantissa of fifty-three binary digits. Only the smallest numbers have less of them. -/
def leastFullMantissa : Nat := 4503599627370496

/-- The ratio `n / d` divided by `2 ^ e`, as a ratio. -/
def unscale (n d : Nat) (e : Int) : Nat × Nat :=
  if 0 ≤ e then (n, d * twoPow e.toNat) else (n * twoPow (-e).toNat, d)

/-- The nonnegative number nearest to `n / d`, half to even; nothing when that is out of range. -/
def ofRatio? (n d : Nat) : Option Binary64 :=
  if n = 0 then some ⟨false, 0, leastExponent⟩
  else
    let low := max leastExponent ((n.log2 : Int) - d.log2 - 53)
    let (p, q) := unscale n d low
    let e := if p / q < 2 * leastFullMantissa then low else low + 1
    let (p, q) := unscale n d e
    let m := roundQuotient .toEven p q
    let (m, e) := if m = 2 * leastFullMantissa then (leastFullMantissa, e + 1) else (m, e)
    if greatestExponent < e then none else some ⟨false, m, e⟩

/-- The rounded product of two nonnegative numbers. -/
def mul? (a b : Binary64) : Option Binary64 :=
  let (p, q) := unscale (a.mantissa * b.mantissa) 1 (-(a.exponent + b.exponent))
  ofRatio? p q

/-- The rounded quotient of two nonnegative numbers, the second one positive. -/
def div? (a b : Binary64) : Option Binary64 :=
  let (p, q) := unscale a.mantissa b.mantissa (b.exponent - a.exponent)
  ofRatio? p q

/-- The number nearest to `10 ^ k`. -/
def powerOfTen? (k : Nat) : Option Binary64 := ofRatio? (tenPow k) 1

/-- The greatest power of ten in range. -/
def greatestPowerOfTen : Nat := 308

/-- A number times `10 ^ exponent`, one rounded step for each power of ten that is in range. A
number that vanishes on the way down stays zero; one that grows out of range is refused. -/
def timesPowerOfTen? (x : Binary64) (exponent : Int) : (fuel : Nat) → Option Binary64
  | 0 => some x
  | fuel + 1 =>
    if exponent.natAbs ≤ greatestPowerOfTen then do
      let power ← powerOfTen? exponent.natAbs
      if 0 ≤ exponent then mul? x power else div? x power
    else if x.mantissa = 0 then some x
    else if 0 ≤ exponent then none
    else do
      let power ← powerOfTen? greatestPowerOfTen
      let smaller ← div? x power
      timesPowerOfTen? smaller (exponent + greatestPowerOfTen) fuel

/-- The number read from a significand and a power of ten: the significand is rounded first, then
scaled. -/
def ofScientific? (significand : Nat) (exponent : Int) : Option Binary64 := do
  let x ← ofRatio? significand 1
  timesPowerOfTen? x exponent (exponent.natAbs + 1)

/-- The nearest decimals that read back as a number, sought on ever finer grids. -/
structure Interval where
  /-- The number and the two ends of the interval that rounds to it, in units of `unit`. -/
  value : Nat
  low : Nat
  high : Nat
  /-- Whether the ends themselves round to the number. -/
  closed : Bool
  unit : Int

/-- The interval of the reals that round to a positive number. Below a power of two the numbers lie
twice as dense. -/
def interval (x : Binary64) : Interval :=
  let m := x.mantissa
  let low := if m = leastFullMantissa ∧ leastExponent < x.exponent then 4 * m - 1 else 4 * m - 2
  ⟨4 * m, low, 4 * m + 2, m % 2 = 0, x.exponent - 2⟩

/-- The multiple of `10 ^ k` nearest to the value among those inside the interval, as a multiplier;
of two equally near ones the even one. -/
def Interval.onGrid? (i : Interval) (k : Int) : Option Nat :=
  let up := if 0 ≤ k then 1 else tenPow (-k).toNat
  let down := if 0 ≤ k then tenPow k.toNat else 1
  let (up, down) := if 0 ≤ i.unit then (up * twoPow i.unit.toNat, down)
    else (up, down * twoPow (-i.unit).toNat)
  let inside (c : Nat) : Bool :=
    if i.closed then i.low * up ≤ c * down && c * down ≤ i.high * up
    else i.low * up < c * down && c * down < i.high * up
  let below := i.value * up / down
  let above := below + 1
  if inside below && inside above then
    let toBelow := i.value * up - below * down
    let toAbove := above * down - i.value * up
    if toBelow < toAbove then some below
    else if toAbove < toBelow then some above
    else if below % 2 = 0 then some below else some above
  else if inside below then some below
  else if inside above then some above
  else none

/-- The first grid from `10 ^ k` downwards that meets the interval. -/
def Interval.coarsest (i : Interval) (k : Int) : (fuel : Nat) → Nat × Int
  | 0 => (0, 0)
  | fuel + 1 =>
    match i.onGrid? k with
    | some c => (c, k)
    | none => i.coarsest (k - 1) fuel

/-- The shortest decimal `digits * 10 ^ k` that reads back as a positive number. Every number is a
multiple of `10 ^ (-1074)`, where the search ends at the latest. -/
def shortest (x : Binary64) : Nat × Int := x.interval.coarsest 309 1384

end Binary64

end PagedReport
