import Mathlib.Algebra.Order.BigOperators.Group.List
import Mathlib.Algebra.Order.Field.Rat
import Mathlib.Data.List.Induction
import Mathlib.Tactic.FieldSimp
import Mathlib.Tactic.Ring
import PagedReport.Decimal.Arithmetic

/-! # Decimals as rational numbers

A decimal names a rational number. Two decimals are the same number when these are equal. Addition
is exact as long as the operands, written with equally many places, have magnitudes whose sum is in
range, and then so is the total of a list.
-/

namespace PagedReport

theorem tenPow_pos (k : Nat) : 0 < tenPow k := Nat.pow_pos (by decide)

theorem tenPow_add (m n : Nat) : tenPow (m + n) = tenPow m * tenPow n := Nat.pow_add 10 m n

theorem tenPow_ne_zero (k : Nat) : (tenPow k : ℚ) ≠ 0 := Nat.cast_ne_zero.mpr (tenPow_pos k).ne'

namespace Numeral

/-- The number that a numeral writes. -/
def toRat (n : Numeral) : ℚ := n.coefficient / tenPow n.places

/-- Zeros at the end of a numeral do not change its number. -/
theorem toRat_mul_tenPow (coefficient : Int) (places zeros : Nat) :
    toRat ⟨coefficient * tenPow zeros, places + zeros⟩ = toRat ⟨coefficient, places⟩ := by
  have places_ne := tenPow_ne_zero places
  have zeros_ne := tenPow_ne_zero zeros
  simp only [toRat, tenPow_add]
  push_cast
  field_simp

theorem toRat_pad (n : Numeral) {places : Nat} (longer : n.places ≤ places) :
    n.toRat = toRat ⟨n.coefficient * tenPow (places - n.places), places⟩ := by
  have padded := toRat_mul_tenPow n.coefficient n.places (places - n.places)
  rw [Nat.add_sub_cancel' longer] at padded
  exact padded.symm

theorem toRat_add (a b : Int) (places : Nat) :
    toRat ⟨a + b, places⟩ = toRat ⟨a, places⟩ + toRat ⟨b, places⟩ := by
  simp only [toRat]
  push_cast
  exact add_div _ _ _

end Numeral

namespace Decimal

@[simp] theorem toRat_zero : zero.toRat = 0 := by simp [Numeral.toRat, zero]

theorem toRat_eq_zero_of_isZero {d : Decimal} (null : d.isZero = true) : d.toRat = 0 := by
  rw [isZero, beq_iff_eq] at null
  simp [Numeral.toRat, null]

theorem isZero_iff {d : Decimal} : d.isZero = true ↔ d.toRat = 0 := by
  constructor
  · exact toRat_eq_zero_of_isZero
  · intro null
    rw [Numeral.toRat, div_eq_zero_iff, or_iff_left (tenPow_ne_zero d.places), Int.cast_eq_zero] at null
    rw [isZero, null]
    rfl

/-- Decimals are compared as the rational numbers that they name. -/
theorem sameNumber_iff (a b : Decimal) : a.sameNumber b = true ↔ a.toRat = b.toRat := by
  have left := tenPow_ne_zero a.places
  have right := tenPow_ne_zero b.places
  rw [sameNumber, beq_iff_eq, Numeral.toRat, Numeral.toRat, div_eq_div_iff left right]
  exact_mod_cast Iff.rfl

/-- The magnitude of a decimal in units of its `places`-th decimal place. -/
def magnitude (places : Nat) (d : Decimal) : Nat := d.coefficient.natAbs * tenPow (places - d.places)

@[simp] theorem magnitude_zero (places : Nat) : zero.magnitude places = 0 := by
  simp [magnitude, zero]

private theorem roundQuotient_one (tie : Tie) (n : Nat) : roundQuotient tie n 1 = n := by
  simp [roundQuotient, Nat.mod_one]

theorem roundSigned_one (tie : Tie) (n : Int) : roundSigned tie n 1 = n := by
  rw [roundSigned, roundQuotient_one]
  exact Int.sign_mul_natAbs n

/-- A numeral in range keeps all of its decimals. -/
theorem fit_of_le {coefficient : Int} {places : Nat} (range : coefficient.natAbs ≤ limit)
    (short : places ≤ maxPlaces) :
    fit coefficient places = some ⟨⟨coefficient, places⟩, range, short⟩ := by
  have whole : ofParts? (roundSigned .toEven coefficient (tenPow 0)) places =
      some ⟨⟨coefficient, places⟩, range, short⟩ := by
    rw [show tenPow 0 = 1 from rfl, roundSigned_one, ofParts?, dif_pos ⟨range, short⟩]
  cases places with
  | zero => exact whole
  | succ places => rw [fit, fitDropping, whole, Option.orElse_some]

/-- The places of a sum that is not rounded. -/
def sumPlaces (a b : Decimal) : Nat :=
  if a.isZero then b.places else if b.isZero then a.places else max a.places b.places

theorem sumPlaces_le {places : Nat} {a b : Decimal} (first : a.places ≤ places)
    (second : b.places ≤ places) : sumPlaces a b ≤ places := by
  unfold sumPlaces
  split
  · exact second
  split
  · exact first
  · exact Nat.max_le.mpr ⟨first, second⟩

/-- A sum is exact if the magnitudes of its operands have a sum in range. -/
theorem add?_exact {places : Nat} {a b : Decimal} (first : a.places ≤ places)
    (second : b.places ≤ places) (range : a.magnitude places + b.magnitude places ≤ limit) :
    ∃ sum, a.add? b = some sum ∧ sum.toRat = a.toRat + b.toRat ∧ sum.places = sumPlaces a b ∧
      sum.magnitude places ≤ a.magnitude places + b.magnitude places := by
  unfold add? sumPlaces
  split
  · next null =>
    refine ⟨b, rfl, ?_, rfl, Nat.le_add_left _ _⟩
    rw [toRat_eq_zero_of_isZero null, zero_add]
  split
  · next null =>
    refine ⟨a, rfl, ?_, rfl, Nat.le_add_right _ _⟩
    rw [toRat_eq_zero_of_isZero null, add_zero]
  let common := max a.places b.places
  let coefficient := a.coefficient * tenPow (common - a.places) + b.coefficient * tenPow (common - b.places)
  have short : common ≤ places := Nat.max_le.mpr ⟨first, second⟩
  have widened (d : Decimal) (longer : d.places ≤ common) :
      (d.coefficient * tenPow (common - d.places) : Int).natAbs * tenPow (places - common) =
        d.magnitude places := by
    rw [Int.natAbs_mul, Int.natAbs_natCast, mul_assoc, ← tenPow_add, magnitude,
      show common - d.places + (places - common) = places - d.places by omega]
  have bound : coefficient.natAbs * tenPow (places - common) ≤ a.magnitude places + b.magnitude places := by
    rw [← widened a (Nat.le_max_left _ _), ← widened b (Nat.le_max_right _ _), ← add_mul]
    exact Nat.mul_le_mul_right _ (Int.natAbs_add_le _ _)
  have small : coefficient.natAbs ≤ limit :=
    ((Nat.le_mul_of_pos_right _ (tenPow_pos _)).trans bound).trans range
  refine ⟨_, fit_of_le small (Nat.max_le.mpr ⟨a.places_le, b.places_le⟩), ?_, rfl, bound⟩
  rw [a.toRat_pad (Nat.le_max_left a.places b.places), b.toRat_pad (Nat.le_max_right a.places b.places)]
  exact Numeral.toRat_add _ _ _

/-- The total of amounts added one after the other, unless a sum is out of range. -/
def total? (amounts : List Decimal) : Option Decimal := amounts.foldlM add? zero

/-- Amounts whose magnitudes, in units of one decimal place that all of them have, add up within
the range of a decimal. -/
structure InRange (places : Nat) (amounts : List Decimal) : Prop where
  short : ∀ amount ∈ amounts, amount.places ≤ places
  sum_le : (amounts.map (magnitude places)).sum ≤ limit

/-- The places of the amount that has most of them. -/
def largestPlaces (amounts : List Decimal) : Nat := (amounts.map fun amount => amount.places).foldr max 0

theorem places_le_largestPlaces {amount : Decimal} {amounts : List Decimal} (member : amount ∈ amounts) :
    amount.places ≤ largestPlaces amounts := by
  induction amounts with
  | nil => cases member
  | cons other rest ih =>
    rcases List.mem_cons.mp member with rfl | member
    · exact Nat.le_max_left _ _
    · exact (ih member).trans (Nat.le_max_right _ _)

/-- Amounts whose magnitudes, all written with the places of the longest one, add up within the range
of a decimal. -/
def SumInRange (amounts : List Decimal) : Prop :=
  (amounts.map (magnitude (largestPlaces amounts))).sum ≤ limit

instance (amounts : List Decimal) : Decidable (SumInRange amounts) := inferInstanceAs (Decidable (_ ≤ _))

theorem SumInRange.inRange {amounts : List Decimal} (range : SumInRange amounts) :
    InRange (largestPlaces amounts) amounts :=
  ⟨fun _ member => places_le_largestPlaces member, range⟩

theorem InRange.sublist {places : Nat} {part amounts : List Decimal} (range : InRange places amounts)
    (sub : part.Sublist amounts) : InRange places part where
  short amount member := range.short amount (sub.subset member)
  sum_le := ((sub.map _).sum_le_sum fun _ _ => Nat.zero_le _).trans range.sum_le

/-- The last amount has room besides the others. -/
theorem InRange.add_magnitude_le {places : Nat} {amounts : List Decimal} {amount : Decimal}
    (range : InRange places (amounts ++ [amount])) :
    (amounts.map (magnitude places)).sum + amount.magnitude places ≤ limit := by
  have whole := range.sum_le
  rwa [List.map_append, List.sum_append, List.map_singleton, List.sum_singleton] at whole

theorem total?_concat (amounts : List Decimal) (amount : Decimal) :
    total? (amounts ++ [amount]) = (total? amounts).bind (·.add? amount) := by
  rw [total?, List.foldlM_append]
  cases found : amounts.foldlM add? zero <;> simp [total?, found]

/-- The total of amounts in range exists, is their exact sum and is itself in range. -/
theorem InRange.total?_exact {places : Nat} {amounts : List Decimal} (range : InRange places amounts) :
    ∃ total, total? amounts = some total ∧
      total.toRat = (amounts.map fun amount => amount.toRat).sum ∧ total.places ≤ places ∧
      total.magnitude places ≤ (amounts.map (magnitude places)).sum := by
  induction amounts using List.reverseRecOn with
  | nil => exact ⟨zero, rfl, toRat_zero, Nat.zero_le _, (magnitude_zero places).le⟩
  | append_singleton amounts amount ih =>
    obtain ⟨sum, before, value, short, low⟩ := ih (range.sublist (List.sublist_append_left _ _))
    have second := range.short amount (List.mem_append_right _ List.mem_cons_self)
    have room := range.add_magnitude_le
    obtain ⟨total, added, exact', placed, bound⟩ := add?_exact short second (by omega)
    refine ⟨total, by rw [total?_concat, before, Option.bind_some, added], ?_, ?_, ?_⟩
    · rw [exact', value]
      simp
    · exact placed.trans_le (sumPlaces_le short second)
    · rw [List.map_append, List.sum_append, List.map_singleton, List.sum_singleton]
      omega

/-- The total of amounts in range exists and is their exact sum. -/
theorem InRange.total?_eq {places : Nat} {amounts : List Decimal} (range : InRange places amounts) :
    ∃ total, total? amounts = some total ∧
      total.toRat = (amounts.map fun amount => amount.toRat).sum := by
  obtain ⟨total, found, value, _⟩ := range.total?_exact
  exact ⟨total, found, value⟩

end Decimal

end PagedReport
