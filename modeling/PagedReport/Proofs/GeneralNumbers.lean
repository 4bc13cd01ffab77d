import PagedReport.Proofs.Agreement
import PagedReport.Proofs.Json.WrittenNumbers
import PagedReport.Proofs.Thousands

/-! # Numbers in the general format

Without its trailing zeros a number has one numeral only. The general format writes this numeral: it is
read back as the number, it ends neither in a zero behind the point nor in the point, and two numbers
have the same text exactly if they agree as values.
-/

namespace PagedReport

namespace Numeral

/-- A numeral whose decimals do not end in a zero. -/
def IsShortest (n : Numeral) : Prop := n.places = 0 ∨ n.coefficient % 10 ≠ 0

/-- Only zeros are removed. -/
theorem exists_zeros_withoutTrailingZeros (coefficient : Int) (places : Nat) : ∃ zeros,
    coefficient = (withoutTrailingZeros coefficient places).coefficient * tenPow zeros ∧
      places = (withoutTrailingZeros coefficient places).places + zeros := by
  fun_induction withoutTrailingZeros coefficient places with
  | case1 coefficient => exact ⟨0, (Int.mul_one _).symm, rfl⟩
  | case2 coefficient places zero ih =>
    obtain ⟨zeros, digits, room⟩ := ih
    refine ⟨zeros + 1, ?_, by omega⟩
    have shifted : coefficient = coefficient / 10 * 10 := by omega
    rw [tenPow_add zeros 1, show tenPow 1 = 10 from rfl, Nat.cast_mul, ← mul_assoc, ← digits]
    exact shifted
  | case3 coefficient places other => exact ⟨0, (Int.mul_one _).symm, rfl⟩

/-- All zeros at the end are removed. -/
theorem isShortest_withoutTrailingZeros (coefficient : Int) (places : Nat) :
    (withoutTrailingZeros coefficient places).IsShortest := by
  fun_induction withoutTrailingZeros coefficient places with
  | case1 coefficient => exact .inl rfl
  | case2 coefficient places zero ih => exact ih
  | case3 coefficient places other => exact .inr other

/-- Numerals of one number with equally many places have one coefficient. -/
private theorem coefficient_eq_of_toRat {m n : Int} {places : Nat}
    (same : toRat ⟨m, places⟩ = toRat ⟨n, places⟩) : m = n := by
  rw [toRat, toRat, div_left_inj' (tenPow_ne_zero places)] at same
  exact_mod_cast same

/-- A numeral that is shortest has no more places than any other of its number. -/
private theorem IsShortest.places_le {a b : Numeral} (shortest : b.IsShortest)
    (same : a.toRat = b.toRat) : b.places ≤ a.places := by
  by_contra longer
  obtain ⟨zeros, extra⟩ := Nat.exists_eq_add_of_lt (Nat.not_le.mp longer)
  have padded := a.toRat_pad (Nat.le_of_lt (Nat.not_le.mp longer))
  have digits : a.coefficient * tenPow (b.places - a.places) = b.coefficient :=
    coefficient_eq_of_toRat (padded.symm.trans same)
  have whole : b.places - a.places = zeros + 1 := by omega
  rw [whole, tenPow_add zeros 1, show tenPow 1 = 10 from rfl, Nat.cast_mul, ← mul_assoc] at digits
  rcases shortest with none | solid
  · omega
  · rw [← digits] at solid
    exact solid (Int.mul_emod_left _ _)

/-- A number has one shortest numeral. -/
theorem IsShortest.eq_of_toRat {a b : Numeral} (first : a.IsShortest) (second : b.IsShortest)
    (same : a.toRat = b.toRat) : a = b := by
  have places : a.places = b.places :=
    Nat.le_antisymm (first.places_le same.symm) (second.places_le same)
  cases a
  cases b
  obtain rfl := places
  obtain rfl := coefficient_eq_of_toRat same
  rfl

/-- The last digit of a numeral is that of its coefficient. -/
theorem getLast?_chars (n : Numeral) :
    n.chars.getLast? = some (Nat.digitChar (n.coefficient.natAbs % 10)) := by
  have digits : n.paddedDigits.getLast? = some (Nat.digitChar (n.coefficient.natAbs % 10)) := by
    rw [paddedDigits, List.leftpad, List.getLast?_append_of_ne_nil _ Nat.toDigits_ne_nil,
      Nat.toDigits_eq_if (by decide)]
    split
    · next small => rw [Nat.mod_eq_of_lt small, List.getLast?_singleton]
    · rw [List.getLast?_concat]
  have length := n.length_fractionDigits
  rw [← digits, ← n.wholeDigits_append_fractionDigits, chars_eq, fractionChars]
  split
  · next none =>
    have empty : n.fractionDigits = [] := List.eq_nil_of_length_eq_zero (length.trans none)
    rw [empty, List.append_nil, List.append_nil, List.getLast?_append_of_ne_nil _ n.wholeDigits_ne_nil]
  · next some =>
    have filled : n.fractionDigits ≠ [] := List.ne_nil_of_length_pos (by omega)
    rw [List.getLast?_append_of_ne_nil _ (List.cons_ne_nil _ _),
      List.getLast?_append_of_ne_nil _ filled, List.getLast?_cons_of_ne_nil filled]

theorem getLast?_chars_ne_point (n : Numeral) : n.chars.getLast? ≠ some '.' := by
  rw [getLast?_chars]
  intro point
  have digit : (Nat.digitChar (n.coefficient.natAbs % 10)).isDigit = true := by
    rw [Nat.isDigit_digitChar]
    exact decide_eq_true (Nat.mod_lt _ (by decide))
  rw [Option.some.inj point] at digit
  cases digit

/-- A shortest numeral with a point ends in a digit other than zero. -/
theorem IsShortest.getLast?_chars_ne_zero {n : Numeral} (shortest : n.IsShortest)
    (point : '.' ∈ n.chars) : n.chars.getLast? ≠ some '0' := by
  have written : n.IsWrittenAs n.chars := .inl rfl
  obtain ⟨decimals, some⟩ := written.decimals_eq
  have places : n.places ≠ 0 := by
    rw [← n.length_fractionDigits, ← decimals]
    exact (List.length_pos_of_ne_nil (some.mp point)).ne'
  rw [getLast?_chars, ne_eq, Option.some.injEq, Nat.digitChar_eq_zero]
  have solid := shortest.resolve_left places
  omega

end Numeral

namespace Decimal

variable (d : Decimal)

theorem isShortest_normalized : d.normalized.IsShortest :=
  Numeral.isShortest_withoutTrailingZeros d.coefficient d.places

theorem toRat_normalized : d.normalized.toRat = d.toRat := by
  obtain ⟨zeros, digits, room⟩ := Numeral.exists_zeros_withoutTrailingZeros d.coefficient d.places
  have padded := Numeral.toRat_mul_tenPow d.normalized.coefficient d.normalized.places zeros
  rw [normalized, ← digits, ← room] at padded
  exact padded.symm

/-- The number with as few decimals as write it, as a decimal. -/
def shortest : Decimal where
  toNumeral := d.normalized
  coefficient_le := by
    obtain ⟨zeros, digits, _⟩ := Numeral.exists_zeros_withoutTrailingZeros d.coefficient d.places
    have range := d.coefficient_le
    rw [digits, Int.natAbs_mul, Int.natAbs_natCast] at range
    exact (Nat.le_mul_of_pos_right _ (tenPow_pos zeros)).trans range
  places_le := by
    obtain ⟨zeros, _, room⟩ := Numeral.exists_zeros_withoutTrailingZeros d.coefficient d.places
    have range := d.places_le
    rw [room] at range
    exact (Nat.le_add_right _ zeros).trans range

/-- Two decimals have the same shortest form exactly if they are the same number. -/
theorem shortest_eq_iff {a b : Decimal} : a.shortest = b.shortest ↔ a.toRat = b.toRat := by
  constructor
  · intro same
    rw [← a.toRat_normalized, ← b.toRat_normalized]
    exact congrArg (fun d : Decimal => d.toRat) same
  · intro same
    have numerals : a.normalized = b.normalized := by
      apply a.isShortest_normalized.eq_of_toRat b.isShortest_normalized
      rw [toRat_normalized, toRat_normalized, same]
    simp only [shortest, numerals]

end Decimal

/-- A number in the general format is read back as the number. It ends neither in a zero behind its
point nor in the point. Two numbers are shown alike exactly if they agree as values. -/
theorem NumberFormat.format_general_canonical (a b : Decimal) : ∃ shown other,
    general.format (.number a) = .ok shown ∧ general.format (.number b) = .ok other ∧
    (∃ d, (Value.text shown).toDecimal? = some d ∧ d.toRat = a.toRat) ∧
    ('.' ∈ shown.toList → shown.toList.getLast? ≠ some '0') ∧ shown.toList.getLast? ≠ some '.' ∧
    (shown = other ↔ (Value.number a).agrees (.number b) = true) := by
  have chars : a.shortest.text.toList = a.normalized.chars := String.toList_ofList
  refine ⟨a.shortest.text, b.shortest.text, rfl, rfl, ⟨a.shortest, ?_, a.toRat_normalized⟩, ?_, ?_, ?_⟩
  · exact a.shortest.ofText?_chars
  · rw [chars]
    exact a.isShortest_normalized.getLast?_chars_ne_zero
  · rw [chars]
    exact a.normalized.getLast?_chars_ne_point
  · rw [Decimal.text_inj, Decimal.shortest_eq_iff, ← Decimal.sameNumber_iff]
    rfl

end PagedReport
