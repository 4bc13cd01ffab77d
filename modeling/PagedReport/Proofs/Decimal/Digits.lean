import PagedReport.Proofs.Decimal.Reading

/-! # Decimals that are written

A numeral is written with its digits, parted by a point where its decimals begin. Before the point
stands a zero alone or a number that does not start with one, and the digits without their point
write the coefficient. A decimal is therefore read back with every digit and every place.
-/

namespace PagedReport

namespace Decimal

/-- Digits give the number that they were written for. -/
theorem ofDigits_toDigits (n : Nat) : ofDigits ((Nat.toDigits 10 n).map digitValue) = n := by
  have read : ofDigits ((Nat.toDigits 10 n).map digitValue) =
      Nat.ofDigitChars 10 (Nat.toDigits 10 n) 0 := by
    simp only [ofDigits, Nat.ofDigitChars, List.foldl_map, digitValue, Nat.mul_comm]
  rw [read, Nat.ofDigitChars_ten_toDigits]

theorem isDigit_of_mem_toDigits {n : Nat} : ∀ c ∈ Nat.toDigits 10 n, c.isDigit = true :=
  fun _ member => Nat.isDigit_of_mem_toDigits (by decide) (by decide) member

/-- Only zero is written with a zero in front. -/
theorem head?_toDigits {n : Nat} (pos : 0 < n) : (Nat.toDigits 10 n).head? ≠ some '0' := by
  induction n using Nat.strongRecOn with
  | ind n ih =>
    rw [Nat.toDigits_eq_if (by decide)]
    split
    · next small =>
      rw [List.head?_cons, ne_eq, Option.some.injEq, Nat.digitChar_eq_zero]
      omega
    · next large =>
      have shorter : n / 10 < n := Nat.div_lt_self pos (by decide)
      have head := ih (n / 10) shorter (by omega)
      rwa [List.head?_append_of_ne_nil _ Nat.toDigits_ne_nil]

/-- Zeros in front of digits add nothing. -/
private theorem ofDigits_replicate_zero (k : Nat) (digits : List Nat) :
    ofDigits (List.replicate k 0 ++ digits) = ofDigits digits := by
  induction k with
  | zero => rfl
  | succ k ih => rw [List.replicate_succ, List.cons_append, ofDigits_cons, ih, Nat.zero_mul, Nat.zero_add]

end Decimal

namespace Numeral

variable (n : Numeral)

theorem isDigit_of_mem_paddedDigits : ∀ c ∈ n.paddedDigits, c.isDigit = true := by
  intro c member
  rcases List.mem_append.mp member with zero | digit
  · obtain rfl := List.eq_of_mem_replicate zero
    rfl
  · exact Decimal.isDigit_of_mem_toDigits c digit

theorem length_paddedDigits : n.places < n.paddedDigits.length := by
  rw [paddedDigits, List.length_leftpad]
  omega

/-- The digits on both sides of the point are all digits. -/
theorem wholeDigits_append_fractionDigits : n.wholeDigits ++ n.fractionDigits = n.paddedDigits :=
  List.take_append_drop ..

theorem length_fractionDigits : n.fractionDigits.length = n.places := by
  have long := n.length_paddedDigits
  rw [fractionDigits, List.length_drop]
  omega

theorem length_wholeDigits : n.wholeDigits.length = n.paddedDigits.length - n.places := by
  rw [wholeDigits, List.length_take]
  omega

theorem isDigit_of_mem_wholeDigits : ∀ c ∈ n.wholeDigits, c.isDigit = true :=
  fun c member => n.isDigit_of_mem_paddedDigits c (List.mem_of_mem_take member)

theorem isDigit_of_mem_fractionDigits : ∀ c ∈ n.fractionDigits, c.isDigit = true :=
  fun c member => n.isDigit_of_mem_paddedDigits c (List.mem_of_mem_drop member)

theorem wholeDigits_ne_nil : n.wholeDigits ≠ [] := by
  have long := n.length_paddedDigits
  apply List.ne_nil_of_length_pos
  rw [length_wholeDigits]
  omega

/-- A zero before the point stands alone. -/
theorem length_wholeDigits_of_head? (zero : n.wholeDigits.head? = some '0') :
    n.wholeDigits.length = 1 := by
  have digits : 0 < (Nat.toDigits 10 n.coefficient.natAbs).length := Nat.length_toDigits_pos
  rw [length_wholeDigits, paddedDigits, List.length_leftpad]
  by_cases long : n.places + 1 < (Nat.toDigits 10 n.coefficient.natAbs).length
  · -- There are no zeros in front, so the first digit is that of a positive number.
    have none : n.paddedDigits = Nat.toDigits 10 n.coefficient.natAbs := by
      rw [paddedDigits, List.leftpad, Nat.sub_eq_zero_of_le long.le]
      rfl
    have pos : 0 < n.coefficient.natAbs := by
      by_contra none
      rw [Nat.eq_zero_of_not_pos none, Nat.toDigits_zero] at long
      simp at long
    rw [wholeDigits, List.head?_take, if_neg (by rw [none]; omega), none] at zero
    exact absurd zero (Decimal.head?_toDigits pos)
  · omega

/-- The digits without their point write the coefficient. -/
theorem ofDigits_paddedDigits :
    Decimal.ofDigits (n.paddedDigits.map Decimal.digitValue) = n.coefficient.natAbs := by
  have zero : Decimal.digitValue '0' = 0 := rfl
  rw [paddedDigits, List.leftpad, List.map_append, List.map_replicate, zero,
    Decimal.ofDigits_replicate_zero, Decimal.ofDigits_toDigits]

end Numeral

namespace Decimal

/-- Digits of a fraction that fit are all taken up. -/
theorem takeFraction_of_fits {coefficient places : Nat} {digits : List Nat}
    (fits : coefficient * tenPow digits.length + ofDigits digits ≤ limit)
    (short : places + digits.length ≤ maxPlaces) :
    takeFraction coefficient places (digits.map .digit) =
      some (coefficient * tenPow digits.length + ofDigits digits, places + digits.length) := by
  induction digits generalizing coefficient places with
  | nil => simp [takeFraction, ofDigits, tenPow]
  | cons d rest ih =>
    have number : coefficient * tenPow (d :: rest).length + ofDigits (d :: rest) =
        (coefficient * 10 + d) * tenPow rest.length + ofDigits rest := by
      rw [ofDigits_cons, List.length_cons, tenPow_add rest.length 1, show tenPow 1 = 10 from rfl]
      ring
    rw [number] at fits ⊢
    rw [List.length_cons] at short ⊢
    have unit := tenPow_pos rest.length
    have room : coefficient * 10 + d ≤ limit := by
      have least : (coefficient * 10 + d) * 1 ≤ (coefficient * 10 + d) * tenPow rest.length :=
        Nat.mul_le_mul_left _ unit
      omega
    have free : places < maxPlaces := by omega
    rw [List.map_cons, takeFraction, if_pos ⟨free, room⟩, ih fits (by omega)]
    congr 2
    omega

/-- A numeral whose digits and places fit is read as it is written. -/
theorem ofPlainChars?_of_fits {cs body : List Char} {negative : Bool} {whole fraction : List Nat}
    (sign : splitSign cs = (negative, body))
    (split : splitPoint false false body = some (whole, fraction.map .digit))
    (fits : ofDigits (whole ++ fraction) ≤ limit) (short : fraction.length ≤ maxPlaces) :
    ofPlainChars? cs =
      ofParts? (signed negative (ofDigits (whole ++ fraction))) fraction.length := by
  rw [ofDigits_append] at fits ⊢
  have wholeFits : ofDigits whole ≤ limit := by
    have unit := tenPow_pos fraction.length
    have least : ofDigits whole * 1 ≤ ofDigits whole * tenPow fraction.length :=
      Nat.mul_le_mul_left _ unit
    omega
  have room : 0 + fraction.length ≤ maxPlaces := by omega
  have taken := takeFraction_of_fits fits room
  rw [ofPlainChars?_eq sign split, if_neg (Nat.not_lt.mpr wholeFits), taken, Nat.zero_add]
  rfl

end Decimal

end PagedReport
