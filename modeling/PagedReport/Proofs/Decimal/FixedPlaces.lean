import Mathlib.Data.Rat.Floor
import Mathlib.Data.Sign.Basic
import PagedReport.Proofs.Decimal.Reading

/-! # Fixed places

A number with a fixed number of decimals is the number rounded once, half away from zero, whatever
its sign. Zeros are filled in only as far as the coefficient has room, so a large number is shown with
fewer decimals than were asked for, and never with a different value. A hundredfold is never rounded:
where it is not refused, it is a decimal itself.
-/

namespace PagedReport

/-- The whole number nearest to a number; a half goes away from zero. -/
def wholeAway (x : ℚ) : ℤ := SignType.sign x * round |x|

/-- A number rounded to some decimal places, a half away from zero. -/
def roundedTo (places : Nat) (x : ℚ) : ℚ := wholeAway (x * tenPow places) / tenPow places

example : roundedTo 1 (-5 / 4) = -13 / 10 ∧ roundedTo 0 (-1 / 3) = 0 := by decide +kernel

/-- A quotient of natural numbers is rounded up from a half on. -/
private theorem round_div (n : Nat) {d : Nat} (pos : 0 < d) :
    round ((n : ℚ) / d) = roundQuotient .awayFromZero n d := by
  obtain ⟨_, above⟩ := roundQuotient_near .awayFromZero n pos
  have below := roundQuotient_away n pos
  have unit : (0 : ℚ) < d := Nat.cast_pos.mpr pos
  have half : (n : ℚ) / d + 1 / 2 = (2 * n + d) / (2 * d) := by field_simp
  rw [round_eq, half, Int.floor_eq_iff, le_div_iff₀ (by positivity), div_lt_iff₀ (by positivity),
    Int.cast_natCast]
  constructor
  · have cast : (2 * (roundQuotient .awayFromZero n d * d) : ℚ) ≤ 2 * n + d := by exact_mod_cast above
    linarith
  · have cast : (2 * n : ℚ) < 2 * (roundQuotient .awayFromZero n d * d) + d := by exact_mod_cast below
    linarith

theorem wholeAway_div (n : Int) {d : Nat} (pos : 0 < d) :
    wholeAway ((n : ℚ) / d) = roundSigned .awayFromZero n d := by
  have unit : (0 : ℚ) < d := Nat.cast_pos.mpr pos
  have sign : SignType.sign ((n : ℚ) / d) = SignType.sign n := by
    rw [div_eq_mul_inv, sign_mul, sign_pos (inv_pos.mpr unit), mul_one, sign_intCast]
  have magnitude : |(n : ℚ) / d| = (n.natAbs : ℚ) / d := by
    rw [abs_div, abs_of_pos unit, Nat.cast_natAbs, Int.cast_abs]
  rw [wholeAway, sign, magnitude, round_div _ pos, roundSigned, Int.sign_eq_sign]

/-- A whole number of units of the last place is not rounded. -/
theorem roundedTo_eq_self {places : Nat} {x : ℚ} {n : Int} (whole : x * tenPow places = n) :
    roundedTo places x = x := by
  have same : wholeAway (n : ℚ) = n := by
    have one := wholeAway_div n Nat.one_pos
    rwa [Nat.cast_one, div_one, Decimal.roundSigned_one] at one
  rw [roundedTo, whole, same, ← whole, mul_div_cancel_right₀ _ (tenPow_ne_zero places)]

theorem roundedTo_neg_iff {places : Nat} {x : ℚ} :
    roundedTo places x < 0 ↔ x < 0 ∧ roundedTo places x ≠ 0 := by
  have unit : (0 : ℚ) < tenPow places := Decimal.tenPow_pos_rat places
  have magnitude : 0 ≤ round |x * tenPow places| := by
    rw [round_eq]
    exact Int.floor_nonneg.mpr (by positivity)
  have sign : SignType.sign (x * tenPow places) = SignType.sign x := by
    rw [sign_mul, sign_pos unit, mul_one]
  rw [ne_eq, roundedTo, div_eq_zero_iff, div_lt_iff₀ unit, zero_mul, Int.cast_lt_zero,
    Int.cast_eq_zero, or_iff_left unit.ne', wholeAway, sign]
  generalize round |x * tenPow places| = rounded at magnitude ⊢
  rcases lt_trichotomy x 0 with below | rfl | above
  · simp only [sign_neg below, below, true_and, SignType.coe_neg, SignType.coe_one]
    omega
  · simp
  · simp only [sign_pos above, above.not_gt, false_and, iff_false, SignType.coe_one]
    omega

namespace Numeral

/-- A numeral in units of its last place has the magnitude of its coefficient. -/
theorem abs_toRat_mul_places (n : Numeral) : |n.toRat| * tenPow n.places = n.coefficient.natAbs := by
  rw [← abs_of_pos (Decimal.tenPow_pos_rat n.places), ← abs_mul, Decimal.toRat_mul_places,
    Nat.cast_natAbs, Int.cast_abs]

theorem toRat_neg_iff (n : Numeral) : n.toRat < 0 ↔ n.coefficient < 0 := by
  rw [toRat, div_lt_iff₀ (Decimal.tenPow_pos_rat n.places), zero_mul, Int.cast_lt_zero]

theorem toRat_abs (n : Numeral) : n.abs.toRat = |n.toRat| := by
  rw [toRat, toRat, abs_div, abs_of_pos (Decimal.tenPow_pos_rat n.places)]
  simp [Numeral.abs]

/-- Zeros are filled in until there are enough of them or no room for another. -/
theorem exists_withZeros_eq {coefficient : Int} (fits : coefficient.natAbs ≤ Decimal.limit)
    (places extra : Nat) :
    ∃ zeros ≤ extra,
      withZeros coefficient places extra = ⟨coefficient * tenPow zeros, places + zeros⟩ ∧
      (coefficient * tenPow zeros).natAbs ≤ Decimal.limit ∧
      (zeros = extra ∨ Decimal.limit < (coefficient * tenPow (zeros + 1)).natAbs) := by
  induction extra generalizing coefficient places with
  | zero => exact ⟨0, le_refl 0, by simp [withZeros, tenPow], by simpa [tenPow] using fits, .inl rfl⟩
  | succ extra ih =>
    have shifted (zeros : Nat) :
        coefficient * 10 * tenPow zeros = coefficient * (tenPow (zeros + 1) : Nat) := by
      rw [show tenPow (zeros + 1) = tenPow zeros * 10 from tenPow_add zeros 1]
      push_cast
      ring
    rw [withZeros]
    split
    · next room =>
      obtain ⟨zeros, enough, filled, small, full⟩ := ih room (places + 1)
      rw [shifted] at filled small full
      refine ⟨zeros + 1, by omega, ?_, small, ?_⟩
      · rw [filled, show places + 1 + zeros = places + (zeros + 1) by omega]
      · exact full.imp_left (congrArg (· + 1))
    · next full =>
      refine ⟨0, Nat.zero_le _, by simp [tenPow], by simpa [tenPow] using fits, .inr ?_⟩
      simpa [tenPow] using full

/-- Zeros are filled in alike on both sides of zero. -/
theorem withZeros_abs (coefficient : Int) (places extra : Nat) :
    withZeros coefficient.natAbs places extra = (withZeros coefficient places extra).abs := by
  induction extra generalizing coefficient places with
  | zero => rfl
  | succ extra ih =>
    have scaled : ((coefficient.natAbs : Int) * 10) = (coefficient * 10).natAbs := by omega
    simp only [withZeros, scaled, Int.natAbs_natCast]
    split
    · exact ih (coefficient * 10) (places + 1)
    · rfl

end Numeral

namespace Decimal

variable (d : Decimal) (places : Nat)

/-- A number with fixed places is the number rounded to that many. -/
theorem toRat_fixedPlaces : (d.fixedPlaces places).toRat = roundedTo places d.toRat := by
  have unrounded (short : d.places ≤ places) : roundedTo places d.toRat = d.toRat := by
    apply roundedTo_eq_self
    rw [d.toRat_pad short]
    exact toRat_mul_places ⟨_, places⟩
  unfold fixedPlaces
  split
  · next long =>
    have units := toRat_mul_tenPow_of_add d.coefficient
      (show places + (d.places - places) = d.places by omega)
    rw [roundedTo, units, wholeAway_div _ (tenPow_pos _)]
    rfl
  · next short =>
    rw [unrounded (Nat.le_of_not_lt short)]
    split
    · next null =>
      rw [toRat_eq_zero_of_isZero null]
      simp [Numeral.toRat]
    · obtain ⟨zeros, _, filled, _⟩ :=
        Numeral.exists_withZeros_eq d.coefficient_le d.places (places - d.places)
      rw [filled, Numeral.toRat_mul_tenPow]

/-- The coefficient of a number with fixed places is in range. -/
theorem natAbs_fixedPlaces_le : (d.fixedPlaces places).coefficient.natAbs ≤ limit := by
  unfold fixedPlaces
  split
  · exact d.natAbs_roundSigned_le (d.places - places)
  split
  · exact Nat.zero_le _
  · obtain ⟨zeros, _, filled, small, _⟩ :=
      Numeral.exists_withZeros_eq d.coefficient_le d.places (places - d.places)
    rw [filled]
    exact small

/-- A number with fixed places is a decimal, if not in this form. -/
theorem exists_toRat_eq_fixedPlaces : ∃ e : Decimal, e.toRat = (d.fixedPlaces places).toRat := by
  by_cases long : places < d.places
  · have small := d.natAbs_fixedPlaces_le places
    have same : (d.fixedPlaces places).places = places := by rw [fixedPlaces, if_pos long]
    have short : (d.fixedPlaces places).places ≤ maxPlaces := by
      have bound := d.places_le
      omega
    exact ⟨⟨d.fixedPlaces places, small, short⟩, rfl⟩
  · refine ⟨d, ?_⟩
    rw [toRat_fixedPlaces, roundedTo_eq_self]
    rw [d.toRat_pad (Nat.le_of_not_lt long)]
    exact toRat_mul_places ⟨_, places⟩

variable {places}

/-- Fewer places than were asked for are shown only if another zero has no room. -/
private theorem places_fixedPlaces_full (short : places ≤ maxPlaces) :
    (d.fixedPlaces places).places ≤ places ∧ ((d.fixedPlaces places).places = places ∨
      (limit : ℚ) < |(d.fixedPlaces places).toRat| * tenPow ((d.fixedPlaces places).places + 1)) := by
  unfold fixedPlaces
  split
  · exact ⟨le_refl _, .inl rfl⟩
  split
  · exact ⟨Nat.min_le_left _ _, .inl (Nat.min_eq_left short)⟩
  · next fewer _ =>
    obtain ⟨zeros, enough, filled, _, full⟩ :=
      Numeral.exists_withZeros_eq d.coefficient_le d.places (places - d.places)
    rw [filled, Numeral.toRat_mul_tenPow]
    refine ⟨by dsimp only; omega, ?_⟩
    rcases full with all | full
    · exact .inl (by dsimp only; omega)
    · right
      have units :=
        Numeral.abs_toRat_mul_places ⟨d.coefficient * tenPow (zeros + 1), d.places + (zeros + 1)⟩
      rw [Numeral.toRat_mul_tenPow] at units
      rw [show d.places + zeros + 1 = d.places + (zeros + 1) from rfl, units]
      exact_mod_cast full

/-- A number with fixed places has as many of them as it has room for. -/
theorem isGreatest_places_fixedPlaces (short : places ≤ maxPlaces) :
    IsGreatest {shown | shown ≤ places ∧ |roundedTo places d.toRat| * tenPow shown ≤ limit}
      (d.fixedPlaces places).places := by
  obtain ⟨few, shown⟩ := d.places_fixedPlaces_full short
  rw [← toRat_fixedPlaces]
  refine ⟨⟨few, ?_⟩, ?_⟩
  · rw [(d.fixedPlaces places).abs_toRat_mul_places]
    exact_mod_cast d.natAbs_fixedPlaces_le places
  · rintro other ⟨fewer, fits⟩
    rcases shown with all | full
    · omega
    · -- One more place than there are would be out of range already.
      by_contra more
      have longer : (tenPow ((d.fixedPlaces places).places + 1) : ℚ) ≤ tenPow other := by
        exact_mod_cast Nat.pow_le_pow_right (by decide) (by omega)
      have larger : |(d.fixedPlaces places).toRat| * tenPow ((d.fixedPlaces places).places + 1) ≤
          |(d.fixedPlaces places).toRat| * tenPow other := by gcongr
      linarith

variable (places)

/-- A magnitude has the fixed places of the number. -/
theorem fixedPlaces_abs : d.abs.fixedPlaces places = (d.fixedPlaces places).abs := by
  have rounded (unit : Nat) (pos : 0 < unit) :
      roundSigned .awayFromZero d.coefficient.natAbs unit =
        (roundSigned .awayFromZero d.coefficient unit).natAbs := by
    have magnitude := natAbs_roundSigned .awayFromZero d.coefficient pos
    have unsigned := natAbs_roundSigned .awayFromZero (d.coefficient.natAbs : Int) pos
    rw [Int.natAbs_natCast] at unsigned
    have nonneg : 0 ≤ roundSigned .awayFromZero (d.coefficient.natAbs : Int) unit :=
      mul_nonneg (Int.sign_nonneg_iff.mpr (Int.natCast_nonneg _)) (Int.natCast_nonneg _)
    omega
  have parts : d.abs.coefficient = d.coefficient.natAbs ∧ d.abs.places = d.places := ⟨rfl, rfl⟩
  have null : d.abs.isZero = d.isZero := by
    rw [Bool.eq_iff_iff, isZero, isZero, beq_iff_eq, beq_iff_eq, parts.1]
    omega
  unfold fixedPlaces
  rw [parts.1, parts.2, null]
  split
  · rw [rounded _ (tenPow_pos _)]
    rfl
  split
  · rfl
  · exact Numeral.withZeros_abs d.coefficient d.places (places - d.places)

variable {d}

theorem toRat_neg_iff : d.toRat < 0 ↔ d.isNegative = true := by
  rw [Numeral.toRat_neg_iff, isNegative, decide_eq_true_eq]

/-- A decimal of which a hundredfold exceeds the limit is no more than one place long, so the
hundredfold is whole and no rounding brings it back. -/
theorem timesHundred?_eq_none_iff_lt : d.timesHundred? = none ↔ (limit : ℚ) < |d.toRat * 100| := by
  rw [timesHundred?_eq_none_iff]
  constructor
  · intro large
    linarith
  · intro large
    have hundred : d.toRat * 100 = d.toRat * tenPow 2 := by norm_num [tenPow]
    rw [hundred] at large ⊢
    by_cases short : d.places ≤ 2
    · rw [toRat_mul_of_places_le short, ← Int.cast_abs, Int.abs_eq_natAbs, Int.cast_natCast] at large ⊢
      have next : limit + 1 ≤ (d.coefficient * (tenPow (2 - d.places) : Nat)).natAbs := by
        exact_mod_cast large
      have cast : (limit + 1 : ℚ) ≤ (d.coefficient * (tenPow (2 - d.places) : Nat)).natAbs := by
        exact_mod_cast next
      linarith
    · have bound := d.abs_toRat_mul_places
      have longer : (tenPow 2 : ℚ) ≤ tenPow d.places := by
        exact_mod_cast Nat.pow_le_pow_right (by decide) (by omega)
      have smaller : |d.toRat| * tenPow 2 ≤ |d.toRat| * tenPow d.places := by gcongr
      rw [abs_mul, abs_of_pos (tenPow_pos_rat 2)] at large
      linarith

/-- A hundredfold is exact. -/
theorem toRat_of_timesHundred? {r : Decimal} (run : d.timesHundred? = some r) :
    r.toRat = d.toRat * 100 := by
  have hundred : d.toRat * 100 = d.toRat * tenPow 2 := by norm_num [tenPow]
  have small : ¬ (limit : ℚ) < |d.toRat * 100| := by
    rw [← timesHundred?_eq_none_iff_lt, run]
    exact Option.some_ne_none r
  have rounds : r.Rounds (d.toRat * 100) := by
    unfold timesHundred? at run
    split at run
    · next null =>
      obtain rfl := Option.some.inj run
      rw [toRat_eq_zero_of_isZero null, zero_mul, ← toRat_zero]
      exact .refl zero
    · rw [← toRat_hundredfold]
      exact fit_rounds d.places_le run
  -- The point can be moved by two places, so the hundredfold is a decimal and is not rounded.
  cases moved : d.shiftUp? 2 with
  | none =>
    rcases shiftUp?_eq_none_iff.mp moved with long | large
    · exact absurd long (by decide)
    · exact absurd (hundred ▸ large) small
  | some e => exact rounds.exact ((toRat_of_shiftUp? moved).trans hundred.symm)

end Decimal

end PagedReport
