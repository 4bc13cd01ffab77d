import Mathlib.Algebra.Order.Ring.Abs
import Mathlib.Tactic.Linarith
import Mathlib.Tactic.Positivity
import PagedReport.Proofs.Decimal.Value

/-! # Sums that are rounded

A sum of two decimals that needs more digits than a decimal has is not refused. It loses as few of
its decimals as it can, rounded half to even, so a large amount can swallow a small one. Only a sum
whose whole part does not fit is refused. A sum that is itself a decimal is never rounded.
-/

namespace PagedReport

/-- A rounded quotient is at most one half away from the quotient. -/
theorem roundQuotient_near (tie : Tie) (n : Nat) {d : Nat} (pos : 0 < d) :
    2 * n ≤ 2 * (roundQuotient tie n d * d) + d ∧ 2 * (roundQuotient tie n d * d) ≤ 2 * n + d := by
  have parts := Nat.div_add_mod' n d
  have rest := Nat.mod_lt n pos
  have next : (n / d + 1) * d = n / d * d + d := Nat.succ_mul ..
  simp only [roundQuotient]
  split
  · omega
  · split
    · omega
    · cases tie with
      | awayFromZero => dsimp only; omega
      | toEven => dsimp only; split <;> omega

/-- Half way between two whole numbers the even one is taken. -/
theorem roundQuotient_even {n d : Nat} (pos : 0 < d)
    (half : 2 * n = 2 * (roundQuotient .toEven n d * d) + d ∨
      2 * (roundQuotient .toEven n d * d) = 2 * n + d) : roundQuotient .toEven n d % 2 = 0 := by
  have parts := Nat.div_add_mod' n d
  have rest := Nat.mod_lt n pos
  have next : (n / d + 1) * d = n / d * d + d := Nat.succ_mul ..
  simp only [roundQuotient] at half ⊢
  split at half
  · omega
  · split at half
    · omega
    · next low high =>
      rw [if_neg low, if_neg high]
      split <;> omega

/-- A rounded quotient exceeds an odd number if the quotient is half way to the next one or beyond. -/
theorem lt_roundQuotient_iff {bound n d : Nat} (pos : 0 < d) (odd : bound % 2 = 1) :
    bound < roundQuotient .toEven n d ↔ (2 * bound + 1) * d ≤ 2 * n := by
  obtain ⟨low, high⟩ := roundQuotient_near .toEven n pos
  have twice : (2 * bound + 1) * d = 2 * (bound * d) + d := by ring
  rw [twice]
  constructor
  · intro less
    have scaled : (bound + 1) * d ≤ roundQuotient .toEven n d * d := Nat.mul_le_mul_right d less
    rw [Nat.succ_mul] at scaled
    omega
  · intro large
    by_contra small
    have scaled : roundQuotient .toEven n d * d ≤ bound * d :=
      Nat.mul_le_mul_right d (Nat.le_of_not_lt small)
    have same : roundQuotient .toEven n d = bound := Nat.eq_of_mul_eq_mul_right pos (by omega)
    have even := roundQuotient_even (n := n) pos (.inl (by omega))
    omega

theorem natAbs_roundSigned (tie : Tie) (n : Int) {d : Nat} (pos : 0 < d) :
    (roundSigned tie n d).natAbs = roundQuotient tie n.natAbs d := by
  rw [roundSigned, Int.natAbs_mul, Int.natAbs_natCast]
  by_cases zero : n = 0
  · subst zero
    simp [roundQuotient, pos]
  · rw [Int.natAbs_sign_of_ne_zero zero, one_mul]

/-- The distance of a rounded quotient from an integer is that of the magnitudes, and zero is zero. -/
theorem distance_roundSigned (tie : Tie) (n : Int) (d : Nat) :
    (roundSigned tie n d * d - n).natAbs = n.sign.natAbs *
      ((roundQuotient tie n.natAbs d * d : Nat) - (n.natAbs : Int)).natAbs := by
  have signed : roundSigned tie n d * d - n =
      n.sign * ((roundQuotient tie n.natAbs d * d : Nat) - (n.natAbs : Int)) := by
    rw [mul_sub, Int.sign_mul_natAbs, roundSigned]
    push_cast
    ring
  rw [signed, Int.natAbs_mul]

/-- A rounded quotient of an integer is at most one half away from the quotient. -/
theorem roundSigned_near (tie : Tie) (n : Int) {d : Nat} (pos : 0 < d) :
    2 * (roundSigned tie n d * d - n).natAbs ≤ d := by
  obtain ⟨low, high⟩ := roundQuotient_near tie n.natAbs pos
  have unit : n.sign.natAbs ≤ 1 := by
    rcases Int.sign_trichotomy n with sign | sign | sign <;> simp [sign]
  have scaled := Nat.mul_le_mul_right
    ((roundQuotient tie n.natAbs d * d : Nat) - (n.natAbs : Int)).natAbs unit
  rw [distance_roundSigned]
  omega

/-- Half way between two integers the even one is taken. -/
theorem roundSigned_even {n : Int} {d : Nat} (pos : 0 < d)
    (half : 2 * (roundSigned .toEven n d * d - n).natAbs = d) : roundSigned .toEven n d % 2 = 0 := by
  by_cases zero : n = 0
  · simp [roundSigned, zero]
  · rw [distance_roundSigned, Int.natAbs_sign_of_ne_zero zero, one_mul] at half
    have even : roundQuotient .toEven n.natAbs d % 2 = 0 := roundQuotient_even pos (by omega)
    have magnitude := natAbs_roundSigned .toEven n pos
    omega

namespace Decimal

theorem toNumeral_of_ofParts? {coefficient : Int} {places : Nat} {d : Decimal}
    (run : ofParts? coefficient places = some d) : d.toNumeral = ⟨coefficient, places⟩ := by
  obtain ⟨_, same⟩ := Option.dite_none_right_eq_some.mp run
  rw [← Option.some.inj same]

theorem ofParts?_eq_none_iff {coefficient : Int} {places : Nat} (short : places ≤ maxPlaces) :
    ofParts? coefficient places = none ↔ limit < coefficient.natAbs := by
  simp [ofParts?, short]

/-- A coefficient that fits keeps as many of its decimals as are in range. -/
theorem fitDropping_eq_some {coefficient : Int} {dropped left : Nat} (short : left ≤ maxPlaces)
    {d : Decimal} (run : fitDropping coefficient dropped left = some d) :
    ∃ more, d.places + more = left ∧
      d.coefficient = roundSigned .toEven coefficient (tenPow (dropped + more)) ∧
      ∀ fewer < more, limit < (roundSigned .toEven coefficient (tenPow (dropped + fewer))).natAbs := by
  induction left generalizing dropped with
  | zero =>
    have same := toNumeral_of_ofParts? run
    refine ⟨0, by rw [same], by rw [same]; rfl, ?_⟩
    exact fun _ less => absurd less (Nat.not_lt_zero _)
  | succ left ih =>
    rw [fitDropping] at run
    cases whole : ofParts? (roundSigned .toEven coefficient (tenPow dropped)) (left + 1) with
    | some kept =>
      rw [whole] at run
      obtain rfl := Option.some.inj run
      have same := toNumeral_of_ofParts? whole
      refine ⟨0, by rw [same], by rw [same]; rfl, ?_⟩
      exact fun _ less => absurd less (Nat.not_lt_zero _)
    | none =>
      rw [whole] at run
      have large := (ofParts?_eq_none_iff short).mp whole
      obtain ⟨more, places, rounded, larger⟩ := ih (by omega) run
      refine ⟨more + 1, by omega, by rw [rounded, Nat.succ_add_eq_add_succ], ?_⟩
      intro fewer less
      cases fewer with
      | zero => exact large
      | succ fewer =>
        rw [← Nat.succ_add_eq_add_succ]
        exact larger fewer (by omega)

/-- A coefficient does not fit if it is too large even without any decimals. -/
theorem fitDropping_eq_none_iff {coefficient : Int} {dropped left : Nat} (short : left ≤ maxPlaces) :
    fitDropping coefficient dropped left = none ↔ ∀ more ≤ left,
      limit < (roundSigned .toEven coefficient (tenPow (dropped + more))).natAbs := by
  induction left generalizing dropped with
  | zero => simp [fitDropping, ofParts?_eq_none_iff]
  | succ left ih =>
    rw [fitDropping, Option.orElse_eq_or, Option.or_eq_none_iff, ofParts?_eq_none_iff short,
      ih (by omega)]
    constructor
    · rintro ⟨large, larger⟩ (_ | more) bound
      · exact large
      · rw [← Nat.succ_add_eq_add_succ]
        exact larger more (by omega)
    · intro larger
      refine ⟨larger 0 (by omega), fun more bound => ?_⟩
      rw [Nat.succ_add_eq_add_succ]
      exact larger (more + 1) (by omega)

/-- A decimal that stands for a number: it is rounded half to even, and loses no decimal that there
was room for. -/
structure Rounds (d : Decimal) (x : ℚ) : Prop where
  near : |d.toRat - x| * tenPow d.places ≤ 1 / 2
  even : |d.toRat - x| * tenPow d.places = 1 / 2 → d.coefficient % 2 = 0
  full : d.toRat ≠ x → (limit : ℚ) + 1 / 2 ≤ |x| * tenPow (d.places + 1)

theorem tenPow_pos_rat (k : Nat) : (0 : ℚ) < tenPow k := Nat.cast_pos.mpr (tenPow_pos k)

/-- A decimal in units of its last place is its coefficient. -/
theorem toRat_mul_places (n : Numeral) : n.toRat * tenPow n.places = n.coefficient :=
  div_mul_cancel₀ _ (tenPow_ne_zero n.places)

theorem abs_toRat_mul_places (d : Decimal) : |d.toRat| * tenPow d.places ≤ limit := by
  have magnitude : |d.toRat| * tenPow d.places = d.coefficient.natAbs := by
    rw [← abs_of_pos (tenPow_pos_rat d.places), ← abs_mul, toRat_mul_places, Nat.cast_natAbs,
      Int.cast_abs]
  rw [magnitude]
  exact_mod_cast d.coefficient_le

/-- A numeral in units of a place before its last one. -/
theorem toRat_mul_tenPow_of_add (coefficient : Int) {kept dropped places : Nat}
    (parts : kept + dropped = places) :
    Numeral.toRat ⟨coefficient, places⟩ * tenPow kept = coefficient / tenPow dropped := by
  have kept_ne := tenPow_ne_zero kept
  have dropped_ne := tenPow_ne_zero dropped
  simp only [Numeral.toRat, ← parts, tenPow_add]
  push_cast
  field_simp

/-- The distance of a decimal from a numeral with more places, in units of its own last place. -/
theorem distance_mul_places (coefficient : Int) {places dropped : Nat} {d : Decimal}
    (parts : d.places + dropped = places) :
    |d.toRat - Numeral.toRat ⟨coefficient, places⟩| * tenPow d.places =
      (d.coefficient * tenPow dropped - coefficient).natAbs / tenPow dropped := by
  have unit := tenPow_pos_rat dropped
  rw [← abs_of_pos (tenPow_pos_rat d.places), ← abs_mul, sub_mul, toRat_mul_places,
    toRat_mul_tenPow_of_add coefficient parts, Nat.cast_natAbs, Int.cast_abs]
  nth_rewrite 2 [← abs_of_pos unit]
  rw [← abs_div]
  apply congrArg
  push_cast
  field_simp

/-- A number that has no room for another place is no decimal with more places. -/
theorem places_le_of_full {d e : Decimal} {x : ℚ}
    (full : (limit : ℚ) + 1 / 2 ≤ |x| * tenPow (d.places + 1)) (same : e.toRat = x) :
    e.places ≤ d.places := by
  by_contra longer
  have scaled : (tenPow (d.places + 1) : ℚ) ≤ tenPow e.places := by
    exact_mod_cast Nat.pow_le_pow_right (by decide) (by omega)
  have bound := e.abs_toRat_mul_places
  rw [same] at bound
  have smaller : |x| * tenPow (d.places + 1) ≤ |x| * tenPow e.places := by gcongr
  linarith

/-- A decimal with places enough that is at most half a unit of the last place away is the same
number: in these units both are whole, and they are closer than one. -/
theorem toRat_eq_of_near {d e : Decimal} {x : ℚ} (near : |d.toRat - x| * tenPow d.places ≤ 1 / 2)
    (short : e.places ≤ d.places) (same : e.toRat = x) : d.toRat = x := by
  have whole : x * tenPow d.places = (e.coefficient * tenPow (d.places - e.places) : Int) := by
    rw [← same, e.toRat_pad short]
    exact toRat_mul_places ⟨_, d.places⟩
  have distance : |((d.coefficient - e.coefficient * tenPow (d.places - e.places) : Int) : ℚ)| ≤ 1 / 2 := by
    rw [Int.cast_sub, ← whole, ← toRat_mul_places d.toNumeral, ← sub_mul, abs_mul,
      abs_of_pos (tenPow_pos_rat d.places)]
    exact near
  have equal : d.coefficient - e.coefficient * tenPow (d.places - e.places) = 0 := by
    have small : |d.coefficient - e.coefficient * tenPow (d.places - e.places)| < 1 := by
      have less : (1 / 2 : ℚ) < 1 := by norm_num
      exact_mod_cast distance.trans_lt less
    exact Int.abs_lt_one_iff.mp small
  rw [← same, e.toRat_pad short, ← sub_eq_zero.mp equal]

namespace Rounds

theorem refl (d : Decimal) : d.Rounds d.toRat where
  near := by simp
  even := by simp
  full differ := absurd rfl differ

/-- A number that is a decimal is not rounded. -/
theorem exact {d e : Decimal} {x : ℚ} (rounds : d.Rounds x) (same : e.toRat = x) : d.toRat = x := by
  by_contra differ
  exact differ (toRat_eq_of_near rounds.near (places_le_of_full (rounds.full differ) same) same)

end Rounds

/-- A magnitude in units of some place rounds beyond the limit if it is half a unit above it. -/
private theorem limit_lt_roundSigned_iff (coefficient : Int) (dropped : Nat) :
    limit < (roundSigned .toEven coefficient (tenPow dropped)).natAbs ↔
      (limit : ℚ) + 1 / 2 ≤ |(coefficient : ℚ)| / tenPow dropped := by
  rw [natAbs_roundSigned _ _ (tenPow_pos dropped), lt_roundQuotient_iff (tenPow_pos dropped) (by decide),
    le_div_iff₀ (tenPow_pos_rat dropped), ← Int.cast_abs, Int.abs_eq_natAbs, Int.cast_natCast]
  constructor
  · intro large
    have cast : ((2 * limit + 1) * tenPow dropped : ℚ) ≤ 2 * coefficient.natAbs := by
      exact_mod_cast large
    linarith
  · intro large
    have cast : ((2 * limit + 1) * tenPow dropped : ℚ) ≤ 2 * coefficient.natAbs := by linarith
    exact_mod_cast cast

/-- A coefficient that fits gives a decimal that stands for its number. -/
theorem fit_rounds {coefficient : Int} {places : Nat} (short : places ≤ maxPlaces) {d : Decimal}
    (run : fit coefficient places = some d) : d.Rounds (Numeral.toRat ⟨coefficient, places⟩) := by
  obtain ⟨dropped, parts, rounded, larger⟩ := fitDropping_eq_some short run
  rw [Nat.zero_add] at rounded
  have unit := tenPow_pos_rat dropped
  have distance := distance_mul_places coefficient parts
  constructor
  · have near := roundSigned_near .toEven coefficient (tenPow_pos dropped)
    rw [← rounded] at near
    rw [distance, div_le_iff₀ unit]
    have cast : (2 * (d.coefficient * tenPow dropped - coefficient).natAbs : ℚ) ≤ tenPow dropped := by
      exact_mod_cast near
    linarith
  · intro half
    rw [distance, div_eq_iff unit.ne'] at half
    have cast : (2 * (d.coefficient * tenPow dropped - coefficient).natAbs : ℚ) = tenPow dropped := by
      linarith
    rw [rounded] at cast ⊢
    exact roundSigned_even (tenPow_pos dropped) (by exact_mod_cast cast)
  · intro differ
    obtain ⟨fewer, rfl⟩ : ∃ fewer, dropped = fewer + 1 := by
      refine Nat.exists_eq_succ_of_ne_zero ?_
      rintro rfl
      apply differ
      rw [Nat.add_zero] at parts
      rw [Numeral.toRat, Numeral.toRat, rounded, parts, show tenPow 0 = 1 from rfl, roundSigned_one]
    have large := (limit_lt_roundSigned_iff coefficient fewer).mp
      (Nat.zero_add fewer ▸ larger fewer (Nat.lt_succ_self fewer))
    have scaled := toRat_mul_tenPow_of_add coefficient
      (show d.places + 1 + fewer = places by omega)
    rw [← abs_of_pos (tenPow_pos_rat (d.places + 1)), ← abs_mul, scaled, abs_div,
      abs_of_pos (tenPow_pos_rat fewer)]
    exact large

/-- A coefficient does not fit if its number exceeds the limit by half a unit or more. -/
theorem fit_eq_none_iff {coefficient : Int} {places : Nat} (short : places ≤ maxPlaces) :
    fit coefficient places = none ↔
      (limit : ℚ) + 1 / 2 ≤ |Numeral.toRat ⟨coefficient, places⟩| := by
  have whole : |Numeral.toRat ⟨coefficient, places⟩| = |(coefficient : ℚ)| / tenPow places := by
    rw [Numeral.toRat, abs_div, abs_of_pos (tenPow_pos_rat places)]
  rw [fit, fitDropping_eq_none_iff short, whole]
  simp only [Nat.zero_add, limit_lt_roundSigned_iff]
  constructor
  · intro larger
    exact larger places (Nat.le_refl places)
  · intro large more bound
    refine large.trans ?_
    have longer : (tenPow more : ℚ) ≤ tenPow places := by
      exact_mod_cast Nat.pow_le_pow_right (by decide) bound
    exact div_le_div_of_nonneg_left (abs_nonneg _) (tenPow_pos_rat more) longer

section Sum

variable {a b : Decimal}

/-- Two decimals written with the places of the longer one add up to their sum. -/
private theorem toRat_common (a b : Decimal) :
    Numeral.toRat ⟨a.coefficient * tenPow (max a.places b.places - a.places) +
        b.coefficient * tenPow (max a.places b.places - b.places), max a.places b.places⟩ =
      a.toRat + b.toRat := by
  rw [Numeral.toRat_add, ← a.toRat_pad (Nat.le_max_left a.places b.places),
    ← b.toRat_pad (Nat.le_max_right a.places b.places)]

/-- A sum stands for the exact one. -/
theorem add?_rounds {sum : Decimal} (run : a.add? b = some sum) : sum.Rounds (a.toRat + b.toRat) := by
  unfold add? at run
  split at run
  · next null =>
    obtain rfl := Option.some.inj run
    rw [toRat_eq_zero_of_isZero null, zero_add]
    exact .refl _
  split at run
  · next null =>
    obtain rfl := Option.some.inj run
    rw [toRat_eq_zero_of_isZero null, add_zero]
    exact .refl _
  rw [← toRat_common a b]
  exact fit_rounds (Nat.max_le.mpr ⟨a.places_le, b.places_le⟩) run

/-- No decimal exceeds the limit. -/
theorem abs_toRat_le (d : Decimal) : |d.toRat| ≤ limit := by
  have bound := d.abs_toRat_mul_places
  have unit : (1 : ℚ) ≤ tenPow d.places := by exact_mod_cast tenPow_pos d.places
  calc
    |d.toRat| ≤ |d.toRat| * tenPow d.places := le_mul_of_one_le_right (abs_nonneg _) unit
    _ ≤ limit := bound

/-- A sum is refused exactly if it exceeds the limit by half a unit or more. -/
theorem add?_eq_none_iff : a.add? b = none ↔ (limit : ℚ) + 1 / 2 ≤ |a.toRat + b.toRat| := by
  unfold add?
  split
  · next null =>
    have small := b.abs_toRat_le
    rw [toRat_eq_zero_of_isZero null, zero_add]
    simp only [reduceCtorEq, false_iff, not_le]
    linarith
  split
  · next null =>
    have small := a.abs_toRat_le
    rw [toRat_eq_zero_of_isZero null, add_zero]
    simp only [reduceCtorEq, false_iff, not_le]
    linarith
  · rw [fit_eq_none_iff (Nat.max_le.mpr ⟨a.places_le, b.places_le⟩), toRat_common]

end Sum

theorem toRat_hundredfold (n : Numeral) :
    Numeral.toRat ⟨n.coefficient * 100, n.places⟩ = n.toRat * 100 := by
  simp only [Numeral.toRat]
  push_cast
  ring

/-- A percentage is refused exactly if it exceeds the limit by half a unit or more. -/
theorem timesHundred?_eq_none_iff {d : Decimal} :
    d.timesHundred? = none ↔ (limit : ℚ) + 1 / 2 ≤ |d.toRat * 100| := by
  unfold timesHundred?
  split
  · next null =>
    have positive : (0 : ℚ) < limit + 1 / 2 := by positivity
    rw [toRat_eq_zero_of_isZero null, zero_mul, abs_zero]
    simp only [reduceCtorEq, false_iff, not_le, positive]
  · rw [fit_eq_none_iff d.places_le, toRat_hundredfold]

theorem toRat_ofInt {n : Int} (range : n.natAbs ≤ limit) : (ofInt n).toRat = n := by
  simp [ofInt, ofParts?, range, Numeral.toRat, tenPow]

/-- The exact sum of amounts. -/
def exactSum (amounts : List Decimal) : ℚ := (amounts.map fun amount => amount.toRat).sum

@[simp] theorem exactSum_nil : exactSum [] = 0 := rfl

@[simp] theorem exactSum_concat (amounts : List Decimal) (amount : Decimal) :
    exactSum (amounts ++ [amount]) = exactSum amounts + amount.toRat := by
  simp [exactSum]

/-- If amounts add up in range, all the sums on the way are decimals. -/
theorem InRange.exists_exactSum {places : Nat} {amounts : List Decimal} (range : InRange places amounts)
    {part : List Decimal} (start : part <+: amounts) : ∃ d : Decimal, d.toRat = exactSum part := by
  obtain ⟨total, _, value⟩ := (range.sublist start.sublist).total?_eq
  exact ⟨total, value⟩

/-- A sum of amounts that are added one after the other, each time rounded if need be. -/
inductive RoundedSum : List Decimal → Decimal → Prop
  | nil : RoundedSum [] zero
  | concat {amounts : List Decimal} {sum amount total : Decimal} (before : RoundedSum amounts sum)
      (rounds : total.Rounds (sum.toRat + amount.toRat)) : RoundedSum (amounts ++ [amount]) total

theorem roundedSum_of_total? {amounts : List Decimal} {total : Decimal}
    (run : total? amounts = some total) : RoundedSum amounts total := by
  induction amounts using List.reverseRecOn generalizing total with
  | nil =>
    obtain rfl := Option.some.inj run
    exact .nil
  | append_singleton amounts amount ih =>
    rw [total?_concat] at run
    obtain ⟨sum, before, added⟩ := Option.bind_eq_some_iff.mp run
    exact .concat (ih before) (add?_rounds added)

namespace RoundedSum

variable {amounts : List Decimal} {total : Decimal}

/-- Every amount brings an error of at most one half. -/
theorem near (sum : RoundedSum amounts total) : |total.toRat - exactSum amounts| ≤ amounts.length / 2 := by
  induction sum with
  | nil => simp
  | @concat amounts sum amount total before rounds ih =>
    have last : |total.toRat - (sum.toRat + amount.toRat)| ≤ 1 / 2 := by
      have unit : (1 : ℚ) ≤ tenPow total.places := by exact_mod_cast tenPow_pos total.places
      exact (le_mul_of_one_le_right (abs_nonneg _) unit).trans rounds.near
    have parts : total.toRat - (exactSum amounts + amount.toRat) =
        total.toRat - (sum.toRat + amount.toRat) + (sum.toRat - exactSum amounts) := by ring
    rw [exactSum_concat, parts, List.length_append, List.length_singleton]
    push_cast
    have triangle := abs_add_le (total.toRat - (sum.toRat + amount.toRat)) (sum.toRat - exactSum amounts)
    linarith

/-- A sum is exact if all the sums on the way to it are decimals. -/
theorem exact (sum : RoundedSum amounts total)
    (decimals : ∀ part, part <+: amounts → ∃ d : Decimal, d.toRat = exactSum part) :
    total.toRat = exactSum amounts := by
  induction sum with
  | nil => exact toRat_zero
  | @concat amounts sum amount total before rounds ih =>
    have known : sum.toRat = exactSum amounts :=
      ih fun part start => decimals part (start.trans (List.prefix_append amounts [amount]))
    rw [known, ← exactSum_concat] at rounds
    obtain ⟨d, same⟩ := decimals _ List.prefix_rfl
    exact rounds.exact same

end RoundedSum

end Decimal

end PagedReport
