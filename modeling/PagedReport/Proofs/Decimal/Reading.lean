import PagedReport.Decimal.Reader
import PagedReport.Proofs.Decimal.Rounding

/-! # Decimals that are read

A numeral may have more decimals than a decimal has room for. Reading it keeps those that fit and
rounds half away from zero, so a numeral that is a decimal keeps every digit and any other loses some
without notice; only a whole part that does not fit is refused. Moving the point by an exponent loses
decimals in the same way, and a number that grows out of range is refused.
-/

namespace PagedReport

/-- Half way between two whole numbers the greater one is taken. -/
theorem roundQuotient_away (n : Nat) {d : Nat} (pos : 0 < d) :
    2 * n < 2 * (roundQuotient .awayFromZero n d * d) + d := by
  have parts := Nat.div_add_mod' n d
  have rest := Nat.mod_lt n pos
  have next : (n / d + 1) * d = n / d * d + d := Nat.succ_mul ..
  simp only [roundQuotient]
  split
  · omega
  · split <;> omega

/-- Half way between two integers the one further from zero is taken. -/
theorem roundSigned_away {n : Int} {d : Nat} (pos : 0 < d)
    (half : 2 * (roundSigned .awayFromZero n d * d - n).natAbs = d) :
    n.natAbs ≤ (roundSigned .awayFromZero n d * d).natAbs := by
  have magnitude := natAbs_roundSigned .awayFromZero n pos
  have below := roundQuotient_away n.natAbs pos
  have nonzero : n ≠ 0 := by
    rintro rfl
    simp [roundSigned] at half
    omega
  rw [distance_roundSigned, Int.natAbs_sign_of_ne_zero nonzero, one_mul] at half
  rw [Int.natAbs_mul, magnitude, Int.natAbs_natCast]
  omega

namespace Decimal

/-- A decimal that stands for a number: it is rounded half away from zero, and loses no decimal that
there was room for. -/
structure RoundsAway (d : Decimal) (x : ℚ) : Prop where
  near : |d.toRat - x| * tenPow d.places ≤ 1 / 2
  away : |d.toRat - x| * tenPow d.places = 1 / 2 → |x| ≤ |d.toRat|
  full : d.toRat ≠ x →
    d.places = maxPlaces ∨ (limit : ℚ) + 1 / 2 ≤ |x| * tenPow (d.places + 1)

namespace RoundsAway

theorem of_eq {d : Decimal} {x : ℚ} (same : d.toRat = x) : d.RoundsAway x where
  near := by simp [same]
  away := by simp [same]
  full differ := absurd same differ

/-- A number that is a decimal is not rounded. -/
theorem exact {d e : Decimal} {x : ℚ} (rounds : d.RoundsAway x) (same : e.toRat = x) :
    d.toRat = x := by
  by_contra differ
  refine differ (toRat_eq_of_near rounds.near ?_ same)
  rcases rounds.full differ with all | full
  · exact all ▸ e.places_le
  · exact places_le_of_full full same

/-- A decimal is judged by its coefficient, in units of the last place of the number. -/
theorem of_natAbs {d : Decimal} {n : Int} {places dropped : Nat} (parts : d.places + dropped = places)
    (near : 2 * (d.coefficient * tenPow dropped - n).natAbs ≤ tenPow dropped)
    (away : 2 * (d.coefficient * tenPow dropped - n).natAbs = tenPow dropped →
      n.natAbs ≤ (d.coefficient * tenPow dropped).natAbs)
    (full : dropped ≠ 0 →
      d.places = maxPlaces ∨ (2 * limit + 1) * tenPow dropped ≤ 20 * n.natAbs) :
    d.RoundsAway (Numeral.toRat ⟨n, places⟩) := by
  have unit := tenPow_pos_rat dropped
  have distance := distance_mul_places n parts
  constructor
  · rw [distance, div_le_iff₀ unit]
    have cast : (2 * (d.coefficient * tenPow dropped - n).natAbs : ℚ) ≤ tenPow dropped := by
      exact_mod_cast near
    linarith
  · intro half
    rw [distance, div_eq_iff unit.ne'] at half
    have cast : (2 * (d.coefficient * tenPow dropped - n).natAbs : ℚ) = tenPow dropped := by linarith
    have larger := away (by exact_mod_cast cast)
    have padded : d.toRat = Numeral.toRat ⟨d.coefficient * tenPow dropped, places⟩ := by
      have longer : d.places ≤ places := by omega
      rw [d.toRat_pad longer, show places - d.places = dropped by omega]
    rw [padded]
    simp only [Numeral.toRat, abs_div]
    apply div_le_div_of_nonneg_right _ (abs_nonneg _)
    rw [← Int.cast_abs, ← Int.cast_abs, Int.abs_eq_natAbs, Int.abs_eq_natAbs]
    exact_mod_cast larger
  · intro differ
    have some : dropped ≠ 0 := by
      rintro rfl
      apply differ
      have same : d.coefficient = n := by
        have zero : tenPow 0 = 1 := rfl
        rw [zero] at near
        omega
      rw [← parts, ← same]
      rfl
    obtain ⟨fewer, rfl⟩ := Nat.exists_eq_succ_of_ne_zero some
    refine (full some).imp_right fun large => ?_
    have scaled := toRat_mul_tenPow_of_add n (show d.places + 1 + fewer = places by omega)
    rw [← abs_of_pos (tenPow_pos_rat (d.places + 1)), ← abs_mul, scaled, abs_div,
      abs_of_pos (tenPow_pos_rat fewer), le_div_iff₀ (tenPow_pos_rat fewer), ← Int.cast_abs,
      Int.abs_eq_natAbs, Int.cast_natCast]
    have step : tenPow (fewer + 1) = tenPow fewer * 10 := tenPow_add fewer 1
    rw [Nat.succ_eq_add_one, step] at large
    have cast : ((2 * limit + 1) * (tenPow fewer * 10) : ℚ) ≤ 20 * n.natAbs := by exact_mod_cast large
    linarith

end RoundsAway

section Digits

/-- Digits after a number write that number, moved to the left, and their own. -/
theorem foldl_digits (start : Nat) (digits : List Nat) :
    digits.foldl (fun n d => n * 10 + d) start = start * tenPow digits.length + ofDigits digits := by
  induction digits generalizing start with
  | nil => simp [ofDigits, tenPow]
  | cons d rest ih =>
    have step : tenPow (rest.length + 1) = tenPow rest.length * 10 := tenPow_add rest.length 1
    rw [ofDigits, List.foldl_cons, List.foldl_cons, ih, ih (0 * 10 + d), List.length_cons, step]
    ring

theorem ofDigits_append (whole fraction : List Nat) :
    ofDigits (whole ++ fraction) = ofDigits whole * tenPow fraction.length + ofDigits fraction := by
  rw [ofDigits, List.foldl_append, foldl_digits]
  rfl

theorem ofDigits_cons (d : Nat) (rest : List Nat) :
    ofDigits (d :: rest) = d * tenPow rest.length + ofDigits rest := by
  have single : ofDigits [d] = d := by simp [ofDigits]
  rw [← List.singleton_append, ofDigits_append, single]

theorem ofDigits_lt {digits : List Nat} (small : ∀ d ∈ digits, d < 10) :
    ofDigits digits < tenPow digits.length := by
  induction digits with
  | nil => decide
  | cons d rest ih =>
    have step : tenPow (rest.length + 1) = tenPow rest.length * 10 := tenPow_add rest.length 1
    have tail := ih fun other member => small other (List.mem_cons_of_mem _ member)
    have head : d * tenPow rest.length ≤ 9 * tenPow rest.length :=
      Nat.mul_le_mul_right _ (Nat.le_of_lt_succ (small d List.mem_cons_self))
    rw [ofDigits_cons, List.length_cons, step]
    omega

end Digits

/-- A coefficient and places that are left of a number when the last `dropped` of its decimals have
no room, rounded half up. -/
structure LeftOf (number dropped coefficient places : Nat) : Prop where
  coefficient_le : coefficient ≤ limit
  places_le : places ≤ maxPlaces
  below : 2 * number < 2 * (coefficient * tenPow dropped) + tenPow dropped
  above : 2 * (coefficient * tenPow dropped) ≤ 2 * number + tenPow dropped
  full : dropped ≠ 0 → places = maxPlaces ∨ (2 * limit + 1) * tenPow dropped ≤ 20 * number

section Fraction

variable {coefficient places d tail rest : Nat}

/-- There is no room for a digit after a coefficient. -/
def Full (coefficient places d : Nat) : Prop := places = maxPlaces ∨ limit < coefficient * 10 + d

private theorem Full.scaled (full : Full coefficient places d) :
    places = maxPlaces ∨ (2 * limit + 1) * tenPow (rest + 1) ≤
      20 * ((coefficient * 10 + d) * tenPow rest + tail) := by
  refine full.imp_right fun large => ?_
  have step : tenPow (rest + 1) = tenPow rest * 10 := tenPow_add rest 1
  have scaled : (limit + 1) * tenPow rest ≤ (coefficient * 10 + d) * tenPow rest :=
    Nat.mul_le_mul_right _ large
  have parts : (2 * limit + 1) * (tenPow rest * 10) + 10 * tenPow rest =
      20 * ((limit + 1) * tenPow rest) := by ring
  rw [step]
  omega

/-- A digit without room that is below five is dropped with all that follows. -/
private theorem leftOf_dropped (fits : coefficient ≤ limit) (short : places ≤ maxPlaces)
    (follows : tail < tenPow rest) (full : Full coefficient places d) (low : d < 5) :
    LeftOf ((coefficient * 10 + d) * tenPow rest + tail) (rest + 1) coefficient places := by
  have step : tenPow (rest + 1) = tenPow rest * 10 := tenPow_add rest 1
  have digit : d * tenPow rest ≤ 4 * tenPow rest := Nat.mul_le_mul_right _ (by omega)
  have parts : (coefficient * 10 + d) * tenPow rest =
      coefficient * (tenPow rest * 10) + d * tenPow rest := by ring
  refine ⟨fits, short, ?_, ?_, fun _ => full.scaled⟩
  · rw [step, parts]
    omega
  · rw [step, parts]
    omega

/-- A digit without room that is five or more adds one to the coefficient. -/
private theorem leftOf_raised (fits : coefficient + 1 ≤ limit) (short : places ≤ maxPlaces)
    (small : d < 10) (follows : tail < tenPow rest) (full : Full coefficient places d)
    (high : 5 ≤ d) :
    LeftOf ((coefficient * 10 + d) * tenPow rest + tail) (rest + 1) (coefficient + 1) places := by
  have step : tenPow (rest + 1) = tenPow rest * 10 := tenPow_add rest 1
  have least : 5 * tenPow rest ≤ d * tenPow rest := Nat.mul_le_mul_right _ high
  have greatest : d * tenPow rest ≤ 9 * tenPow rest := Nat.mul_le_mul_right _ (by omega)
  have parts : (coefficient * 10 + d) * tenPow rest =
      coefficient * (tenPow rest * 10) + d * tenPow rest := by ring
  have next : (coefficient + 1) * (tenPow rest * 10) =
      coefficient * (tenPow rest * 10) + tenPow rest * 10 := Nat.succ_mul ..
  refine ⟨fits, short, ?_, ?_, fun _ => full.scaled⟩
  · rw [step, parts, next]
    omega
  · rw [step, parts, next]
    omega

/-- A coefficient at the limit that one would be added to gives up its last decimal. -/
private theorem leftOf_shortened (short : places + 1 ≤ maxPlaces) (small : d < 10)
    (follows : tail < tenPow rest) (high : 5 ≤ d) :
    LeftOf ((limit * 10 + d) * tenPow rest + tail) (rest + 2) ((limit + 5) / 10) places := by
  have step : tenPow (rest + 2) = tenPow rest * 100 := tenPow_add rest 2
  have least : 5 * tenPow rest ≤ d * tenPow rest := Nat.mul_le_mul_right _ high
  have greatest : d * tenPow rest ≤ 9 * tenPow rest := Nat.mul_le_mul_right _ (by omega)
  have parts : (limit * 10 + d) * tenPow rest = 10 * (limit * tenPow rest) + d * tenPow rest := by ring
  have tenth : (limit + 5) / 10 * 10 = limit + 5 := by decide
  have kept : (limit + 5) / 10 * (tenPow rest * 100) =
      10 * (limit * tenPow rest) + 50 * tenPow rest := by
    calc
      (limit + 5) / 10 * (tenPow rest * 100) = (limit + 5) / 10 * 10 * (10 * tenPow rest) := by ring
      _ = 10 * (limit * tenPow rest) + 50 * tenPow rest := by rw [tenth]; ring
  have twice : (2 * limit + 1) * (tenPow rest * 100) =
      200 * (limit * tenPow rest) + 100 * tenPow rest := by ring
  refine ⟨by decide, by omega, ?_, ?_, fun _ => .inr ?_⟩
  · rw [step, parts, kept]
    omega
  · rw [step, parts, kept]
    omega
  · rw [step, parts, twice]
    omega

/-- What rounding up leaves. -/
private theorem exists_leftOf_roundUp (fits : coefficient ≤ limit) (short : places ≤ maxPlaces)
    (small : d < 10) (follows : tail < tenPow rest) (full : Full coefficient places d) (high : 5 ≤ d)
    {taken : Nat × Nat} (run : roundUp coefficient places = some taken) :
    ∃ dropped, taken.2 + dropped = places + (rest + 1) ∧
      LeftOf ((coefficient * 10 + d) * tenPow rest + tail) dropped taken.1 taken.2 := by
  by_cases room : coefficient + 1 ≤ limit
  · have same : taken = (coefficient + 1, places) := by
      cases places <;> simpa [roundUp, room, eq_comm] using run
    subst same
    exact ⟨rest + 1, rfl, leftOf_raised room short small follows full high⟩
  · obtain rfl : coefficient = limit := by omega
    cases places with
    | zero => simp [roundUp] at run
    | succ places =>
      have same : taken = ((limit + 5) / 10, places) := by simpa [roundUp, eq_comm] using run
      subst same
      exact ⟨rest + 2, by dsimp only; omega, leftOf_shortened short small follows high⟩

private theorem roundUp_eq_none_iff (fits : coefficient ≤ limit) :
    roundUp coefficient places = none ↔ places = 0 ∧ coefficient = limit := by
  cases places with
  | zero => simp [roundUp]; omega
  | succ places => simp [roundUp]; split <;> simp

/-- What taking up the digits of a fraction leaves. -/
theorem exists_leftOf_takeFraction {digits : List Nat} (small : ∀ d ∈ digits, d < 10)
    (fits : coefficient ≤ limit) (short : places ≤ maxPlaces) {taken : Nat × Nat}
    (run : takeFraction coefficient places (digits.map .digit) = some taken) :
    ∃ dropped, taken.2 + dropped = places + digits.length ∧
      LeftOf (coefficient * tenPow digits.length + ofDigits digits) dropped taken.1 taken.2 := by
  induction digits generalizing coefficient places with
  | nil =>
    have same : taken = (coefficient, places) := by simpa [takeFraction, eq_comm] using run
    subst same
    refine ⟨0, rfl, fits, short, ?_, ?_, fun some => absurd rfl some⟩
    · simp [ofDigits, tenPow]
    · simp [ofDigits, tenPow]
  | cons d rest ih =>
    have digit := small d List.mem_cons_self
    have others : ∀ other ∈ rest, other < 10 := fun other member =>
      small other (List.mem_cons_of_mem _ member)
    have follows := ofDigits_lt others
    have number : coefficient * tenPow (d :: rest).length + ofDigits (d :: rest) =
        (coefficient * 10 + d) * tenPow rest.length + ofDigits rest := by
      rw [ofDigits_cons, List.length_cons, show tenPow (rest.length + 1) = _ from tenPow_add rest.length 1,
        show tenPow 1 = 10 from rfl]
      ring
    rw [number, List.length_cons]
    rw [List.map_cons, takeFraction] at run
    split at run
    · next room =>
      obtain ⟨dropped, parts, left⟩ := ih others room.2 room.1 run
      exact ⟨dropped, by omega, left⟩
    · next none =>
      have full : Full coefficient places d := by
        rw [Full]
        omega
      split at run
      · next high => exact exists_leftOf_roundUp fits short digit follows full high run
      · next low =>
        have same : taken = (coefficient, places) := by simpa [eq_comm] using run
        subst same
        exact ⟨rest.length + 1, rfl, leftOf_dropped fits short follows full (by omega)⟩

/-- Only a coefficient at the limit without decimals cannot be rounded up. -/
theorem takeFraction_eq_none_iff {digits : List Nat} (fits : coefficient ≤ limit) :
    takeFraction coefficient places (digits.map .digit) = none ↔
      places = 0 ∧ coefficient = limit ∧ ∃ d ∈ digits.head?, 5 ≤ d := by
  induction digits generalizing coefficient places with
  | nil => simp [takeFraction]
  | cons d rest ih =>
    rw [List.map_cons, takeFraction]
    split
    · next room =>
      rw [ih room.2]
      simp
      omega
    · split
      · next high => simp [roundUp_eq_none_iff fits, high]
      · next low => simp [low]

end Fraction

/-- Half a unit is reached by digits of which the first is at least five. -/
private theorem half_le_ofDigits_iff {digits : List Nat} (small : ∀ d ∈ digits, d < 10) :
    tenPow digits.length ≤ 2 * ofDigits digits ↔ ∃ d ∈ digits.head?, 5 ≤ d := by
  cases digits with
  | nil => simp [ofDigits, tenPow]
  | cons d rest =>
    have step : tenPow (rest.length + 1) = tenPow rest.length * 10 := tenPow_add rest.length 1
    have follows := ofDigits_lt fun other member => small other (List.mem_cons_of_mem _ member)
    rw [ofDigits_cons, List.length_cons, step]
    by_cases high : 5 ≤ d
    · have least : 5 * tenPow rest.length ≤ d * tenPow rest.length := Nat.mul_le_mul_right _ high
      simp only [List.head?_cons, Option.mem_def, Option.some.injEq, exists_eq_left', high, iff_true]
      omega
    · have greatest : d * tenPow rest.length ≤ 4 * tenPow rest.length :=
        Nat.mul_le_mul_right _ (by omega)
      simp only [List.head?_cons, Option.mem_def, Option.some.injEq, exists_eq_left', high, iff_false]
      omega

/-- A magnitude with a sign. -/
def signed (negative : Bool) (n : Nat) : Int := if negative then -(n : Int) else n

@[simp] theorem natAbs_signed (negative : Bool) (n : Nat) : (signed negative n).natAbs = n := by
  cases negative <;> simp [signed]

theorem signed_mul (negative : Bool) (m n : Nat) : signed negative m * n = signed negative (m * n) := by
  cases negative <;> simp [signed]

theorem natAbs_signed_sub (negative : Bool) (m n : Nat) :
    (signed negative m - signed negative n).natAbs = ((m : Int) - n).natAbs := by
  cases negative with
  | false => rfl
  | true =>
    simp only [signed, ↓reduceIte]
    omega

/-- The number that digits before and after a decimal point write. -/
def written (negative : Bool) (whole fraction : List Nat) : Numeral :=
  ⟨signed negative (ofDigits (whole ++ fraction)), fraction.length⟩

section Plain

variable {cs body : List Char} {negative : Bool} {whole fraction : List Nat}

theorem ofPlainChars?_eq (sign : splitSign cs = (negative, body))
    (split : splitPoint false false body = some (whole, fraction.map .digit)) :
    ofPlainChars? cs = if limit < ofDigits whole then none
      else (takeFraction (ofDigits whole) 0 (fraction.map .digit)).bind fun taken =>
        ofParts? (signed negative taken.1) taken.2 := by
  rw [ofPlainChars?, sign]
  dsimp only
  rw [split]
  rfl

/-- A numeral that is read stands for the number that it writes. -/
theorem roundsAway_of_ofPlainChars? (sign : splitSign cs = (negative, body))
    (split : splitPoint false false body = some (whole, fraction.map .digit))
    (small : ∀ d ∈ fraction, d < 10) {d : Decimal} (run : ofPlainChars? cs = some d) :
    d.RoundsAway (written negative whole fraction).toRat := by
  rw [ofPlainChars?_eq sign split] at run
  split at run
  · cases run
  · next fits =>
    obtain ⟨taken, kept, parts⟩ := Option.bind_eq_some_iff.mp run
    obtain ⟨dropped, places, left⟩ :=
      exists_leftOf_takeFraction small (Nat.le_of_not_lt fits) (Nat.zero_le _) kept
    have same := toNumeral_of_ofParts? parts
    rw [Nat.zero_add] at places
    rw [← ofDigits_append] at left
    have below := left.below
    have above := left.above
    have places' : d.places + dropped = fraction.length := by rw [same, places]
    refine RoundsAway.of_natAbs places' ?_ ?_ ?_
    all_goals rw [same]
    · rw [signed_mul, natAbs_signed_sub]
      omega
    · rw [signed_mul, natAbs_signed_sub, natAbs_signed, natAbs_signed]
      omega
    · rw [natAbs_signed]
      exact left.full

/-- A numeral is refused exactly if it exceeds the limit by half a unit or more. -/
theorem ofPlainChars?_eq_none_iff (sign : splitSign cs = (negative, body))
    (split : splitPoint false false body = some (whole, fraction.map .digit))
    (small : ∀ d ∈ fraction, d < 10) :
    ofPlainChars? cs = none ↔ (limit : ℚ) + 1 / 2 ≤ |(written negative whole fraction).toRat| := by
  have unit := tenPow_pos_rat fraction.length
  have magnitude : (limit : ℚ) + 1 / 2 ≤ |(written negative whole fraction).toRat| ↔
      (2 * limit + 1) * tenPow fraction.length ≤
        2 * (ofDigits whole * tenPow fraction.length + ofDigits fraction) := by
    rw [written, Numeral.toRat, abs_div, abs_of_pos unit, le_div_iff₀ unit, ← Int.cast_abs,
      Int.abs_eq_natAbs, natAbs_signed, Int.cast_natCast, ofDigits_append]
    constructor
    · intro large
      have cast : ((2 * limit + 1) * tenPow fraction.length : ℚ) ≤
          2 * ((ofDigits whole * tenPow fraction.length + ofDigits fraction : Nat) : ℚ) := by linarith
      exact_mod_cast cast
    · intro large
      have cast : ((2 * limit + 1) * tenPow fraction.length : ℚ) ≤
          2 * ((ofDigits whole * tenPow fraction.length + ofDigits fraction : Nat) : ℚ) := by
        exact_mod_cast large
      linarith
  have follows := ofDigits_lt small
  have twice : (2 * limit + 1) * tenPow fraction.length =
      2 * (limit * tenPow fraction.length) + tenPow fraction.length := by ring
  rw [ofPlainChars?_eq sign split, magnitude, twice]
  split
  · next large =>
    have scaled : (limit + 1) * tenPow fraction.length ≤ ofDigits whole * tenPow fraction.length :=
      Nat.mul_le_mul_right _ large
    rw [Nat.succ_mul] at scaled
    simp only [true_iff]
    omega
  · next fits =>
    have kept : (takeFraction (ofDigits whole) 0 (fraction.map .digit)).bind (fun taken =>
        ofParts? (signed negative taken.1) taken.2) = none ↔
          takeFraction (ofDigits whole) 0 (fraction.map .digit) = none := by
      cases run : takeFraction (ofDigits whole) 0 (fraction.map .digit) with
      | none => simp
      | some taken =>
        obtain ⟨_, _, left⟩ :=
          exists_leftOf_takeFraction small (Nat.le_of_not_lt fits) (Nat.zero_le _) run
        have large : ¬ limit < taken.1 := Nat.not_lt.mpr left.coefficient_le
        simp [ofParts?_eq_none_iff left.places_le, large]
    rw [kept, takeFraction_eq_none_iff (Nat.le_of_not_lt fits), ← half_le_ofDigits_iff small]
    by_cases top : ofDigits whole = limit
    · rw [top]
      simp only [true_and]
      omega
    · have scaled : (ofDigits whole + 1) * tenPow fraction.length ≤ limit * tenPow fraction.length :=
        Nat.mul_le_mul_right _ (by omega)
      rw [Nat.succ_mul] at scaled
      simp only [top, false_and, and_false, false_iff]
      omega

end Plain

section Shift

variable {d r : Decimal} {k : Nat}

/-- A coefficient that fits still fits after it has been rounded. -/
theorem natAbs_roundSigned_le (d : Decimal) (dropped : Nat) :
    (roundSigned .awayFromZero d.coefficient (tenPow dropped)).natAbs ≤ limit := by
  have unit := tenPow_pos dropped
  have fits := d.coefficient_le
  obtain ⟨_, above⟩ := roundQuotient_near .awayFromZero d.coefficient.natAbs unit
  rw [natAbs_roundSigned _ _ unit]
  by_contra large
  have scaled : (limit + 1) * tenPow dropped ≤
      roundQuotient .awayFromZero d.coefficient.natAbs (tenPow dropped) * tenPow dropped :=
    Nat.mul_le_mul_right _ (by omega)
  have least : limit * 1 ≤ limit * tenPow dropped := Nat.mul_le_mul_left _ unit
  rw [Nat.succ_mul] at scaled
  omega

/-- A decimal with its point moved to the left has a place for every decimal, or is rounded. -/
theorem shiftDown?_eq_some (run : d.shiftDown? k = some r) : r.RoundsAway (d.toRat / tenPow k) := by
  have moved : d.toRat / tenPow k = Numeral.toRat ⟨d.coefficient, d.places + k⟩ := by
    rw [Numeral.toRat, Numeral.toRat, tenPow_add, Nat.cast_mul, div_div]
  rw [moved]
  unfold shiftDown? at run
  split at run
  · cases run
  split at run
  · exact .of_eq (congrArg Numeral.toRat (toNumeral_of_ofParts? run))
  · next short long =>
    have fewer : maxPlaces - k < d.places := by omega
    have same := toNumeral_of_ofParts? run
    rw [fixedPlaces, if_pos fewer] at same
    let dropped := d.places - (maxPlaces - k)
    have coefficient : r.coefficient = roundSigned .awayFromZero d.coefficient (tenPow dropped) := by
      rw [same]
    have places : r.places = maxPlaces := by rw [same]
    have parts : r.places + dropped = d.places + k := by omega
    refine RoundsAway.of_natAbs parts ?_ ?_ fun _ => .inl places
    · rw [coefficient]
      exact roundSigned_near _ _ (tenPow_pos dropped)
    · rw [coefficient]
      exact roundSigned_away (tenPow_pos dropped)

theorem shiftDown?_eq_none_iff : d.shiftDown? k = none ↔ maxPlaces < k := by
  unfold shiftDown?
  split
  · next long => simp [long]
  split
  · next short room =>
    have large : ¬ limit < d.coefficient.natAbs := Nat.not_lt.mpr d.coefficient_le
    simp [ofParts?_eq_none_iff room, short, large]
  · next short full =>
    have fewer : maxPlaces - k < d.places := by omega
    have large := Nat.not_lt.mpr (d.natAbs_roundSigned_le (d.places - (maxPlaces - k)))
    rw [fixedPlaces, if_pos fewer, ofParts?_eq_none_iff (Nat.le_refl maxPlaces)]
    simp only [large, short]

/-- A decimal with its point moved beyond its last decimal is a whole number. -/
theorem toRat_mul_of_places_le (short : d.places ≤ k) :
    d.toRat * tenPow k = ((d.coefficient * tenPow (k - d.places) : Int) : ℚ) := by
  have power : (tenPow k : ℚ) = tenPow d.places * tenPow (k - d.places) := by
    rw [← Nat.cast_mul, ← tenPow_add, Nat.add_sub_cancel' short]
  rw [power, ← mul_assoc, toRat_mul_places]
  push_cast
  rfl

/-- A decimal with its point moved to the right is exact. -/
theorem toRat_of_shiftUp? (run : d.shiftUp? k = some r) : r.toRat = d.toRat * tenPow k := by
  have unit := tenPow_ne_zero d.places
  unfold shiftUp? at run
  split at run
  · next room =>
    have moved := toRat_mul_tenPow_of_add d.coefficient (show k + (d.places - k) = d.places by omega)
    rw [toNumeral_of_ofParts? run]
    exact moved.symm
  split at run
  · cases run
  · next more _ =>
    rw [toNumeral_of_ofParts? run, toRat_mul_of_places_le (by omega)]
    simp [Numeral.toRat, tenPow]

/-- Moving the point to the right fails beyond the greatest number of places or out of range. -/
theorem shiftUp?_eq_none_iff :
    d.shiftUp? k = none ↔ maxPlaces < k ∨ (limit : ℚ) < |d.toRat * tenPow k| := by
  cases run : d.shiftUp? k with
  | some r =>
    have value := toRat_of_shiftUp? run
    have small := r.abs_toRat_le
    rw [value] at small
    have short : ¬ maxPlaces < k := by
      intro long
      have fewer : ¬ k ≤ d.places := fun le => by have := d.places_le; omega
      simp [shiftUp?, fewer, long] at run
    simp only [reduceCtorEq, short, false_or, false_iff, not_lt]
    exact small
  | none =>
    simp only [true_iff]
    by_cases long : maxPlaces < k
    · exact .inl long
    · right
      unfold shiftUp? at run
      split at run
      · next room =>
        have fits := (ofParts?_eq_none_iff (by have := d.places_le; omega)).mp run
        exact absurd d.coefficient_le (Nat.not_le.mpr fits)
      · next more =>
        have large := (ofParts?_eq_none_iff (Nat.zero_le _)).mp run
        rw [toRat_mul_of_places_le (by omega), ← Int.cast_abs, Int.abs_eq_natAbs, Int.cast_natCast]
        exact_mod_cast large

end Shift

end Decimal

end PagedReport
