import Mathlib.Algebra.Order.Field.Power
import PagedReport.Json.Literal
import PagedReport.Proofs.Decimal.Reading
import PagedReport.Proofs.Json.Spelling
import PagedReport.ResultSet.Json

/-! # Numbers in cells

A number in a cell of a JSON result set is read from its digits, never through floating point. It is
exact as long as its significand and its value are decimals and its exponent is at most the number of
places of a decimal. A significand with more digits is rounded half away from zero before the point
is moved, and a number that is then out of range, or has a greater exponent, becomes text.
-/

namespace PagedReport

open Text (Symbol)

namespace Text

/-- Characters without blanks have none to strip. -/
theorem strip_of_forall {cs : List Char} (solid : ∀ c ∈ cs, isBlank c = false) : strip cs = cs := by
  have keep {ds : List Char} (all : ∀ c ∈ ds, isBlank c = false) : ds.dropWhile isBlank = ds := by
    cases ds with
    | nil => rfl
    | cons c rest => simp [all c List.mem_cons_self]
  rw [strip, stripWhere, keep solid, keep (fun c member => solid c (List.mem_reverse.mp member)),
    List.reverse_reverse]

end Text

private theorem toNat_of_isDigit {c : Char} (digit : c.isDigit = true) : 48 ≤ c.toNat ∧ c.toNat ≤ 57 := by
  simp only [Char.isDigit, Bool.and_eq_true, decide_eq_true_eq, ge_iff_le,
    UInt32.le_iff_toNat_le] at digit
  exact digit

private theorem isBlank_of_isDigit {c : Char} (digit : c.isDigit = true) : Text.isBlank c = false := by
  obtain ⟨least, greatest⟩ := toNat_of_isDigit digit
  simp only [Text.isBlank, Bool.or_eq_false_iff, Bool.and_eq_false_iff, decide_eq_false_iff_not,
    beq_eq_false_iff_ne]
  omega

namespace Decimal

theorem digitValue_lt {c : Char} (digit : c.isDigit = true) : digitValue c < 10 := by
  obtain ⟨least, greatest⟩ := toNat_of_isDigit digit
  simp [digitValue]
  omega

/-- The digits after a decimal point are marks. -/
private theorem splitPoint_fraction {digits : List Char} (all : ∀ c ∈ digits, c.isDigit = true) :
    splitPoint true true digits = some ([], (digits.map digitValue).map .digit) := by
  induction digits with
  | nil => rfl
  | cons c rest ih =>
    have others := ih fun other member => all other (List.mem_cons_of_mem _ member)
    simp [splitPoint, all c List.mem_cons_self, others]

/-- The digits before a decimal point are the whole part. The text after them is only a fraction once
a digit has been met, so the induction is over both values of `met`. -/
private theorem splitPoint_whole {met : Bool} {digits : List Char}
    (all : ∀ c ∈ digits, c.isDigit = true) (some : met = true ∨ digits ≠ []) {rest : List Char}
    {fraction : List FractionMark} (after : splitPoint true false rest = .some ([], fraction)) :
    splitPoint met false (digits ++ rest) = .some (digits.map digitValue, fraction) := by
  induction digits generalizing met with
  | nil =>
    obtain rfl := some.resolve_right (absurd rfl)
    exact after
  | cons c others ih =>
    have found : splitPoint true false (others ++ rest) =
        .some (others.map digitValue, fraction) :=
      ih (fun other member => all other (List.mem_cons_of_mem _ member)) (.inl rfl)
    simp [splitPoint, all c List.mem_cons_self, found]

/-- A character that is neither a digit nor a point nor an underscore is no part of a plain numeral. -/
private theorem splitPoint_eq_none {digit point : Bool} {cs : List Char} {c : Char} (member : c ∈ cs)
    (other : c.isDigit = false) (noPoint : c ≠ '.') (noLine : c ≠ '_') :
    splitPoint digit point cs = none := by
  induction cs generalizing digit point with
  | nil => cases member
  | cons head rest ih =>
    rcases List.mem_cons.mp member with rfl | member
    · simp [splitPoint, other, noPoint, noLine]
    · simp [splitPoint, ih member]

/-- Digits after an optional plus sign are read as an exponent. -/
private theorem exponentOfChars?_digits {digits : List Char} (some : Json.SomeDigits digits) :
    exponentOfChars? digits = .some (ofDigits (digits.map digitValue)) ∧
      exponentOfChars? ('+' :: digits) = .some (ofDigits (digits.map digitValue)) := by
  have all : digits.all Char.isDigit = true := List.all_eq_true.mpr some.all
  refine ⟨?_, by simp [exponentOfChars?, some.nonempty, all]⟩
  unfold exponentOfChars?
  split
  · next rest =>
    have plus := some.all '+' List.mem_cons_self
    cases plus
  · simp [some.nonempty, all]

/-- An exponent begins at the first of its marks. -/
private theorem splitExponent_append {base exponent : List Char} {mark : Char}
    (marked : Json.Literal.IsMark mark) (unmarked : ∀ c ∈ base, ¬ Json.Literal.IsMark c) :
    splitExponent (base ++ mark :: exponent) = some (base, exponent) := by
  have before : ∀ c ∈ base, (c ≠ 'e' && c ≠ 'E') = true := by
    intro c member
    simpa [Json.Literal.IsMark] using unmarked c member
  rw [splitExponent, List.span_eq_takeWhile_dropWhile, List.takeWhile_append_of_pos before,
    List.dropWhile_append_of_pos before]
  rcases marked with rfl | rfl <;> simp

private theorem splitExponent_eq_none {base : List Char}
    (unmarked : ∀ c ∈ base, ¬ Json.Literal.IsMark c) : splitExponent base = none := by
  have before : ∀ c ∈ base, (c ≠ 'e' && c ≠ 'E') = true := by
    intro c member
    simpa [Json.Literal.IsMark] using unmarked c member
  have all : base.dropWhile (fun c => c ≠ 'e' && c ≠ 'E') = [] := by
    rw [← List.append_nil base, List.dropWhile_append_of_pos before, List.dropWhile_nil]
  rw [splitExponent, List.span_eq_takeWhile_dropWhile, all]

end Decimal

namespace Json.Literal

/-- The number that a literal writes before its exponent. -/
def significand (l : Literal) : ℚ :=
  (Decimal.written l.negative (l.whole.map Decimal.digitValue)
    ((l.fraction.getD []).map Decimal.digitValue)).toRat

/-- The exponent of a literal, zero if it has none. -/
def power (l : Literal) : ℤ :=
  match l.exponent with
  | none => 0
  | some (negative, digits) =>
    Decimal.signed negative (Decimal.ofDigits (digits.map Decimal.digitValue))

/-- The number that a literal writes. -/
def toRat (l : Literal) : ℚ := l.significand * 10 ^ l.power

/-- A decimal with its point moved by the exponent of a literal. -/
def shift? (l : Literal) (d : Decimal) : Option Decimal :=
  match l.exponent with
  | none => some d
  | some (true, digits) => d.shiftDown? (Decimal.ofDigits (digits.map Decimal.digitValue))
  | some (false, digits) => d.shiftUp? (Decimal.ofDigits (digits.map Decimal.digitValue))

namespace Spells

variable {l : Literal} {cs : List Char}

/-- The characters before the exponent are digits, a minus sign or a point. -/
private theorem of_mem_baseChars (spells : l.Spells cs) {c : Char} (member : c ∈ l.baseChars) :
    c.isDigit = true ∨ c = '-' ∨ c = '.' := by
  rcases List.mem_append.mp member with front | behind
  · rcases List.mem_append.mp front with sign | digit
    · cases negative : l.negative with
      | false => simp [signChars, negative] at sign
      | true => simp_all [signChars]
    · exact .inl (spells.whole.all c digit)
  · cases fraction : l.fraction with
    | none => simp [fractionChars, fraction] at behind
    | some digits =>
      rw [fraction] at behind
      rcases List.mem_cons.mp behind with rfl | digit
      · exact .inr (.inr rfl)
      · exact .inl ((spells.fraction digits fraction).all c digit)

private theorem not_isMark_of_mem (spells : l.Spells cs) : ∀ c ∈ l.baseChars, ¬ IsMark c := by
  rintro c member (rfl | rfl)
  · exact absurd (spells.of_mem_baseChars member) (by decide)
  · exact absurd (spells.of_mem_baseChars member) (by decide)

theorem splitSign_baseChars (spells : l.Spells cs) (tail : List Char) :
    Decimal.splitSign (l.baseChars ++ tail) =
      (l.negative, l.whole ++ fractionChars l.fraction ++ tail) := by
  obtain ⟨c, rest, same⟩ := List.exists_cons_of_ne_nil spells.whole.nonempty
  have digit : c.isDigit = true := spells.whole.all c (same ▸ List.mem_cons_self)
  cases negative : l.negative with
  | true => simp [baseChars, signChars, negative, Decimal.splitSign]
  | false =>
    simp only [baseChars, signChars, negative, same, Bool.false_eq_true, ↓reduceIte, List.nil_append,
      List.cons_append]
    unfold Decimal.splitSign
    split
    · next found => cases found; cases digit
    · next found => cases found; cases digit
    · rfl

theorem splitPoint_baseChars (spells : l.Spells cs) :
    Decimal.splitPoint false false (l.whole ++ fractionChars l.fraction) =
      some (l.whole.map Decimal.digitValue,
        ((l.fraction.getD []).map Decimal.digitValue).map .digit) := by
  refine Decimal.splitPoint_whole spells.whole.all (.inr spells.whole.nonempty) ?_
  cases fraction : l.fraction with
  | none => rfl
  | some digits =>
    have marks := Decimal.splitPoint_fraction (spells.fraction digits fraction).all
    simp [fractionChars, Decimal.splitPoint, marks]

private theorem small_fraction (spells : l.Spells cs) :
    ∀ d ∈ (l.fraction.getD []).map Decimal.digitValue, d < 10 := by
  intro d member
  obtain ⟨c, known, rfl⟩ := List.mem_map.mp member
  cases fraction : l.fraction with
  | none => simp [fraction] at known
  | some digits =>
    rw [fraction] at known
    exact Decimal.digitValue_lt ((spells.fraction digits fraction).all c known)

/-- The significand is read with all its digits, or rounded. -/
theorem roundsAway_significand (spells : l.Spells cs) {d : Decimal}
    (run : Decimal.ofPlainChars? l.baseChars = some d) : d.RoundsAway l.significand := by
  have sign := spells.splitSign_baseChars []
  rw [List.append_nil, List.append_nil] at sign
  exact Decimal.roundsAway_of_ofPlainChars? sign spells.splitPoint_baseChars spells.small_fraction run

/-- The significand is refused if it is out of range. -/
theorem ofPlainChars?_eq_none_iff (spells : l.Spells cs) :
    Decimal.ofPlainChars? l.baseChars = none ↔ (Decimal.limit : ℚ) + 1 / 2 ≤ |l.significand| := by
  have sign := spells.splitSign_baseChars []
  rw [List.append_nil, List.append_nil] at sign
  exact Decimal.ofPlainChars?_eq_none_iff sign spells.splitPoint_baseChars spells.small_fraction

/-- There are no blanks in a number. -/
private theorem solid (spells : l.Spells cs) : ∀ c ∈ cs, Text.isBlank c = false := by
  obtain ⟨exponent, exponentSpells, rfl⟩ := spells.parts
  have digits {ds : List Char} (some : SomeDigits ds) : ∀ c ∈ ds, Text.isBlank c = false :=
    fun c member => isBlank_of_isDigit (some.all c member)
  have mark {c : Char} (marked : IsMark c) : Text.isBlank c = false := by
    rcases marked with rfl | rfl <;> rfl
  intro c member
  rcases List.mem_append.mp member with base | behind
  · rcases spells.of_mem_baseChars base with digit | rfl | rfl
    · exact isBlank_of_isDigit digit
    · rfl
    · rfl
  · generalize l.exponent = part at exponentSpells
    cases exponentSpells with
    | none => cases behind
    | unsigned marked some =>
      rcases List.mem_cons.mp behind with rfl | digit
      · exact mark marked
      · exact digits some c digit
    | plus marked some | minus marked some =>
      rcases List.mem_cons.mp behind with rfl | behind
      · exact mark marked
      · rcases List.mem_cons.mp behind with rfl | digit
        · rfl
        · exact digits some c digit

/-- A number with an exponent is no plain numeral. -/
private theorem ofPlainChars?_marked (spells : l.Spells cs) {mark : Char} (marked : IsMark mark)
    (rest : List Char) : Decimal.ofPlainChars? (l.baseChars ++ mark :: rest) = none := by
  have none : Decimal.splitPoint false false
      (l.whole ++ fractionChars l.fraction ++ mark :: rest) = none := by
    refine Decimal.splitPoint_eq_none (List.mem_append_right _ List.mem_cons_self) ?_ ?_ ?_
    all_goals rcases marked with rfl | rfl <;> decide
  rw [Decimal.ofPlainChars?, spells.splitSign_baseChars]
  dsimp only
  rw [none]
  rfl

/-- A number is read by its significand, with the point moved afterwards. -/
theorem ofText?_eq (spells : l.Spells cs) :
    Decimal.ofText? (String.ofList cs) = (Decimal.ofPlainChars? l.baseChars).bind l.shift? := by
  rw [Decimal.ofText?, String.toList_ofList, Text.strip_of_forall spells.solid]
  obtain ⟨exponent, exponentSpells, rfl⟩ := spells.parts
  generalize written : l.exponent = part at exponentSpells
  cases exponentSpells with
  | none =>
    have same : l.shift? = some := by
      funext d
      simp [shift?, written]
    rw [List.append_nil, Decimal.ofScientificChars?,
      Decimal.splitExponent_eq_none spells.not_isMark_of_mem, same]
    cases Decimal.ofPlainChars? l.baseChars <;> rfl
  | @unsigned mark digits marked some =>
    obtain ⟨plain, _⟩ := Decimal.exponentOfChars?_digits some
    have unsigned : ∀ rest, digits ≠ '-' :: rest := by
      rintro rest rfl
      cases some.all '-' List.mem_cons_self
    rw [spells.ofPlainChars?_marked marked, Decimal.ofScientificChars?,
      Decimal.splitExponent_append marked spells.not_isMark_of_mem]
    cases read : Decimal.ofPlainChars? l.baseChars with
    | none => simp [read]
    | some d => simp [read, shift?, written, plain]
  | @plus mark digits marked some =>
    obtain ⟨_, signed⟩ := Decimal.exponentOfChars?_digits some
    rw [spells.ofPlainChars?_marked marked, Decimal.ofScientificChars?,
      Decimal.splitExponent_append marked spells.not_isMark_of_mem]
    cases read : Decimal.ofPlainChars? l.baseChars with
    | none => simp [read]
    | some d => simp [read, shift?, written, signed]
  | @minus mark digits marked some =>
    obtain ⟨plain, _⟩ := Decimal.exponentOfChars?_digits some
    rw [spells.ofPlainChars?_marked marked, Decimal.ofScientificChars?,
      Decimal.splitExponent_append marked spells.not_isMark_of_mem]
    cases read : Decimal.ofPlainChars? l.baseChars with
    | none => simp [read]
    | some d => simp [read, shift?, written, plain]

/-- A number starts with a minus sign or a digit. -/
theorem startsNumber (spells : l.Spells cs) : ResultSet.startsNumber cs = true := by
  obtain ⟨c, rest, same⟩ := List.exists_cons_of_ne_nil spells.whole.nonempty
  have digit : c.isDigit = true := spells.whole.all c (same ▸ List.mem_cons_self)
  obtain ⟨exponent, _, rfl⟩ := spells.parts
  cases negative : l.negative with
  | true => simp [baseChars, signChars, negative, ResultSet.startsNumber]
  | false => simp [baseChars, signChars, negative, same, ResultSet.startsNumber, digit]

end Spells

section Shift

variable {l : Literal} {d r : Decimal}

private theorem zpow_eq_tenPow (k : Nat) : (10 : ℚ) ^ (k : ℤ) = tenPow k := by
  rw [zpow_natCast, tenPow]
  exact (Nat.cast_pow 10 k).symm

private theorem mul_zpow_neg (x : ℚ) (k : Nat) : x * 10 ^ (-(k : ℤ)) = x / tenPow k := by
  rw [zpow_neg, zpow_eq_tenPow, div_eq_mul_inv]

/-- Moving the point by an exponent is exact or rounds. -/
theorem roundsAway_of_shift? (run : l.shift? d = some r) : r.RoundsAway (d.toRat * 10 ^ l.power) := by
  unfold shift? at run
  unfold power
  split at run
  · next none =>
    cases run
    exact .of_eq (by simp [none])
  · next digits some =>
    simp only [some, Decimal.signed, ↓reduceIte, mul_zpow_neg]
    exact Decimal.shiftDown?_eq_some run
  · next digits some =>
    simp only [some, Decimal.signed, Bool.false_eq_true, ↓reduceIte, zpow_eq_tenPow]
    exact .of_eq (Decimal.toRat_of_shiftUp? run)

/-- Moving the point fails for a large exponent or out of range. -/
theorem shift?_eq_none_iff : l.shift? d = none ↔
    Decimal.maxPlaces < l.power.natAbs ∨ (Decimal.limit : ℚ) < |d.toRat * 10 ^ l.power| := by
  have inRange := d.abs_toRat_le
  unfold shift? power
  split
  · next none => simpa [none] using inRange
  · next digits some =>
    have unit : (1 : ℚ) ≤ tenPow (Decimal.ofDigits (digits.map Decimal.digitValue)) := by
      exact_mod_cast tenPow_pos _
    have smaller : ¬ (Decimal.limit : ℚ) <
        |d.toRat / tenPow (Decimal.ofDigits (digits.map Decimal.digitValue))| := by
      rw [abs_div, abs_of_pos (Decimal.tenPow_pos_rat _), not_lt]
      exact (div_le_self (abs_nonneg _) unit).trans inRange
    simp only [some, Decimal.natAbs_signed, Decimal.shiftDown?_eq_none_iff]
    simp only [Decimal.signed, ↓reduceIte, mul_zpow_neg, smaller, or_false]
  · next digits some =>
    simp only [some, Decimal.natAbs_signed, Decimal.shiftUp?_eq_none_iff]
    simp only [Decimal.signed, Bool.false_eq_true, ↓reduceIte, zpow_eq_tenPow]

end Shift

/-- A literal whose exponent exceeds the places of a decimal, or whose significand is out of range. -/
def IsUnreadable (l : Literal) : Prop :=
  Decimal.maxPlaces < l.power.natAbs ∨ (Decimal.limit : ℚ) + 1 / 2 ≤ |l.significand|

end Json.Literal

namespace Json

/-- A number does not begin with a blank. -/
theorem isBlank_of_head {c : Char} (head : c = '-' ∨ c.isDigit = true) : isBlank c = false := by
  rw [Bool.eq_false_iff]
  intro blank
  simp only [isBlank, Bool.or_eq_true, beq_iff_eq, or_assoc] at blank
  rcases blank with rfl | rfl | rfl | rfl
  all_goals exact absurd head (by decide)

/-- A number stands at the start of a text, not behind blanks. -/
private theorem skipBlanks_of_head {input rest : Input} {c : Char} (first : input = .char c :: rest)
    (head : c = '-' ∨ c.isDigit = true) : skipBlanks input = input := by
  simp [first, skipBlanks, isBlank_of_head head]

/-- A number is passed over to its end. -/
theorem skipValue_of_literal {input rest : Input} {l : Literal}
    (scanned : literal input = .ok (l, rest)) : skipValue input = .ok rest := by
  obtain ⟨cs, spells, parts⟩ := exists_spells_of_literal scanned
  have starts := spells.startsNumber
  cases cs with
  | nil => cases starts
  | cons c cs =>
    have head : c = '-' ∨ c.isDigit = true := by simpa [ResultSet.startsNumber] using starts
    have first : input = .char c :: (Symbol.ofChars cs ++ rest) := parts
    have number : skipNumber input = .ok rest := by
      rw [skipNumber, scanned]
    rw [skipValue, skipOpen, skipBlanks_of_head first head]
    -- Every other kind of value starts with a mark of its own, which is no digit.
    split
    case h_8 =>
      cases first
      rw [if_pos head, number]
      rfl
    all_goals cases first
    all_goals exact absurd head (by decide)

end Json

namespace ResultSet

open Json (Literal Input)

/-- A cell that is a number is kept as it is written. -/
private theorem readRawCell_of_literal {input rest : Input} {l : Literal}
    (scanned : Json.literal (Json.skipBlanks input) = .ok (l, rest)) :
    ∃ cs, readRawCell input = .ok (cs, rest) ∧ l.Spells cs := by
  obtain ⟨cs, spells, parts⟩ := Json.exists_spells_of_literal scanned
  have taken : (Json.skipBlanks input).take ((Json.skipBlanks input).length - rest.length) =
      Symbol.ofChars cs := by
    rw [parts, List.length_append, Nat.add_sub_cancel, List.take_left]
  refine ⟨cs, ?_, spells⟩
  simp only [readRawCell, Json.skipValue_of_literal scanned, ok_bind, taken, Symbol.allChars?_ofChars]

section Spelled

variable {cs : List Char} {l : Literal}

private theorem valueOfRaw_eq (spells : l.Spells cs) :
    valueOfRaw cs = .ok (((Decimal.ofPlainChars? l.baseChars).bind l.shift?).elim
      (.text (String.ofList cs)) .number) := by
  rw [valueOfRaw, if_pos spells.startsNumber]
  dsimp only
  rw [spells.ofText?_eq]
  cases (Decimal.ofPlainChars? l.baseChars).bind l.shift? <;> rfl

private theorem valueOfRaw_of_isUnreadable (spells : l.Spells cs) (unreadable : l.IsUnreadable) :
    valueOfRaw cs = .ok (.text (String.ofList cs)) := by
  have none : (Decimal.ofPlainChars? l.baseChars).bind l.shift? = none := by
    rcases unreadable with long | large
    · exact Option.bind_eq_none_iff.mpr fun d _ => Literal.shift?_eq_none_iff.mpr (.inl long)
    · rw [spells.ofPlainChars?_eq_none_iff.mpr large]
      rfl
  rw [valueOfRaw_eq spells, none]
  rfl

private theorem valueOfRaw_rounds (spells : l.Spells cs) (readable : ¬ l.IsUnreadable) :
    ∃ base : Decimal, base.RoundsAway l.significand ∧
      ((Decimal.limit : ℚ) < |base.toRat * 10 ^ l.power| →
        valueOfRaw cs = .ok (.text (String.ofList cs))) ∧
      (|base.toRat * 10 ^ l.power| ≤ (Decimal.limit : ℚ) →
        ∃ d : Decimal, valueOfRaw cs = .ok (.number d) ∧
          d.RoundsAway (base.toRat * 10 ^ l.power)) := by
  obtain ⟨short, small⟩ := not_or.mp readable
  have read := valueOfRaw_eq spells
  cases significand : Decimal.ofPlainChars? l.baseChars with
  | none => exact absurd (spells.ofPlainChars?_eq_none_iff.mp significand) small
  | some base =>
    rw [significand, Option.bind_some] at read
    refine ⟨base, spells.roundsAway_significand significand, fun large => ?_, fun fits => ?_⟩
    · rw [read, Literal.shift?_eq_none_iff.mpr (.inr large)]
      rfl
    · cases shifted : l.shift? base with
      | none =>
        rcases Literal.shift?_eq_none_iff.mp shifted with long | large
        · exact absurd long short
        · exact absurd fits (not_le.mpr large)
      | some d =>
        rw [shifted] at read
        exact ⟨d, read, Literal.roundsAway_of_shift? shifted⟩

private theorem valueOfRaw_exact (spells : l.Spells cs) {base value : Decimal}
    (short : l.power.natAbs ≤ Decimal.maxPlaces) (significand : base.toRat = l.significand)
    (exact : value.toRat = l.toRat) :
    ∃ d : Decimal, valueOfRaw cs = .ok (.number d) ∧ d.toRat = l.toRat := by
  have readable : ¬ l.IsUnreadable := by
    have half : (Decimal.limit : ℚ) < Decimal.limit + 1 / 2 := lt_add_of_pos_right _ (by norm_num)
    rintro (long | large)
    · exact absurd short (Nat.not_le.mpr long)
    · rw [← significand] at large
      exact absurd (base.abs_toRat_le.trans_lt half) (not_lt.mpr large)
  -- Neither step rounds: the significand is a decimal, and so is what moving its point leads to.
  obtain ⟨read, rounds, _, fits⟩ := valueOfRaw_rounds spells readable
  have same : read.toRat * 10 ^ l.power = l.toRat := by
    rw [rounds.exact significand, Literal.toRat]
  rw [same] at fits
  obtain ⟨d, run, shifted⟩ := fits (exact ▸ value.abs_toRat_le)
  exact ⟨d, run, shifted.exact exact⟩

end Spelled

/-- A number in a cell is kept as it is written and read from there. First its significand is rounded
to a decimal, then its point is moved, so the number is exact if its significand and its value are
decimals. It stays text if its exponent exceeds the places of a decimal, or its significand or its
value is out of range. -/
theorem valueOfRaw_of_literal {input rest : Input} {l : Literal}
    (scanned : Json.literal (Json.skipBlanks input) = .ok (l, rest)) :
    ∃ cs, readRawCell input = .ok (cs, rest) ∧ l.Spells cs ∧
      (l.IsUnreadable → valueOfRaw cs = .ok (.text (String.ofList cs))) ∧
      (¬ l.IsUnreadable → ∃ base : Decimal, base.RoundsAway l.significand ∧
        ((Decimal.limit : ℚ) < |base.toRat * 10 ^ l.power| →
          valueOfRaw cs = .ok (.text (String.ofList cs))) ∧
        (|base.toRat * 10 ^ l.power| ≤ (Decimal.limit : ℚ) →
          ∃ d : Decimal, valueOfRaw cs = .ok (.number d) ∧
            d.RoundsAway (base.toRat * 10 ^ l.power))) ∧
      (∀ base value : Decimal, l.power.natAbs ≤ Decimal.maxPlaces → base.toRat = l.significand →
        value.toRat = l.toRat →
        ∃ d : Decimal, valueOfRaw cs = .ok (.number d) ∧ d.toRat = l.toRat) := by
  obtain ⟨cs, read, spells⟩ := readRawCell_of_literal scanned
  refine ⟨cs, read, spells, valueOfRaw_of_isUnreadable spells, valueOfRaw_rounds spells, ?_⟩
  intro base value short significand exact
  exact valueOfRaw_exact spells short significand exact

/-- Minus two and a half tens are minus twenty-five. -/
theorem valueOfRaw_of_literal_exponent :
    ∃ cs d, readRawCell (Symbol.ofString " -2.50e1, null]") = .ok (cs, Symbol.ofString ", null]") ∧
      valueOfRaw cs = .ok (.number d) ∧ d.toRat = -25 := by
  let l : Literal := ⟨true, ['2'], some ['5', '0'], some (false, ['1'])⟩
  let base : Decimal := ⟨⟨-250, 2⟩, by decide, by decide⟩
  have scanned : Json.literal (Json.skipBlanks (Symbol.ofString " -2.50e1, null]")) =
      .ok (l, Symbol.ofString ", null]") := by
    decide +kernel
  obtain ⟨cs, read, _, _, _, exact⟩ := valueOfRaw_of_literal scanned
  have significand : base.toRat = l.significand := rfl
  have number : l.toRat = -25 := by
    have power : l.power = 1 := rfl
    rw [Literal.toRat, ← significand, power]
    norm_num [Numeral.toRat, tenPow, base]
  have value : (Decimal.ofInt (-25)).toRat = l.toRat := by
    rw [number, Decimal.toRat_ofInt (by decide)]
    norm_num
  obtain ⟨d, run, same⟩ := exact base (.ofInt (-25)) (by decide) significand value
  exact ⟨cs, d, read, run, same.trans number⟩

/-- Twenty-nine decimals are one more than a decimal has, and the last one is lost. -/
theorem valueOfRaw_loses_digit :
    ∃ (l : Literal) (d : Decimal),
      Json.literal (Symbol.ofString "0.12345678901234567890123456789") = .ok (l, []) ∧
      valueOfRaw "0.12345678901234567890123456789".toList = .ok (.number d) ∧
      d.text = "0.1234567890123456789012345679" ∧ d.toRat ≠ l.toRat := by
  let l : Literal := ⟨false, ['0'], some "12345678901234567890123456789".toList, none⟩
  let d : Decimal := ⟨⟨1234567890123456789012345679, 28⟩, by decide, by decide⟩
  have scanned : Json.literal (Symbol.ofString "0.12345678901234567890123456789") = .ok (l, []) := by
    decide +kernel
  have read : valueOfRaw "0.12345678901234567890123456789".toList = .ok (.number d) := by
    decide +kernel
  have digits : l.toRat = Numeral.toRat ⟨12345678901234567890123456789, 29⟩ := by
    have power : l.power = 0 := rfl
    rw [Literal.toRat, power, zpow_zero, mul_one]
    rfl
  refine ⟨l, d, scanned, read, by decide +kernel, ?_⟩
  rw [digits]
  norm_num [Numeral.toRat, tenPow, d]

end ResultSet

end PagedReport
