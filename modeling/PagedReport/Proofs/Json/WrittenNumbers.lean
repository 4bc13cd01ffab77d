import PagedReport.Json.Printer
import PagedReport.Proofs.Decimal.Digits
import PagedReport.Proofs.Json.Numbers

/-! # Numbers that are written

A numeral is written as a JSON number without exponent. The scanner takes all of it, as long as what
stands behind it does not go on with the number. A whole number of sixty-four bits is read back from
there as a number of JSON, and a decimal with its coefficient and its places.
-/

namespace PagedReport

open Text (Symbol)

namespace Json

/-- What stands behind a number does not go on with it. -/
def EndsNumber (rest : Input) : Prop :=
  ∀ c, rest.head? = some (.char c) → c.isDigit = false ∧ c ≠ '.' ∧ c ≠ 'e' ∧ c ≠ 'E'

theorem endsNumber_nil : EndsNumber [] := by
  intro c first
  cases first

theorem endsNumber_cons {c : Char} (digit : c.isDigit = false) (point : c ≠ '.')
    (mark : ¬ Literal.IsMark c) (rest : Input) : EndsNumber (.char c :: rest) := by
  intro other first
  obtain rfl : c = other := by simpa using first
  rw [Literal.IsMark, not_or] at mark
  exact ⟨digit, point, mark⟩

/-- Digits are scanned up to what is no digit. -/
private theorem spanDigits_append {digits : List Char} (all : ∀ c ∈ digits, c.isDigit = true)
    {rest : Input} (ends : ∀ c, rest.head? = some (.char c) → c.isDigit = false) :
    spanDigits (Symbol.ofChars digits ++ rest) = (digits, rest) := by
  induction digits with
  | nil =>
    cases rest with
    | nil => rfl
    | cons symbol rest =>
      cases symbol with
      | stray byte => rfl
      | char c =>
        have digit := ends c rfl
        simp [spanDigits, digit]
  | cons c digits ih =>
    have others := ih fun other member => all other (List.mem_cons_of_mem _ member)
    simp [spanDigits, all c List.mem_cons_self, others]

private theorem someDigits_append {digits : List Char} (some : SomeDigits digits) {rest : Input}
    (ends : ∀ c, rest.head? = .some (.char c) → c.isDigit = false) :
    someDigits (Symbol.ofChars digits ++ rest) = .ok (digits, rest) := by
  obtain ⟨c, others, rfl⟩ := List.exists_cons_of_ne_nil some.nonempty
  rw [someDigits, spanDigits_append some.all ends]

private theorem wholePart_append {digits : List Char} (some : SomeDigits digits)
    (alone : digits.head? = .some '0' → digits.length = 1) {rest : Input}
    (ends : ∀ c, rest.head? = .some (.char c) → c.isDigit = false) :
    wholePart (Symbol.ofChars digits ++ rest) = .ok (digits, rest) := by
  have proper : ¬ (digits.head? = .some '0' ∧ digits.length ≠ 1) :=
    fun ⟨zero, long⟩ => long (alone zero)
  rw [wholePart, someDigits_append some ends, ok_bind]
  simp only [proper, ↓reduceIte]

private theorem fractionPart_append {fraction : Option (List Char)}
    (some : ∀ digits ∈ fraction, SomeDigits digits) {rest : Input} (ends : EndsNumber rest) :
    fractionPart (Symbol.ofChars (Literal.fractionChars fraction) ++ rest) = .ok (fraction, rest) := by
  cases fraction with
  | none =>
    rw [Literal.fractionChars, Symbol.ofChars_nil, List.nil_append]
    unfold fractionPart
    split
    · exact absurd rfl (ends '.' rfl).2.1
    · rfl
  | some digits =>
    rw [Literal.fractionChars, Symbol.ofChars_cons, List.cons_append, fractionPart,
      someDigits_append (some digits rfl) fun c first => (ends c first).1, ok_bind]

private theorem exponentPart_of_ends {rest : Input} (ends : EndsNumber rest) :
    exponentPart rest = .ok (none, rest) := by
  unfold exponentPart
  split
  · exact absurd rfl (ends 'e' rfl).2.2.1
  · exact absurd rfl (ends 'E' rfl).2.2.2
  · rfl

/-- A fraction does not go on with the digits before it. -/
private theorem isDigit_head?_fractionChars (fraction : Option (List Char)) {rest : Input}
    (ends : EndsNumber rest) (c : Char)
    (first : (Symbol.ofChars (Literal.fractionChars fraction) ++ rest).head? = some (.char c)) :
    c.isDigit = false := by
  cases fraction with
  | none => exact (ends c first).1
  | some digits =>
    obtain rfl : '.' = c := by simpa [Literal.fractionChars] using first
    rfl

/-- A literal without exponent is scanned to its end. -/
theorem literal_baseChars {l : Literal} (whole : SomeDigits l.whole)
    (alone : l.whole.head? = some '0' → l.whole.length = 1)
    (fraction : ∀ digits ∈ l.fraction, SomeDigits digits) (plain : l.exponent = none) {rest : Input}
    (ends : EndsNumber rest) : literal (Symbol.ofChars l.baseChars ++ rest) = .ok (l, rest) := by
  obtain ⟨negative, wholeDigits, fractionDigits, exponent⟩ := l
  obtain rfl : exponent = none := plain
  have parts := wholePart_append whole alone (isDigit_head?_fractionChars fractionDigits ends)
  have sign : literal (Symbol.ofChars (Literal.signChars negative) ++
        (Symbol.ofChars wholeDigits ++ (Symbol.ofChars (Literal.fractionChars fractionDigits) ++ rest))) =
      .ok (⟨negative, wholeDigits, fractionDigits, none⟩, rest) := by
    unfold literal
    cases negative with
    | true =>
      simp only [Literal.signChars, ↓reduceIte, Symbol.ofChars_cons, Symbol.ofChars_nil, List.cons_append,
        List.nil_append, parts, ok_bind, fractionPart_append fraction ends, exponentPart_of_ends ends]
    | false =>
      -- Without a sign the first digit comes first, and it is not taken for a sign.
      obtain ⟨c, others, rfl⟩ := List.exists_cons_of_ne_nil whole.nonempty
      have unsigned : c ≠ '-' := by
        rintro rfl
        cases whole.all '-' List.mem_cons_self
      simp only [Literal.signChars, Bool.false_eq_true, ↓reduceIte, Symbol.ofChars_nil, List.nil_append]
      split
      · next body found =>
        obtain ⟨same, _⟩ : c = '-' ∧ _ := by simpa using found
        exact absurd same unsigned
      · simp only [parts, ok_bind, fractionPart_append fraction ends, exponentPart_of_ends ends]
  simpa [Literal.baseChars] using sign

end Json

namespace Numeral

variable (n : Numeral)

/-- A numeral as a number of a JSON text. -/
def literal : Json.Literal where
  negative := n.coefficient < 0
  whole := n.wholeDigits
  fraction := if n.places = 0 then none else some n.fractionDigits
  exponent := none

theorem baseChars_literal : n.literal.baseChars = n.chars := by
  have sign : Json.Literal.signChars n.literal.negative = if n.coefficient < 0 then ['-'] else [] := by
    simp [Json.Literal.signChars, literal]
  have fraction : Json.Literal.fractionChars n.literal.fraction =
      if n.places = 0 then [] else '.' :: n.fractionDigits := by
    unfold literal
    split <;> rfl
  rw [Json.Literal.baseChars, sign, fraction]
  rfl

theorem someDigits_whole : Json.SomeDigits n.literal.whole :=
  ⟨n.wholeDigits_ne_nil, n.isDigit_of_mem_wholeDigits⟩

theorem someDigits_fraction : ∀ digits ∈ n.literal.fraction, Json.SomeDigits digits := by
  intro digits found
  by_cases none : n.places = 0
  · simp [literal, none] at found
  · obtain rfl : n.fractionDigits = digits := by simpa [literal, none] using found
    refine ⟨?_, n.isDigit_of_mem_fractionDigits⟩
    apply List.ne_nil_of_length_pos
    rw [length_fractionDigits]
    omega

/-- The digits of the fraction, of which there are none without places. -/
theorem getD_fraction : n.literal.fraction.getD [] = n.fractionDigits := by
  by_cases none : n.places = 0
  · have empty : n.fractionDigits = [] :=
      List.eq_nil_of_length_eq_zero (n.length_fractionDigits.trans none)
    simp [literal, none, empty]
  · simp [literal, none]

theorem spells_literal : n.literal.Spells n.chars where
  whole := n.someDigits_whole
  fraction := n.someDigits_fraction
  parts := ⟨[], .none, by rw [List.append_nil, baseChars_literal]⟩

/-- A numeral begins with a minus sign or a digit. -/
theorem exists_chars_eq : ∃ c tail, n.chars = c :: tail ∧ (c = '-' ∨ c.isDigit = true) := by
  have starts := n.spells_literal.startsNumber
  cases text : n.chars with
  | nil =>
    rw [text] at starts
    cases starts
  | cons c tail =>
    rw [text] at starts
    exact ⟨c, tail, rfl, by simpa [ResultSet.startsNumber] using starts⟩

/-- A numeral is scanned to its end. -/
theorem literal_chars {rest : Json.Input} (ends : Json.EndsNumber rest) :
    Json.literal (Symbol.ofChars n.chars ++ rest) = .ok (n.literal, rest) := by
  rw [← n.baseChars_literal]
  apply Json.literal_baseChars n.someDigits_whole n.length_wholeDigits_of_head? n.someDigits_fraction
  · rfl
  · exact ends

/-- The digits of a literal are those of the coefficient. -/
theorem map_digitValue_literal :
    n.literal.whole.map Decimal.digitValue ++ (n.literal.fraction.getD []).map Decimal.digitValue =
      n.paddedDigits.map Decimal.digitValue := by
  rw [getD_fraction, ← List.map_append]
  exact congrArg (List.map Decimal.digitValue) n.wholeDigits_append_fractionDigits

theorem signed_literal : Decimal.signed n.literal.negative n.coefficient.natAbs = n.coefficient := by
  simp only [Decimal.signed, literal, decide_eq_true_eq]
  split <;> omega

/-- A numeral writes itself. -/
theorem significand_literal : n.literal.significand = n.toRat := by
  have places : ((n.literal.fraction.getD []).map Decimal.digitValue).length = n.places := by
    rw [List.length_map, getD_fraction, length_fractionDigits]
  rw [Json.Literal.significand, Decimal.written, map_digitValue_literal, ofDigits_paddedDigits,
    signed_literal, places]

end Numeral

/-- A decimal is read back with its coefficient and its places. -/
theorem Decimal.ofText?_chars (d : Decimal) : ofText? (String.ofList d.chars) = some d := by
  have spells := d.spells_literal
  have digits := d.map_digitValue_literal
  have places : ((d.literal.fraction.getD []).map digitValue).length = d.places := by
    rw [List.length_map, Numeral.getD_fraction, Numeral.length_fractionDigits]
  have sign := spells.splitSign_baseChars []
  rw [List.append_nil, List.append_nil] at sign
  have read := ofPlainChars?_of_fits sign spells.splitPoint_baseChars
    (by rw [digits, Numeral.ofDigits_paddedDigits]; exact d.coefficient_le) (by rw [places]; exact d.places_le)
  rw [digits, places, Numeral.ofDigits_paddedDigits, Numeral.signed_literal] at read
  rw [spells.ofText?_eq, read, ofParts?, dif_pos ⟨d.coefficient_le, d.places_le⟩]
  rfl

/-- Decimals are told apart by their written form. -/
theorem Decimal.text_inj {d e : Decimal} : d.text = e.text ↔ d = e := by
  constructor
  · intro same
    have read := d.ofText?_chars
    rw [show String.ofList d.chars = e.text from same, show e.text = String.ofList e.chars from rfl,
      e.ofText?_chars] at read
    exact (Option.some.inj read).symm
  · exact congrArg text

namespace Json

/-- A whole number is a numeral without places. -/
theorem intChars_eq (n : Int) : intChars n = Numeral.chars ⟨n, 0⟩ := by
  have digits : 0 < (Nat.toDigits 10 n.natAbs).length := Nat.length_toDigits_pos
  have padded : Numeral.paddedDigits ⟨n, 0⟩ = natChars n.natAbs := by
    rw [Numeral.paddedDigits, List.leftpad, Nat.sub_eq_zero_of_le digits]
    rfl
  have whole : Numeral.wholeDigits ⟨n, 0⟩ = natChars n.natAbs := by
    rw [Numeral.wholeDigits, padded, Nat.sub_zero, List.take_length]
  rw [intChars, Numeral.chars, whole]
  split <;> simp

/-- A whole number of sixty-four bits, with sign or without. -/
def IsWord (n : Int) : Prop := -(Literal.negativeLimit : Int) ≤ n ∧ n ≤ Literal.significandLimit

instance (n : Int) : Decidable (IsWord n) := inferInstanceAs (Decidable (_ ∧ _))

/-- A whole number of sixty-four bits is read as it is written. -/
theorem readNumber_intChars {n : Int} (word : IsWord n) {rest : Input} (ends : EndsNumber rest) :
    readNumber (Symbol.ofChars (intChars n) ++ rest) = .ok (.integer n, rest) := by
  have digits : Decimal.ofDigits ((Numeral.literal ⟨n, 0⟩).whole.map Decimal.digitValue) = n.natAbs := by
    have whole : (Numeral.literal ⟨n, 0⟩).whole = Numeral.paddedDigits ⟨n, 0⟩ := by
      rw [Numeral.literal, Numeral.wholeDigits, Nat.sub_zero, List.take_length]
    rw [whole, Numeral.ofDigits_paddedDigits]
  have value : (Numeral.literal ⟨n, 0⟩).number? = some (.integer n) := by
    obtain ⟨least, greatest⟩ := word
    have whole : (Numeral.literal ⟨n, 0⟩).fraction.isNone ∧
        (Numeral.literal ⟨n, 0⟩).exponent.isNone := by simp [Numeral.literal]
    rw [Literal.number?, if_pos whole]
    dsimp only
    rw [digits]
    by_cases negative : n < 0
    · have small : n.natAbs ≠ 0 ∧ n.natAbs ≤ Literal.negativeLimit := by omega
      have same : -|n| = n := by rw [abs_of_neg negative, neg_neg]
      simp [Numeral.literal, negative, small, same]
    · have small : n.natAbs ≤ Literal.significandLimit := by omega
      have same : |n| = n := abs_of_nonneg (Int.not_lt.mp negative)
      simp [Numeral.literal, negative, small, same]
  rw [readNumber, intChars_eq, Numeral.literal_chars _ ends, ok_bind]
  dsimp only
  rw [value]

end Json

end PagedReport
