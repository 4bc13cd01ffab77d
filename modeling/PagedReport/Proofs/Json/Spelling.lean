import PagedReport.Json.Scanner
import PagedReport.Proofs.Outcome

/-! # How numbers are spelled

A number in a JSON text is a sign, a whole part, a fraction and an exponent, in this order, each of
them digits with a mark in front. `Spells` says which characters spell a literal, and the scanner
takes exactly such characters from the start of a text.
-/

namespace PagedReport.Text.Symbol

@[simp] theorem ofChars_nil : ofChars [] = [] := rfl

@[simp] theorem ofChars_cons (c : Char) (cs : List Char) : ofChars (c :: cs) = .char c :: ofChars cs := rfl

@[simp] theorem ofChars_append (first second : List Char) :
    ofChars (first ++ second) = ofChars first ++ ofChars second := List.map_append

@[simp] theorem length_ofChars (cs : List Char) : (ofChars cs).length = cs.length := List.length_map _

/-- The symbols of a text are its characters. -/
theorem allChars?_ofChars (cs : List Char) : allChars? (ofChars cs) = some cs := by
  induction cs with
  | nil => rfl
  | cons c rest ih =>
    rw [allChars?] at ih
    rw [ofChars_cons, allChars?, List.mapM_cons, ih]
    rfl

end PagedReport.Text.Symbol

namespace PagedReport.Json

open Text (Symbol)

/-- Digits, at least one. -/
structure SomeDigits (digits : List Char) : Prop where
  nonempty : digits ≠ []
  all : ∀ c ∈ digits, c.isDigit = true

namespace Literal

/-- The characters of a sign. -/
def signChars (negative : Bool) : List Char := if negative then ['-'] else []

/-- The characters of a decimal point and the digits after it. -/
def fractionChars : Option (List Char) → List Char
  | none => []
  | some digits => '.' :: digits

/-- The characters of a literal before its exponent. -/
def baseChars (l : Literal) : List Char := signChars l.negative ++ l.whole ++ fractionChars l.fraction

/-- The marks in front of an exponent. -/
def IsMark (c : Char) : Prop := c = 'e' ∨ c = 'E'

instance (c : Char) : Decidable (IsMark c) := inferInstanceAs (Decidable (_ ∨ _))

/-- The characters that spell an exponent, with a plus sign or without. -/
inductive SpellsExponent : Option (Bool × List Char) → List Char → Prop
  | none : SpellsExponent none []
  | unsigned {mark : Char} {digits : List Char} (marked : IsMark mark) (some : SomeDigits digits) :
      SpellsExponent (.some (false, digits)) (mark :: digits)
  | plus {mark : Char} {digits : List Char} (marked : IsMark mark) (some : SomeDigits digits) :
      SpellsExponent (.some (false, digits)) (mark :: '+' :: digits)
  | minus {mark : Char} {digits : List Char} (marked : IsMark mark) (some : SomeDigits digits) :
      SpellsExponent (.some (true, digits)) (mark :: '-' :: digits)

/-- The characters that spell a literal. -/
structure Spells (l : Literal) (cs : List Char) : Prop where
  whole : SomeDigits l.whole
  fraction : ∀ digits ∈ l.fraction, SomeDigits digits
  parts : ∃ exponent, SpellsExponent l.exponent exponent ∧ cs = l.baseChars ++ exponent

end Literal

/-- The digits at the start of a text, and the text after them. -/
private theorem of_spanDigits (input : Input) :
    (∀ c ∈ (spanDigits input).1, c.isDigit = true) ∧
      input = Symbol.ofChars (spanDigits input).1 ++ (spanDigits input).2 := by
  induction input with
  | nil => exact ⟨by simp [spanDigits], rfl⟩
  | cons symbol rest ih =>
    cases symbol with
    | stray byte => exact ⟨by simp [spanDigits], rfl⟩
    | char c =>
      rw [spanDigits]
      split
      · next digit =>
        refine ⟨?_, congrArg (.char c :: ·) ih.2⟩
        intro other member
        rcases List.mem_cons.mp member with rfl | member
        · exact digit
        · exact ih.1 other member
      · exact ⟨by simp, rfl⟩

private theorem of_someDigits {input rest : Input} {digits : List Char}
    (run : someDigits input = .ok (digits, rest)) :
    SomeDigits digits ∧ input = Symbol.ofChars digits ++ rest := by
  obtain ⟨all, parts⟩ := of_spanDigits input
  unfold someDigits at run
  cases spanned : spanDigits input with
  | mk found after =>
    rw [spanned] at all parts run
    cases found with
    | nil => cases after <;> cases run
    | cons c found =>
      cases run
      exact ⟨⟨List.cons_ne_nil c found, all⟩, parts⟩

private theorem of_wholePart {input rest : Input} {digits : List Char}
    (run : wholePart input = .ok (digits, rest)) :
    SomeDigits digits ∧ input = Symbol.ofChars digits ++ rest := by
  obtain ⟨⟨found, after⟩, taken, checked⟩ := bind_eq_ok_iff.mp run
  dsimp only at checked
  split at checked
  · cases checked
  · cases checked
    exact of_someDigits taken

private theorem of_fractionPart {input rest : Input} {fraction : Option (List Char)}
    (run : fractionPart input = .ok (fraction, rest)) :
    (∀ digits ∈ fraction, SomeDigits digits) ∧
      input = Symbol.ofChars (Literal.fractionChars fraction) ++ rest := by
  unfold fractionPart at run
  split at run
  · obtain ⟨found, taken, same⟩ := bind_eq_ok_iff.mp run
    cases same
    obtain ⟨some, parts⟩ := of_someDigits taken
    refine ⟨?_, congrArg (.char '.' :: ·) parts⟩
    intro digits same
    cases same
    exact some
  · cases run
    exact ⟨by simp, rfl⟩

/-- The sign of an exponent, and the digits behind it. -/
private theorem of_exponentSign {input rest : Input} {mark : Char} (marked : Literal.IsMark mark)
    {digits : List Char} (run : someDigits (exponentSign input).2 = .ok (digits, rest)) :
    ∃ cs, Literal.SpellsExponent (some ((exponentSign input).1, digits)) cs ∧
      .char mark :: input = Symbol.ofChars cs ++ rest := by
  obtain ⟨some, parts⟩ := of_someDigits run
  unfold exponentSign at parts ⊢
  split at parts
  · exact ⟨_, .minus marked some, congrArg (.char mark :: .char '-' :: ·) parts⟩
  · exact ⟨_, .plus marked some, congrArg (.char mark :: .char '+' :: ·) parts⟩
  · exact ⟨_, .unsigned marked some, congrArg (.char mark :: ·) parts⟩

private theorem of_exponentPart {input rest : Input} {exponent : Option (Bool × List Char)}
    (run : exponentPart input = .ok (exponent, rest)) :
    ∃ cs, Literal.SpellsExponent exponent cs ∧ input = Symbol.ofChars cs ++ rest := by
  unfold exponentPart at run
  split at run
  · obtain ⟨found, taken, same⟩ := bind_eq_ok_iff.mp run
    cases same
    exact of_exponentSign (.inl rfl) taken
  · obtain ⟨found, taken, same⟩ := bind_eq_ok_iff.mp run
    cases same
    exact of_exponentSign (.inr rfl) taken
  · cases run
    exact ⟨[], .none, rfl⟩

/-- What the scanner takes for a number spells it. -/
theorem exists_spells_of_literal {input rest : Input} {l : Literal}
    (run : literal input = .ok (l, rest)) :
    ∃ cs, l.Spells cs ∧ input = Symbol.ofChars cs ++ rest := by
  unfold literal at run
  split at run
  next negative body signed =>
    have signParts : input = Symbol.ofChars (Literal.signChars negative) ++ body := by
      split at signed <;> cases signed <;> rfl
    obtain ⟨⟨whole, afterWhole⟩, wholeRun, run⟩ := bind_eq_ok_iff.mp run
    obtain ⟨⟨fraction, afterFraction⟩, fractionRun, run⟩ := bind_eq_ok_iff.mp run
    obtain ⟨⟨exponent, after⟩, exponentRun, same⟩ := bind_eq_ok_iff.mp run
    cases same
    obtain ⟨wholeDigits, wholeParts⟩ := of_wholePart wholeRun
    obtain ⟨fractionDigits, fractionParts⟩ := of_fractionPart fractionRun
    obtain ⟨exponentChars, spells, exponentParts⟩ := of_exponentPart exponentRun
    refine ⟨_, ⟨wholeDigits, fractionDigits, exponentChars, spells, rfl⟩, ?_⟩
    rw [signParts, wholeParts, fractionParts, exponentParts]
    simp [Literal.baseChars, Symbol.ofChars]

end PagedReport.Json
