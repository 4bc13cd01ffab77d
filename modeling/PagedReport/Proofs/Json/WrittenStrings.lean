import PagedReport.Proofs.Json.WrittenNumbers

/-! # Strings that are written

A character stands in a string for itself, behind a backslash as a letter, or by the four digits of its
code. The reader of strings gives the character back from each of these forms, and the scanner that
passes over strings passes over them, so a string of any characters is read as it was written.
-/

namespace PagedReport.Json

open Text (Symbol)

/-- A text is read from its symbols. -/
theorem text?_ofChars (cs : List Char) : Symbol.text? (Symbol.ofChars cs) = some (String.ofList cs) := by
  rw [Symbol.text?, Symbol.allChars?_ofChars]
  rfl

private theorem hexValue?_hexDigit (n : Nat) : hexValue? (hexDigit n) = some (n % 16) := by
  have digits : ∀ d < 16, hexValue? (Nat.digitChar d) = some d := by decide
  exact digits (n % 16) (Nat.mod_lt n (by decide))

/-- The four digits of a control character. -/
private theorem hexQuad_control {n : Nat} (small : n < 32) (rest : Input) :
    hexQuad (Symbol.ofChars ['0', '0', hexDigit (n / 16), hexDigit n] ++ rest) = .ok (n, rest) := by
  have zero : hexValue? '0' = some 0 := by decide
  have value : n / 16 % 16 * 16 + n % 16 = n := by omega
  simp [hexQuad, zero, hexValue?_hexDigit, value]

private theorem unicodeEscape_control {n : Nat} (small : n < 32) (rest : Input) :
    unicodeEscape (Symbol.ofChars ['0', '0', hexDigit (n / 16), hexDigit n] ++ rest) =
      .ok (Char.ofNat n, rest) := by
  have low : isLowSurrogate n = false := by
    simp only [isLowSurrogate, Bool.and_eq_false_iff, decide_eq_false_iff_not]
    omega
  have high : isHighSurrogate n = false := by
    simp only [isHighSurrogate, Bool.and_eq_false_iff, decide_eq_false_iff_not]
    omega
  rw [unicodeEscape, hexQuad_control small, ok_bind]
  simp [low, high]

/-- How a character stands in a string: after a backslash, by its code, or for itself. -/
inductive Escapes : Char → List Char → Prop
  | letter {c d : Char} (known : simpleEscape? d = some c) (apart : d ≠ 'u') : Escapes c ['\\', d]
  | code {c : Char} (control : c.toNat < 32) :
    Escapes c ['\\', 'u', '0', '0', hexDigit (c.toNat / 16), hexDigit c.toNat]
  | plain {c : Char} (quote : c ≠ '"') (backslash : c ≠ '\\') (printed : ¬ c.toNat < 32) : Escapes c [c]

theorem escapes_escapeChar (c : Char) : Escapes c (escapeChar c) := by
  unfold escapeChar
  split_ifs with quote backslash back tab line feed carriage control
  · subst c; exact .letter rfl (by decide)
  · subst c; exact .letter rfl (by decide)
  · subst c; exact .letter rfl (by decide)
  · subst c; exact .letter rfl (by decide)
  · subst c; exact .letter rfl (by decide)
  · subst c; exact .letter rfl (by decide)
  · subst c; exact .letter rfl (by decide)
  · exact .code control
  · exact .plain quote backslash control

theorem Escapes.one_le_length {c : Char} {written : List Char} (escapes : Escapes c written) :
    1 ≤ written.length := by
  cases escapes <;> exact Nat.le_add_left 1 _

/-- One character of a string is read. -/
private theorem stringSymbols_step {c : Char} {written : List Char} (escapes : Escapes c written)
    (fuel : Nat) (rest : Input) : stringSymbols (fuel + 1) (Symbol.ofChars written ++ rest) =
      (stringSymbols fuel rest >>= fun (symbols, rest) => .ok (.char c :: symbols, rest)) := by
  cases escapes with
  | @letter d known apart =>
    -- Only a `u` behind the backslash takes more than one character.
    have read : escape (.char d :: rest) = .ok (c, rest) := by
      unfold escape
      split
      · next none => cases none
      · next found => exact absurd (by simpa using found : d = 'u' ∧ _).1 apart
      · next other tail _ found =>
        obtain ⟨rfl, rfl⟩ : d = other ∧ rest = tail := by simpa using found
        rw [known]
      · next found => cases found
    simp only [Symbol.ofChars_cons, Symbol.ofChars_nil, List.cons_append, List.nil_append, stringSymbols,
      read, ok_bind]
  | code control =>
    have read : escape (.char 'u' :: (Symbol.ofChars ['0', '0', hexDigit (c.toNat / 16), hexDigit c.toNat] ++
        rest)) = .ok (c, rest) := by
      rw [escape, unicodeEscape_control control, Char.ofNat_toNat]
    simp only [Symbol.ofChars_cons, Symbol.ofChars_nil, List.cons_append, List.nil_append] at read ⊢
    simp only [stringSymbols, read, ok_bind]
  | plain quote backslash printed =>
    have control : isControl (.char c) = false := by simp [isControl, Nat.not_lt.mp printed]
    simp only [Symbol.ofChars_cons, Symbol.ofChars_nil, List.cons_append, List.nil_append]
    rw [stringSymbols]
    · simp [control]
    · simpa using quote
    · simpa using backslash

/-- Every character takes at least one place. -/
theorem length_le_flatMap_escapeChar (cs : List Char) : cs.length ≤ (cs.flatMap escapeChar).length := by
  induction cs with
  | nil => exact Nat.le_refl 0
  | cons c cs ih =>
    have one : 1 ≤ (escapeChar c).length := (escapes_escapeChar c).one_le_length
    rw [List.flatMap_cons, List.length_append, List.length_cons]
    omega

private theorem stringSymbols_escaped (cs : List Char) (fuel : Nat) (enough : cs.length < fuel)
    (rest : Input) : stringSymbols fuel (Symbol.ofChars (cs.flatMap escapeChar) ++ .char '"' :: rest) =
      .ok (Symbol.ofChars cs, rest) := by
  induction cs generalizing fuel with
  | nil =>
    obtain ⟨fuel, rfl⟩ := Nat.exists_eq_succ_of_ne_zero (Nat.ne_zero_of_lt enough)
    rfl
  | cons c cs ih =>
    obtain ⟨fuel, rfl⟩ := Nat.exists_eq_succ_of_ne_zero (Nat.ne_zero_of_lt enough)
    rw [List.flatMap_cons, Symbol.ofChars_append, List.append_assoc,
      stringSymbols_step (escapes_escapeChar c), ih fuel (Nat.lt_of_succ_lt_succ enough)]
    rfl

/-- There is enough fuel for a string in the text behind its opening quote. -/
private theorem length_lt_length_append (s : String) (rest : Input) : s.toList.length <
    (Symbol.ofChars (s.toList.flatMap escapeChar ++ ['"']) ++ rest).length := by
  have long := length_le_flatMap_escapeChar s.toList
  simp only [List.length_append, Symbol.length_ofChars, List.length_singleton]
  omega

/-- A string is read back from behind its opening quote. -/
theorem quotedString_chars (s : String) (rest : Input) :
    quotedString (Symbol.ofChars (s.toList.flatMap escapeChar ++ ['"']) ++ rest) = .ok (s, rest) := by
  have read := stringSymbols_escaped s.toList _ (length_lt_length_append s rest) rest
  rw [quotedString]
  rw [Symbol.ofChars_append, List.append_assoc] at read ⊢
  simp only [Symbol.ofChars_cons, Symbol.ofChars_nil, List.cons_append, List.nil_append] at read ⊢
  rw [read, ok_bind, text?_ofChars, String.ofList_toList]

/-- One character of a string is passed over. -/
private theorem skipString_step {c : Char} {written : List Char} (escapes : Escapes c written)
    (fuel : Nat) (rest : Input) :
    skipString (fuel + 1) (Symbol.ofChars written ++ rest) = skipString fuel rest := by
  cases escapes with
  | letter known apart =>
    simp only [Symbol.ofChars_cons, Symbol.ofChars_nil, List.cons_append, List.nil_append]
    rw [skipString]
    · simp [known]
    · simpa using apart
  | code control =>
    have digits := hexQuad_control control rest
    simp only [Symbol.ofChars_cons, Symbol.ofChars_nil, List.cons_append, List.nil_append] at digits ⊢
    rw [skipString, digits, ok_bind]
  | plain quote backslash printed =>
    have control : isControl (.char c) = false := by simp [isControl, Nat.not_lt.mp printed]
    simp only [Symbol.ofChars_cons, Symbol.ofChars_nil, List.cons_append, List.nil_append]
    rw [skipString]
    · simp [control]
    all_goals simp [quote, backslash]

private theorem skipString_escaped (cs : List Char) (fuel : Nat) (enough : cs.length < fuel)
    (rest : Input) :
    skipString fuel (Symbol.ofChars (cs.flatMap escapeChar) ++ .char '"' :: rest) = .ok rest := by
  induction cs generalizing fuel with
  | nil =>
    obtain ⟨fuel, rfl⟩ := Nat.exists_eq_succ_of_ne_zero (Nat.ne_zero_of_lt enough)
    rfl
  | cons c cs ih =>
    obtain ⟨fuel, rfl⟩ := Nat.exists_eq_succ_of_ne_zero (Nat.ne_zero_of_lt enough)
    rw [List.flatMap_cons, Symbol.ofChars_append, List.append_assoc,
      skipString_step (escapes_escapeChar c), ih fuel (Nat.lt_of_succ_lt_succ enough)]

/-- A string is passed over from behind its opening quote. -/
private theorem skipString_chars (s : String) (rest : Input) :
    let input := Symbol.ofChars (s.toList.flatMap escapeChar ++ ['"']) ++ rest
    skipString input.length input = .ok rest := by
  have skipped := skipString_escaped s.toList _ (length_lt_length_append s rest) rest
  rw [Symbol.ofChars_append, List.append_assoc] at skipped ⊢
  exact skipped

/-- A string is passed over to its end. -/
theorem skipValue_quotedChars (s : String) (rest : Input) :
    skipValue (Symbol.ofChars (quotedChars s) ++ rest) = .ok rest := by
  have blank : isBlank '"' = false := rfl
  rw [quotedChars, Symbol.ofChars_cons, List.cons_append, skipValue, skipOpen, skipBlanks]
  simp only [blank, Bool.false_eq_true, ↓reduceIte, skipString_chars, ok_bind]
  rfl

end PagedReport.Json
