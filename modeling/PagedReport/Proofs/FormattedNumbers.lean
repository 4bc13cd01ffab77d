import PagedReport.Proofs.Decimal.FixedPlaces
import PagedReport.Proofs.Json.WrittenNumbers
import PagedReport.Proofs.Thousands

/-! # Formatted numbers

A number, a currency amount and a percentage with fixed places write the number, its magnitude or its
hundredfold, rounded once, half away from zero. They show all their places unless the number is too
large to be filled with zeros. A currency amount has the digits of the number with commas, and
parentheses instead of the minus sign; one that rounds to zero from below keeps the parentheses, where
the number has no sign left.
-/

namespace PagedReport

open NumberFormat (decimalsOf separateThousands)

/-- A text that writes a number by its digits, and is read back as that number. -/
structure Writes (numeral : List Char) (x : ℚ) : Prop where
  spelled : ∃ l : Json.Literal, l.Spells numeral ∧ l.exponent = none ∧ l.toRat = x
  read : ∃ d, Decimal.ofText? (String.ofList numeral) = some d ∧ d.toRat = x

/-- A text that shows a number with as many of the requested decimals as leave it in range. -/
structure ShowsPlaces (numeral : List Char) (places : Nat) (x : ℚ) : Prop where
  greatest : IsGreatest {shown | shown ≤ places ∧
    |roundedTo places x| * tenPow shown ≤ Decimal.limit} (decimalsOf numeral).length
  complete : (decimalsOf numeral).length = places ↔
    |roundedTo places x| * tenPow places ≤ Decimal.limit
  digits : ∀ c ∈ decimalsOf numeral, c.isDigit = true
  point : '.' ∈ numeral ↔ decimalsOf numeral ≠ []

/-- An amount behind its symbol, in parentheses if it is negative. -/
def inCurrency (symbol : String) (negative : Bool) (amount : List Char) : String :=
  let shown := symbol ++ String.ofList amount
  if negative then "(" ++ shown ++ ")" else shown

namespace Numeral

variable {n : Numeral} {cs : List Char}

/-- A numeral that stands for a decimal is read back as that number. -/
theorem writes_chars {e : Decimal} (same : e.toRat = n.toRat) : Writes n.chars n.toRat := by
  have spells := n.spells_literal
  have half : (Decimal.limit : ℚ) < Decimal.limit + 1 / 2 := lt_add_of_pos_right _ (by norm_num)
  have significand := n.significand_literal
  refine ⟨⟨n.literal, spells, rfl, ?_⟩, ?_⟩
  · have power : n.literal.power = 0 := rfl
    rw [Json.Literal.toRat, power, zpow_zero, mul_one, significand]
  · cases run : Decimal.ofPlainChars? n.literal.baseChars with
    | none =>
      have large := spells.ofPlainChars?_eq_none_iff.mp run
      rw [significand, ← same] at large
      exact absurd (e.abs_toRat_le.trans_lt half) (not_lt.mpr large)
    | some d =>
      have rounds := spells.roundsAway_significand run
      refine ⟨d, ?_, ?_⟩
      · rw [spells.ofText?_eq, run]
        rfl
      · rw [rounds.exact (same.trans significand.symm), significand]

theorem IsWrittenAs.writes (written : n.IsWrittenAs cs) {e : Decimal} (same : e.toRat = n.toRat) :
    Writes (cs.filter (· ≠ ',')) n.toRat := by
  rw [written.filter_eq]
  exact writes_chars same

end Numeral

namespace Decimal

variable {d : Decimal} {places : Nat} {cs : List Char}

/-- A number with fixed places writes the rounded number. -/
theorem writes_of_isWrittenAs (written : (d.fixedPlaces places).IsWrittenAs cs) :
    Writes (cs.filter (· ≠ ',')) (roundedTo places d.toRat) := by
  obtain ⟨e, same⟩ := d.exists_toRat_eq_fixedPlaces places
  rw [← toRat_fixedPlaces]
  exact written.writes same

/-- A number with fixed places shows as many as it has room for. -/
theorem showsPlaces_of_isWrittenAs (written : (d.fixedPlaces places).IsWrittenAs cs)
    (short : places ≤ maxPlaces) : ShowsPlaces cs places d.toRat := by
  obtain ⟨decimals, point⟩ := written.decimals_eq
  have greatest := d.isGreatest_places_fixedPlaces short
  have length := (d.fixedPlaces places).length_fractionDigits
  rw [← length, ← decimals] at greatest
  refine ⟨greatest, ⟨fun all => ?_, fun fits => ?_⟩, ?_, point⟩
  · have fits := greatest.1.2
    rwa [all] at fits
  · exact le_antisymm greatest.1.1 (greatest.2 ⟨le_refl places, fits⟩)
  · rw [decimals]
    exact (d.fixedPlaces places).isDigit_of_mem_fractionDigits

end Decimal

namespace NumberFormat

variable {value : Value} {d : Decimal} (read : value.toDecimal? = some d)
include read

/-- A number is written with its fixed places. -/
private theorem exists_format_number (places : Nat) (thousands : Bool) :
    ∃ numeral, (number places thousands).format value = .ok (String.ofList numeral) ∧
      (d.fixedPlaces places).IsWrittenAs numeral := by
  rw [format, read]
  cases thousands with
  | false => exact ⟨_, rfl, .inl rfl⟩
  | true => exact ⟨_, rfl, .inr rfl⟩

/-- A currency amount is the magnitude with its fixed places. -/
private theorem format_currency (places : Nat) (symbol : String) :
    (currency places symbol).format value =
      .ok (inCurrency symbol d.isNegative (separateThousands (d.abs.fixedPlaces places).chars)) := by
  rw [format, read]
  rfl

omit read in
private theorem abs_hundredfold (x : ℚ) : |x * 100| = 100 * |x| := by
  rw [abs_mul, mul_comm, abs_of_pos (show (0 : ℚ) < 100 by norm_num)]

/-- A percentage is refused, or is the hundredfold with its fixed places. -/
private theorem format_percentage (places : Nat) :
    (percentage places).format value = match d.timesHundred? with
      | some percent => .ok (String.ofList (percent.fixedPlaces places).chars ++ "%")
      | none => .error (.percentageTooLarge value) := by
  rw [format, read]
  rfl

private theorem exists_format_percentage (places : Nat) (small : 100 * |d.toRat| ≤ Decimal.limit) :
    ∃ percent : Decimal, percent.toRat = 100 * d.toRat ∧
      (percentage places).format value =
        .ok (String.ofList (percent.fixedPlaces places).chars ++ "%") := by
  rw [format_percentage read]
  cases run : d.timesHundred? with
  | none =>
    have large := Decimal.timesHundred?_eq_none_iff_lt.mp run
    rw [abs_hundredfold] at large
    exact absurd small (not_le.mpr large)
  | some percent => exact ⟨percent, (Decimal.toRat_of_timesHundred? run).trans (mul_comm _ _), rfl⟩

/-- Formatted numbers write the number rounded once, half away from zero. A currency amount is its
magnitude and a percentage its hundredfold, which is refused only if it is out of range. -/
theorem format_rounds_once (places : Nat) :
    (∀ thousands, ∃ numeral,
      (number places thousands).format value = .ok (String.ofList numeral) ∧
      Writes (numeral.filter (· ≠ ',')) (roundedTo places d.toRat)) ∧
    (∀ symbol, ∃ amount,
      (currency places symbol).format value = .ok (inCurrency symbol d.isNegative amount) ∧
      Writes (amount.filter (· ≠ ',')) (roundedTo places |d.toRat|)) ∧
    ((percentage places).format value = .error (.percentageTooLarge value) ↔
      (Decimal.limit : ℚ) < 100 * |d.toRat|) ∧
    (100 * |d.toRat| ≤ (Decimal.limit : ℚ) → ∃ numeral,
      (percentage places).format value = .ok (String.ofList numeral ++ "%") ∧
      Writes numeral (roundedTo places (100 * d.toRat))) := by
  refine ⟨fun thousands => ?_, fun symbol => ?_, ?_, fun small => ?_⟩
  · obtain ⟨numeral, run, written⟩ := exists_format_number read places thousands
    exact ⟨numeral, run, Decimal.writes_of_isWrittenAs written⟩
  · refine ⟨_, format_currency read places symbol, ?_⟩
    rw [← Numeral.toRat_abs]
    exact Decimal.writes_of_isWrittenAs (d := d.abs) (.inr rfl)
  · rw [← abs_hundredfold, ← Decimal.timesHundred?_eq_none_iff_lt, format_percentage read]
    cases d.timesHundred? <;> simp
  · obtain ⟨percent, exact, run⟩ := exists_format_percentage read places small
    refine ⟨_, run, ?_⟩
    have plain : (percent.fixedPlaces places).IsWrittenAs (percent.fixedPlaces places).chars := .inl rfl
    have writes := Decimal.writes_of_isWrittenAs plain
    rwa [plain.filter_eq, exact] at writes

omit read in
/-- Half a cent below twelve hundred and thirty-four is rounded away from zero, and its sign and the
comma are put around the digits. -/
theorem format_rounds_once_text :
    (∃ numeral, (number 2 true).format (.text "-1234.005") = .ok (String.ofList numeral) ∧
      Writes (numeral.filter (· ≠ ',')) (-123401 / 100)) ∧
    (∃ numeral, (percentage 0).format (.text "-1234.005") = .ok (String.ofList numeral ++ "%") ∧
      Writes numeral (-123401)) := by
  let d : Decimal := ⟨⟨-1234005, 3⟩, by decide, by decide⟩
  have read : (Value.text "-1234.005").toDecimal? = some d := by decide +kernel
  have cents : roundedTo 2 d.toRat = -123401 / 100 := by decide +kernel
  have percent : roundedTo 0 (100 * d.toRat) = -123401 := by decide +kernel
  have small : 100 * |d.toRat| ≤ (Decimal.limit : ℚ) := by decide +kernel
  obtain ⟨shown, _⟩ := format_rounds_once read 2
  obtain ⟨_, _, _, hundredfold⟩ := format_rounds_once read 0
  rw [← cents, ← percent]
  exact ⟨shown true, hundredfold small⟩

/-- Fixed places are all shown unless the coefficient of the rounded number has no room for them. Then
as many are shown as there is room for. -/
theorem format_shows_places {places : Nat} (short : places ≤ Decimal.maxPlaces) :
    (∀ thousands, ∃ numeral,
      (number places thousands).format value = .ok (String.ofList numeral) ∧
      ShowsPlaces numeral places d.toRat) ∧
    (∀ symbol, ∃ amount,
      (currency places symbol).format value = .ok (inCurrency symbol d.isNegative amount) ∧
      ShowsPlaces amount places |d.toRat|) ∧
    (100 * |d.toRat| ≤ (Decimal.limit : ℚ) → ∃ numeral,
      (percentage places).format value = .ok (String.ofList numeral ++ "%") ∧
      ShowsPlaces numeral places (100 * d.toRat)) := by
  refine ⟨fun thousands => ?_, fun symbol => ?_, fun small => ?_⟩
  · obtain ⟨numeral, run, written⟩ := exists_format_number read places thousands
    exact ⟨numeral, run, Decimal.showsPlaces_of_isWrittenAs written short⟩
  · refine ⟨_, format_currency read places symbol, ?_⟩
    rw [← Numeral.toRat_abs]
    exact Decimal.showsPlaces_of_isWrittenAs (d := d.abs) (.inr rfl) short
  · obtain ⟨percent, exact, run⟩ := exists_format_percentage read places small
    refine ⟨_, run, ?_⟩
    rw [← exact]
    exact Decimal.showsPlaces_of_isWrittenAs (.inl rfl) short

omit read in
/-- Two thirds of a cent less than a dollar are shown with two places. -/
theorem format_shows_places_text : ∃ numeral,
    (number 2 true).format (.text "0.9933") = .ok (String.ofList numeral) ∧
      (decimalsOf numeral).length = 2 := by
  let d : Decimal := ⟨⟨9933, 4⟩, by decide, by decide⟩
  have read : (Value.text "0.9933").toDecimal? = some d := by decide +kernel
  have fits : |roundedTo 2 d.toRat| * tenPow 2 ≤ Decimal.limit := by decide +kernel
  obtain ⟨numeral, run, shows⟩ := (format_shows_places read (show 2 ≤ Decimal.maxPlaces by decide)).1 true
  exact ⟨numeral, run, shows.complete.mpr fits⟩

omit read in
/-- The greatest decimal has no room for a single place. -/
theorem format_number_without_places : ∃ d : Decimal, d.text = "79228162514264337593543950335" ∧
    ∃ numeral, (number 2 false).format (.number d) = .ok (String.ofList numeral) ∧
      decimalsOf numeral = [] := by
  let d : Decimal := ⟨⟨79228162514264337593543950335, 0⟩, by decide, by decide⟩
  exact ⟨d, by decide +kernel, d.chars, by decide +kernel, by decide +kernel⟩

/-- A currency amount and a number with commas show the same digits. A number has its sign after it has
been rounded, a currency amount has parentheses by its own sign, so they differ for a negative amount
that rounds to zero. -/
theorem format_currency_of_number (places : Nat) (symbol : String) : ∃ amount : List Char,
    '-' ∉ amount ∧ Writes (amount.filter (· ≠ ',')) (roundedTo places |d.toRat|) ∧
    (number places true).format value =
      .ok (String.ofList (if roundedTo places d.toRat < 0 then '-' :: amount else amount)) ∧
    (currency places symbol).format value =
      .ok (inCurrency symbol (decide (d.toRat < 0)) amount) ∧
    (roundedTo places d.toRat < 0 ↔ d.toRat < 0 ∧ roundedTo places d.toRat ≠ 0) := by
  have magnitude : (d.abs.fixedPlaces places).chars = (d.fixedPlaces places).abs.chars := by
    rw [Decimal.fixedPlaces_abs]
  -- The minus sign is that of the rounded coefficient, the parentheses are those of the number.
  have sign : (d.fixedPlaces places).signChars =
      if roundedTo places d.toRat < 0 then ['-'] else [] := by
    simp only [Numeral.signChars, ← Numeral.toRat_neg_iff, Decimal.toRat_fixedPlaces]
  have negative : d.isNegative = decide (d.toRat < 0) := by
    rw [Bool.eq_iff_iff, decide_eq_true_eq, Decimal.toRat_neg_iff]
  refine ⟨separateThousands (d.abs.fixedPlaces places).chars, ?_, ?_, ?_, ?_, roundedTo_neg_iff⟩
  · rw [magnitude]
    exact (d.fixedPlaces places).notMem_separateThousands_abs
  · rw [← Numeral.toRat_abs]
    exact Decimal.writes_of_isWrittenAs (d := d.abs) (.inr rfl)
  · have run : (number places true).format value =
        .ok (String.ofList (separateThousands (d.fixedPlaces places).chars)) := by
      rw [format, read]
      rfl
    rw [run, Numeral.separateThousands_chars_abs, sign, magnitude]
    split <;> rfl
  · rw [format_currency read, negative]

omit read in
/-- A negative amount that does not round to zero. -/
theorem format_currency_of_number_text : ∃ amount,
    (number 0 true).format (.text "-1234.5") = .ok (String.ofList ('-' :: amount)) ∧
      (currency 0 "$").format (.text "-1234.5") = .ok (inCurrency "$" true amount) := by
  let d : Decimal := ⟨⟨-12345, 1⟩, by decide, by decide⟩
  have read : (Value.text "-1234.5").toDecimal? = some d := by decide +kernel
  have below : roundedTo 0 d.toRat < 0 := by decide +kernel
  have negative : decide (d.toRat < 0) = true := by decide +kernel
  obtain ⟨amount, _, _, number, currency, _⟩ := format_currency_of_number read 0 "$"
  rw [if_pos below] at number
  rw [negative] at currency
  exact ⟨amount, number, currency⟩

omit read in
/-- A hundredth of a cent below zero is shown as zero, and as a currency amount still as negative. -/
theorem format_currency_negative_zero : ∃ d : Decimal, d.text = "-0.0001" ∧
    (number 0 true).format (.number d) = .ok "0" ∧
    (currency 0 "$").format (.number d) = .ok "($0)" := by
  let d : Decimal := ⟨⟨-1, 4⟩, by decide, by decide⟩
  exact ⟨d, by decide +kernel, by decide +kernel, by decide +kernel⟩

end NumberFormat

end PagedReport
