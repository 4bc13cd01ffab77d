import Mathlib.Data.List.TakeWhile
import PagedReport.NumberFormat
import PagedReport.Proofs.Decimal.Digits

/-! # Commas between thousands

Commas between thousands change nothing but the digits before the decimal point, and removing them
gives the numeral back. Sign and decimals stay where they are. Behind every comma stand three digits, and
before the first one stand one to three.
-/

namespace PagedReport

namespace NumberFormat

/-- The characters after the decimal point of a numeral. -/
def decimalsOf (numeral : List Char) : List Char := (numeral.dropWhile (· ≠ '.')).tail

theorem decimalsOf_of_notMem {numeral : List Char} (whole : '.' ∉ numeral) : decimalsOf numeral = [] := by
  have all : numeral.dropWhile (· ≠ '.') = [] := by
    rw [List.dropWhile_eq_nil_iff]
    intro c member
    apply decide_eq_true
    rintro rfl
    exact whole member
  rw [decimalsOf, all, List.tail_nil]

theorem decimalsOf_append {front : List Char} (whole : '.' ∉ front) (digits : List Char) :
    decimalsOf (front ++ '.' :: digits) = digits := by
  have solid : ∀ c ∈ front, decide (c ≠ '.') = true := by
    intro c member
    apply decide_eq_true
    rintro rfl
    exact whole member
  have skipped : (front ++ '.' :: digits).dropWhile (· ≠ '.') = '.' :: digits := by
    rw [List.dropWhile_append_of_pos solid]
    simp
  rw [decimalsOf, skipped, List.tail_cons]

/-- Nothing but commas is put between digits. -/
theorem mem_or_eq_of_mem_groupThousands {digits : List Char} {c : Char}
    (member : c ∈ groupThousands digits) : c ∈ digits ∨ c = ',' := by
  fun_induction groupThousands digits with
  | case1 => cases member
  | case2 d => exact .inl member
  | case3 d rest _ _ ih =>
    simp only [List.mem_cons] at member ⊢
    tauto
  | case4 d rest _ _ ih =>
    simp only [List.mem_cons] at member ⊢
    tauto

/-- Without the commas the digits are as they were. -/
theorem filter_groupThousands {digits : List Char} (solid : ∀ c ∈ digits, c ≠ ',') :
    (groupThousands digits).filter (· ≠ ',') = digits := by
  fun_induction groupThousands digits with
  | case1 => rfl
  | case2 d => simpa using solid d List.mem_cons_self
  | case3 d rest _ _ ih =>
    have others := ih fun c member => solid c (List.mem_cons_of_mem _ member)
    simpa [solid d List.mem_cons_self] using others
  | case4 d rest _ _ ih =>
    have others := ih fun c member => solid c (List.mem_cons_of_mem _ member)
    simpa [solid d List.mem_cons_self] using others

/-- Only the digits before the point are parted. -/
theorem separateThousands_append {sign whole fraction : List Char} (signed : sign = [] ∨ sign = ['-'])
    (digits : ∀ c ∈ whole, c.isDigit = true) (pointed : ∀ c ∈ fraction.head?, c = '.') :
    separateThousands (sign ++ whole ++ fraction) = sign ++ groupThousands whole ++ fraction := by
  have solid : ∀ c ∈ sign ++ whole, decide (c ≠ '.') = true := by
    intro c member
    apply decide_eq_true
    rintro rfl
    rcases List.mem_append.mp member with front | digit
    · rcases signed with rfl | rfl <;> simp at front
    · cases digits '.' digit
  have parts : (sign ++ whole ++ fraction).span (· ≠ '.') = (sign ++ whole, fraction) := by
    rw [List.span_eq_takeWhile_dropWhile, List.takeWhile_append_of_pos solid,
      List.dropWhile_append_of_pos solid]
    cases fraction with
    | nil => simp
    | cons c rest =>
      obtain rfl := pointed c rfl
      simp
  have kept : whole.filter Char.isDigit = whole := List.filter_eq_self.mpr digits
  rw [separateThousands, parts]
  dsimp only
  rcases signed with rfl | rfl
  · have unsigned : ([] ++ whole).head? ≠ some '-' := by
      rw [List.nil_append]
      intro minus
      cases digits '-' (List.mem_of_mem_head? minus)
    rw [if_neg unsigned]
    simp only [List.nil_append, kept]
  · have minus : (['-'] ++ whole).head? = some '-' := rfl
    have dropped : (['-'] ++ whole).filter Char.isDigit = whole := kept
    rw [if_pos minus, dropped]

/-- Without the commas a numeral is as it was. -/
theorem filter_separateThousands {sign whole fraction : List Char} (signed : sign = [] ∨ sign = ['-'])
    (digits : ∀ c ∈ whole, c.isDigit = true) (pointed : ∀ c ∈ fraction.head?, c = '.')
    (solid : ',' ∉ fraction) :
    (separateThousands (sign ++ whole ++ fraction)).filter (· ≠ ',') = sign ++ whole ++ fraction := by
  have signKept : sign.filter (· ≠ ',') = sign := by
    rcases signed with rfl | rfl <;> rfl
  have digitsKept : (groupThousands whole).filter (· ≠ ',') = whole := by
    apply filter_groupThousands
    rintro c member rfl
    cases digits ',' member
  have fractionKept : fraction.filter (· ≠ ',') = fraction := by
    apply List.filter_eq_self.mpr
    intro c member
    apply decide_eq_true
    rintro rfl
    exact solid member
  rw [separateThousands_append signed digits pointed, List.filter_append, List.filter_append, signKept,
    digitsKept, fractionKept]

/-- Digits divided into groups of three from the right; one to three digits are left for the first
group. -/
structure IsGrouping (first : List Char) (groups : List (List Char)) : Prop where
  one_le : 1 ≤ first.length
  le_three : first.length ≤ 3
  three : ∀ group ∈ groups, group.length = 3

theorem IsGrouping.length_eq {first : List Char} {groups : List (List Char)}
    (grouping : IsGrouping first groups) :
    (first ++ groups.flatten).length = first.length + groups.length * 3 := by
  rw [List.length_append, List.length_flatten, List.map_eq_replicate_iff.mpr grouping.three,
    List.sum_replicate_nat]

/-- A comma stands before every group but the first. -/
theorem exists_grouping {digits : List Char} (filled : digits ≠ []) :
    ∃ first groups, IsGrouping first groups ∧ digits = first ++ groups.flatten ∧
      groupThousands digits = first ++ groups.flatMap (',' :: ·) := by
  fun_induction groupThousands digits with
  | case1 => exact absurd rfl filled
  | case2 d => exact ⟨[d], [], ⟨by simp, by simp, by simp⟩, rfl, rfl⟩
  | case3 d rest more third ih =>
    -- The number of digits behind `d` is a multiple of three, so their first group is full.
    obtain ⟨first, groups, grouping, rfl, written⟩ := ih more
    have total := grouping.length_eq
    have one := grouping.one_le
    have short := grouping.le_three
    have full : first.length = 3 := by omega
    refine ⟨[d], first :: groups, ⟨by simp, by simp, ?_⟩, rfl, by rw [written]; rfl⟩
    exact List.forall_mem_cons.mpr ⟨full, grouping.three⟩
  | case4 d rest more between ih =>
    obtain ⟨first, groups, grouping, rfl, written⟩ := ih more
    have total := grouping.length_eq
    have short := grouping.le_three
    refine ⟨d :: first, groups, ⟨by simp, ?_, grouping.three⟩, rfl, by rw [written]; rfl⟩
    rw [List.length_cons]
    omega

/-- In the whole part of a numeral a first group of one to three digits is followed by groups of a comma
and three digits. The sign and the decimals stay as they are, and nothing but commas is added. -/
theorem separateThousands_grouped {sign whole fraction : List Char} (signed : sign = [] ∨ sign = ['-'])
    (filled : whole ≠ []) (digits : ∀ c ∈ whole, c.isDigit = true)
    (pointed : fraction = [] ∨
      ∃ decimals, fraction = '.' :: decimals ∧ ∀ c ∈ decimals, c.isDigit = true) :
    ∃ first groups, IsGrouping first groups ∧ whole = first ++ groups.flatten ∧
      separateThousands (sign ++ whole ++ fraction) =
        sign ++ (first ++ groups.flatMap (',' :: ·)) ++ fraction ∧
      (separateThousands (sign ++ whole ++ fraction)).filter (· ≠ ',') = sign ++ whole ++ fraction := by
  obtain ⟨first, groups, grouping, parted, written⟩ := exists_grouping filled
  have point : ∀ c ∈ fraction.head?, c = '.' := by
    rcases pointed with rfl | ⟨decimals, rfl, _⟩ <;> simp
  have solid : ',' ∉ fraction := by
    rcases pointed with rfl | ⟨decimals, rfl, digits⟩
    · exact List.not_mem_nil
    · intro member
      rcases List.mem_cons.mp member with point | digit
      · cases point
      · cases digits ',' digit
  refine ⟨first, groups, grouping, parted, ?_, filter_separateThousands signed digits point solid⟩
  rw [separateThousands_append signed digits point, written]

/-- A first group of one digit, and two groups of three, behind a sign and before decimals. -/
theorem separateThousands_grouped_millions :
    ("1234567".toList ≠ [] ∧ ∀ c ∈ "1234567".toList, c.isDigit = true) ∧
      (∃ decimals, ".8950".toList = '.' :: decimals ∧ ∀ c ∈ decimals, c.isDigit = true) ∧
      separateThousands "-1234567.8950".toList = "-1,234,567.8950".toList ∧
      ∃ first groups, IsGrouping first groups ∧ "1234567".toList = first ++ groups.flatten ∧
        separateThousands "-1234567.8950".toList =
          "-".toList ++ (first ++ groups.flatMap (',' :: ·)) ++ ".8950".toList ∧
        (separateThousands "-1234567.8950".toList).filter (· ≠ ',') = "-1234567.8950".toList := by
  have filled : "1234567".toList ≠ [] := by decide
  have digits : ∀ c ∈ "1234567".toList, c.isDigit = true := List.all_eq_true.mp rfl
  have pointed : ∃ decimals, ".8950".toList = '.' :: decimals ∧ ∀ c ∈ decimals, c.isDigit = true :=
    ⟨"8950".toList, rfl, List.all_eq_true.mp rfl⟩
  exact ⟨⟨filled, digits⟩, pointed, by decide,
    separateThousands_grouped (.inr rfl) filled digits (.inr pointed)⟩

end NumberFormat

namespace Numeral

open NumberFormat

variable (n : Numeral)

/-- The sign of a numeral as it is written. -/
def signChars : List Char := if n.coefficient < 0 then ['-'] else []

/-- The end of a numeral as it is written, from the point on. -/
def fractionChars : List Char := if n.places = 0 then [] else '.' :: n.fractionDigits

theorem chars_eq : n.chars = n.signChars ++ n.wholeDigits ++ n.fractionChars := rfl

theorem signChars_eq : n.signChars = [] ∨ n.signChars = ['-'] := by
  unfold signChars
  split
  · exact .inr rfl
  · exact .inl rfl

theorem signChars_abs : n.abs.signChars = [] := if_neg (Int.not_lt.mpr (Int.natCast_nonneg _))

/-- A numeral is its sign and the numeral of its magnitude. -/
theorem chars_eq_signChars_append : n.chars = n.signChars ++ n.abs.chars := by
  have digits : n.abs.paddedDigits = n.paddedDigits := by
    simp only [paddedDigits, Numeral.abs, Int.natAbs_natCast]
  have whole : n.abs.wholeDigits = n.wholeDigits := by
    rw [wholeDigits, digits]
    rfl
  have fraction : n.abs.fractionChars = n.fractionChars := by
    rw [fractionChars, fractionDigits, digits]
    rfl
  rw [chars_eq, chars_eq, signChars_abs, whole, fraction, List.nil_append, List.append_assoc]

private theorem eq_point_of_mem_head? : ∀ c ∈ n.fractionChars.head?, c = '.' := by
  unfold fractionChars
  split <;> simp

private theorem comma_notMem_fractionChars : ',' ∉ n.fractionChars := by
  intro member
  unfold fractionChars at member
  split at member
  · cases member
  · rcases List.mem_cons.mp member with point | digit
    · cases point
    · cases n.isDigit_of_mem_fractionDigits ',' digit

theorem separateThousands_chars :
    separateThousands n.chars = n.signChars ++ groupThousands n.wholeDigits ++ n.fractionChars := by
  rw [chars_eq, separateThousands_append n.signChars_eq n.isDigit_of_mem_wholeDigits n.eq_point_of_mem_head?]

/-- Commas stand behind the sign. -/
theorem separateThousands_chars_abs :
    separateThousands n.chars = n.signChars ++ separateThousands n.abs.chars := by
  have parts := n.chars_eq_signChars_append
  rw [chars_eq n.abs, signChars_abs, List.nil_append, ← List.append_assoc] at parts
  rw [parts, separateThousands_append n.signChars_eq n.abs.isDigit_of_mem_wholeDigits
      n.abs.eq_point_of_mem_head?, separateThousands_chars, signChars_abs, List.nil_append, List.append_assoc]

/-- A magnitude has no sign. -/
theorem notMem_separateThousands_abs : '-' ∉ separateThousands n.abs.chars := by
  rw [separateThousands_chars, signChars_abs, List.nil_append]
  intro member
  rcases List.mem_append.mp member with whole | fraction
  · rcases mem_or_eq_of_mem_groupThousands whole with digit | comma
    · cases n.abs.isDigit_of_mem_wholeDigits '-' digit
    · cases comma
  · unfold fractionChars at fraction
    split at fraction
    · cases fraction
    · rcases List.mem_cons.mp fraction with point | digit
      · cases point
      · cases n.abs.isDigit_of_mem_fractionDigits '-' digit

/-- The written forms of a numeral: plain, or with commas between the thousands. -/
def IsWrittenAs (cs : List Char) : Prop := cs = n.chars ∨ cs = separateThousands n.chars

namespace IsWrittenAs

variable {n : Numeral} {cs : List Char} (written : n.IsWrittenAs cs)
include written

private theorem exists_parts : ∃ whole, cs = n.signChars ++ whole ++ n.fractionChars ∧
    ∀ c ∈ whole, c.isDigit = true ∨ c = ',' := by
  rcases written with plain | parted
  · exact ⟨n.wholeDigits, plain, fun c member => .inl (n.isDigit_of_mem_wholeDigits c member)⟩
  · refine ⟨groupThousands n.wholeDigits, parted.trans n.separateThousands_chars, ?_⟩
    intro c member
    exact (mem_or_eq_of_mem_groupThousands member).imp_left (n.isDigit_of_mem_wholeDigits c)

/-- Without commas a numeral is written in one way. -/
theorem filter_eq : cs.filter (· ≠ ',') = n.chars := by
  have parted : (separateThousands n.chars).filter (· ≠ ',') = n.chars :=
    filter_separateThousands n.signChars_eq n.isDigit_of_mem_wholeDigits n.eq_point_of_mem_head?
      n.comma_notMem_fractionChars
  rcases written with rfl | rfl
  · refine List.filter_eq_self.mpr fun c member => ?_
    rw [← parted] at member
    exact (List.mem_filter.mp member).2
  · exact parted

/-- The characters after the point are the decimals, and there is a point only before decimals. -/
theorem decimals_eq :
    decimalsOf cs = n.fractionDigits ∧ ('.' ∈ cs ↔ decimalsOf cs ≠ []) := by
  obtain ⟨whole, rfl, digits⟩ := written.exists_parts
  have front : '.' ∉ n.signChars ++ whole := by
    intro member
    rcases List.mem_append.mp member with sign | digit
    · rcases n.signChars_eq with none | minus
      · rw [none] at sign
        cases sign
      · rw [minus] at sign
        simp at sign
    · rcases digits '.' digit with digit | comma
      · cases digit
      · cases comma
  have length := n.length_fractionDigits
  by_cases none : n.places = 0
  · have empty : n.fractionDigits = [] := List.eq_nil_of_length_eq_zero (length.trans none)
    rw [fractionChars, if_pos none, List.append_nil, decimalsOf_of_notMem front, empty]
    simpa using front
  · have some : n.fractionDigits ≠ [] := List.ne_nil_of_length_pos (by omega)
    rw [fractionChars, if_neg none, decimalsOf_append front]
    simpa using some

end IsWrittenAs

end Numeral

end PagedReport
