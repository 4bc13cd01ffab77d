import PagedReport.Proofs.Decimal.Value
import PagedReport.Section

/-! # Agreement of values

Values are compared by their meaning, which for a number is the rational number that it names. So
agreement is an equivalence, of single values as well as of the keys of rows, and a run of rows can
be told by any of its rows.
-/

namespace PagedReport

/-- What a value is compared by. -/
inductive Meaning where
  | null
  | boolean (b : Bool)
  | number (q : ℚ)
  | text (s : String)

namespace Value

/-- The meaning of a value. -/
def meaning : Value → Meaning
  | .null => .null
  | .boolean b => .boolean b
  | .number n => .number n.toRat
  | .text s => .text s

/-- Values agree when they mean the same. -/
theorem agrees_iff (a b : Value) : a.agrees b = true ↔ a.meaning = b.meaning := by
  cases a <;> cases b <;> simp [agrees, meaning, Decimal.sameNumber_iff]

end Value

private theorem isEqv_agrees_iff (first second : List Value) :
    first.isEqv second Value.agrees = true ↔
      first.map Value.meaning = second.map Value.meaning := by
  induction first generalizing second with
  | nil => cases second <;> simp [List.isEqv]
  | cons value rest ih =>
    cases second with
    | nil => simp [List.isEqv]
    | cons other others => simp [List.isEqv, Value.agrees_iff, ih]

/-- Whether two rows have the same value in a column. -/
def sameValue (column : Nat) (row other : Row) : Bool :=
  (row.getD column .null).agrees (other.getD column .null)

/-- Whether two rows belong to the same section when they follow one another. -/
def sameSection (columns : List Column) (row other : Row) : Bool :=
  (SectionKey.ofRow columns row).agrees (.ofRow columns other)

/-- Rows with the same value in a column are alike for every comparison in it. -/
theorem sameValue_congr {column : Nat} {row other : Row} (same : sameValue column row other = true) :
    (sameValue column · row) = (sameValue column · other) := by
  rw [sameValue, Value.agrees_iff] at same
  funext earlier
  rw [Bool.eq_iff_iff, sameValue, sameValue, Value.agrees_iff, Value.agrees_iff, same]

theorem SectionKey.agrees_iff (a b : SectionKey) :
    a.agrees b = true ↔ a.values.map Value.meaning = b.values.map Value.meaning :=
  isEqv_agrees_iff a.values b.values

/-- Rows of one section are alike for every comparison of sections. -/
theorem sameSection_congr {columns : List Column} {row other : Row}
    (same : sameSection columns row other = true) :
    sameSection columns row = sameSection columns other := by
  rw [sameSection, SectionKey.agrees_iff] at same
  funext later
  rw [Bool.eq_iff_iff, sameSection, sameSection, SectionKey.agrees_iff, SectionKey.agrees_iff, same]

@[simp] theorem sameSection_refl (columns : List Column) (row : Row) :
    sameSection columns row row = true := by
  rw [sameSection, SectionKey.agrees_iff]

end PagedReport
