/-! # Coordinates

Places and lengths on a page are coordinates: whole numbers of thirty-two binary digits, with a sign.
A sum or a product beyond their range is not refused. It wraps around, to the coordinate that differs
from it by a multiple of the number of coordinates. Since sums and products agree with this, a formula
wraps to the same coordinate at its end as after each of its steps.
-/

namespace PagedReport.Coordinate

/-- The least coordinate. -/
def least : Int := -2147483648

/-- The greatest coordinate. -/
def greatest : Int := 2147483647

/-- How many coordinates there are. -/
def count : Nat := 4294967296

/-- The coordinate as which a number is kept. -/
def wrap (n : Int) : Int := n.bmod count

/-- Whether a number is a coordinate. -/
def InRange (n : Int) : Prop := least ≤ n ∧ n ≤ greatest

instance (n : Int) : Decidable (InRange n) := inferInstanceAs (Decidable (_ ∧ _))

theorem inRange_wrap (n : Int) : InRange (wrap n) := by
  have low : -((count : Int) / 2) ≤ wrap n := Int.le_bmod (by decide)
  have high : wrap n < ((count : Int) + 1) / 2 := Int.bmod_lt (by decide)
  simp only [InRange, least, greatest, count] at low high ⊢
  omega

/-- A coordinate is kept as it is. -/
theorem wrap_of_inRange {n : Int} (range : InRange n) : wrap n = n := by
  obtain ⟨low, high⟩ := range
  simp only [least, greatest] at low high
  apply Int.bmod_eq_of_le
  · simp only [count]
    omega
  · simp only [count]
    omega

theorem inRange_of_nonneg {n : Int} (nonneg : 0 ≤ n) (high : n ≤ greatest) : InRange n :=
  ⟨Int.le_trans (by decide) nonneg, high⟩

/-- A number that is neither negative nor greater than any coordinate is kept as it is. -/
theorem wrap_of_nonneg {n : Int} (nonneg : 0 ≤ n) (high : n ≤ greatest) : wrap n = n :=
  wrap_of_inRange (inRange_of_nonneg nonneg high)

@[simp] theorem wrap_wrap (n : Int) : wrap (wrap n) = wrap n := wrap_of_inRange (inRange_wrap n)

theorem inRange_zero : InRange 0 := by decide

@[simp] theorem wrap_zero : wrap 0 = 0 := wrap_of_inRange inRange_zero

/-- A number that wraps around at all, but not below the range, becomes smaller. -/
theorem wrap_le {n : Int} (low : least ≤ n) : wrap n ≤ n := by
  by_cases high : n ≤ greatest
  · exact Int.le_of_eq (wrap_of_inRange ⟨low, high⟩)
  · have bound := (inRange_wrap n).2
    omega

theorem wrap_eq_iff {n : Int} : wrap n = n ↔ InRange n :=
  ⟨fun kept => kept ▸ inRange_wrap n, wrap_of_inRange⟩

@[simp] theorem wrap_add_wrap_left (a b : Int) : wrap (wrap a + b) = wrap (a + b) :=
  Int.bmod_add_bmod

@[simp] theorem wrap_add_wrap_right (a b : Int) : wrap (a + wrap b) = wrap (a + b) :=
  Int.add_bmod_bmod

end PagedReport.Coordinate
