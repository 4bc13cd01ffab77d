/-! # Powers of ten and of two

Decimals are scaled by powers of ten and binary numbers by powers of two, with exponents that are
natural numbers.
-/

namespace PagedReport

/-- The number that a decimal point is moved by: a one and `k` zeros. -/
def tenPow (k : Nat) : Nat := Nat.pow 10 k

/-- The number that a binary point is moved by. -/
def twoPow (k : Nat) : Nat := Nat.pow 2 k

example : tenPow 3 = 1000 ∧ tenPow 0 = 1 ∧ twoPow 10 = 1024 := by decide

end PagedReport
