/-! # Rounding a quotient

One function rounds the quotient of two natural numbers to a whole number. It differs between its
uses only in where an exact half goes: away from zero when a number is shown with fewer decimals,
to the even neighbour when a sum or product has to lose decimals.
-/

namespace PagedReport

/-- Where a value half way between two whole numbers goes. -/
inductive Tie where
  | awayFromZero
  | toEven
deriving DecidableEq, Repr

/-- The whole number nearest to `n / d`, for a positive `d`. -/
def roundQuotient (tie : Tie) (n d : Nat) : Nat :=
  let quotient := n / d
  let twice := 2 * (n % d)
  if twice < d then quotient
  else if d < twice then quotient + 1
  else match tie with
    | .awayFromZero => quotient + 1
    | .toEven => if quotient % 2 = 0 then quotient else quotient + 1

/-- The integer nearest to `n / d`, rounded by magnitude. -/
def roundSigned (tie : Tie) (n : Int) (d : Nat) : Int :=
  n.sign * (roundQuotient tie n.natAbs d : Int)

example : roundSigned .awayFromZero (-25) 10 = -3 ∧ roundSigned .toEven (-25) 10 = -2 := by decide
example : roundSigned .toEven 35 10 = 4 ∧ roundSigned .toEven (-4) 10 = 0 := by decide

end PagedReport
