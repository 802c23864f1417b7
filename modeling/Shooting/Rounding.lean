/-!
# Rounding a quotient

The integer nearest to a quotient of natural numbers. Where two integers are equally near, a `Tie`
decides.
-/

namespace Shooting

/-- Which of two equally near integers is taken. -/
inductive Tie where
  /-- The even one. -/
  | even
  /-- The larger one. -/
  | up
  deriving DecidableEq, Repr

/-- The choice between `q` and `q + 1`. -/
def Tie.choose : Tie → Nat → Nat
  | even, q => q + q % 2
  | up, q => q + 1

/-- The integer nearest to `num / den`. -/
def roundDiv (tie : Tie) (num den : Nat) : Nat :=
  let q := num / den
  let r := num % den
  if 2 * r < den then q else if den < 2 * r then q + 1 else tie.choose q

end Shooting
