import Shooting.Rounding

/-!
# Rounding to decimal grids

Everything here is exact arithmetic on natural numbers. A non-negative rational is a numerator over
a denominator, a `Decimal` is a coefficient times a power of ten, and rounding picks the nearest
point of a grid of such numbers.
-/

namespace Shooting

/-- The number `coefficient * 10 ^ exponent`. -/
structure Decimal where
  coefficient : Nat
  exponent : Int
  deriving DecidableEq, Repr

namespace Decimal

/-- The digits of a number, most significant first. -/
def digits (n : Nat) : List Char := Nat.toDigits 10 n

/-- The exponent `e` with `10 ^ e ≤ num / den < 10 ^ (e + 1)`, for a positive quotient. -/
def magnitude (num den : Nat) : Int :=
  if den ≤ num then ((digits (num / den)).length : Int) - 1
  else
    let k := (digits (den / num)).length
    if den ≤ num * Nat.pow 10 (k - 1) then -((k : Int) - 1) else -(k : Int)

/-- `num / den` on the grid of multiples of `10 ^ e`, a tie going to the even coefficient. -/
def roundTo (num den : Nat) (e : Int) : Decimal :=
  if 0 ≤ e then ⟨roundDiv .even num (den * Nat.pow 10 e.toNat), e⟩
  else ⟨roundDiv .even (num * Nat.pow 10 (-e).toNat) den, e⟩

/-- `num / den` with `p + 1` significant digits, for a positive quotient. -/
def roundSignificant (num den p : Nat) : Decimal :=
  let d := roundTo num den (magnitude num den - p)
  -- rounding up can reach the next power of ten, which has a digit more
  if d.coefficient = Nat.pow 10 (p + 1) then ⟨Nat.pow 10 p, d.exponent + 1⟩ else d

/-- Moves factors of ten from the coefficient into the exponent. -/
def trim (d : Decimal) : Decimal :=
  let ds := digits d.coefficient
  let zeros := (ds.reverse.takeWhile (· = '0')).length
  if d.coefficient = 0 then d else ⟨d.coefficient / Nat.pow 10 zeros, d.exponent + zeros⟩

end Decimal

end Shooting
