import Shooting.Binary

/-!
# Scalars

The arithmetic that trajectory optimization asks of its numbers. Everything in this library that
computes is written once over `Scalar`, in a fixed order of operations, so that one definition has
a floating-point reading (`Float`, below) and can have an exact one (a field with the same
operations). Nothing here assumes a law: comparisons may be undefined on some values, and then
both `a < b` and `b ≤ a` fail.

The derived `max`, `min` and `clamp` state what happens to a value that compares with nothing.
-/

namespace Shooting

/-- The operations on numbers used by models and solvers. -/
class Scalar (α : Type) extends
    Zero α, One α, Add α, Sub α, Mul α, Div α, Neg α, OfScientific α, LT α, LE α, BEq α where
  decidableLT : DecidableLT α
  decidableLE : DecidableLE α
  /-- `mulAdd a b c` is `a * b + c` without an error in the product. -/
  mulAdd : α → α → α → α
  sqrt : α → α
  /-- The length of the hypotenuse over two legs. -/
  hypot : α → α → α
  cbrt : α → α
  sin : α → α
  cos : α → α
  /-- The angle of the point with ordinate first and abscissa second. -/
  atan2 : α → α → α
  /-- Half a turn. -/
  pi : α
  /-- Whether a value is an ordinary number. -/
  isFinite : α → Bool
  /-- Whether a value compares with nothing, itself included. -/
  isNaN : α → Bool

namespace Scalar

variable {α : Type} [Scalar α]

instance : DecidableLT α := Scalar.decidableLT
instance : DecidableLE α := Scalar.decidableLE

/-- The distance from zero. -/
def abs (a : α) : α := if a < 0 then -a else a

/-- `1` for values from zero on and `-1` for all others. -/
def sign (a : α) : α := if 0 ≤ a then 1 else -1

/-- The larger of two values; a value that compares with nothing gives way to the other. -/
def max (a b : α) : α :=
  if isNaN a then b else if isNaN b then a else if a < b then b else a

/-- The smaller of two values; a value that compares with nothing gives way to the other. -/
def min (a b : α) : α :=
  if isNaN a then b else if isNaN b then a else if b < a then b else a

/-- The value of `[lo, hi]` nearest to `a`. A value that compares with nothing stays as it is. -/
def clamp (a lo hi : α) : α :=
  if a < lo then lo else if hi < a then hi else a

/-- A natural number as a scalar. -/
def ofNat (n : Nat) : α := OfScientific.ofScientific n false 0

/-- The sum over all indices, from the first to the last, starting at zero. -/
def sum {n : Nat} (f : Fin n → α) : α := Fin.foldl n (fun acc i => acc + f i) 0

end Scalar

/-- Binary floating point of double precision. -/
instance : Scalar Float where
  zero := 0.0
  one := 1.0
  decidableLT := inferInstance
  decidableLE := inferInstance
  mulAdd := Binary.mulAdd
  sqrt := Float.sqrt
  hypot := Binary.hypot
  cbrt := Float.cbrt
  sin := Float.sin
  cos := Float.cos
  atan2 := Float.atan2
  pi := 3.141592653589793
  isFinite := Float.isFinite
  isNaN := Float.isNaN

end Shooting
