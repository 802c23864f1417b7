import Shooting.Rounding

/-!
# The exact value of a double

A finite double is a sign, a natural number and a power of two. This is the only place that looks at
bits. `nearest` goes the other way, and `mulAdd` and `hypot` are the arithmetic that needs both:
formed exactly and rounded once. Most products need no exact number: `mulAdd` forms one only where
the rounding errors of doubles leave the result in doubt.
-/

namespace Shooting

/-- What a double stands for. A finite one is `mantissa * 2 ^ exponent`, with its sign apart, so
that the two zeros differ. -/
inductive Binary where
  | nan
  | infinite (negative : Bool)
  | finite (negative : Bool) (mantissa : Nat) (exponent : Int)
  deriving DecidableEq, Repr

namespace Binary

/-- Reads the three fields of the binary format. -/
def ofFloat (x : Float) : Binary :=
  let bits := x.toBits
  let negative : Bool := bits >>> 63 == 1
  let biased : Nat := (bits >>> 52 &&& 0x7ff).toNat
  let fraction : Nat := (bits &&& 0xfffffffffffff).toNat
  -- the largest exponent field is for special values, the smallest for numbers without a hidden bit
  if biased = 2047 then (if fraction = 0 then infinite negative else nan)
  else if biased = 0 then finite negative fraction (-1074)
  else finite negative (Nat.pow 2 52 + fraction) ((biased : Int) - 1075)

/-- The numerator of a mantissa times a power of two. -/
def numerator (mantissa : Nat) (exponent : Int) : Nat :=
  mantissa * Nat.pow 2 exponent.toNat

/-- The denominator of a number times a power of two. -/
def denominator (exponent : Int) : Nat := Nat.pow 2 (-exponent).toNat

/-- The double nearest to `n * 2 ^ exponent`, a tie going to the even mantissa; `n` is positive. -/
def nearest (n : Nat) (exponent : Int) : Float :=
  -- the last of 53 bits, or the smallest step there is
  let last := max ((n.log2 : Int) + exponent - 52) (-1074)
  let mantissa :=
    roundDiv .even (numerator n (exponent - last)) (denominator (exponent - last))
  (Float.ofNat mantissa).scaleB last

/-- A multiple of `2 ^ unit` as an integer number of these units; `unit` is at most `exponent`. -/
def inUnits (unit : Int) (negative : Bool) (mantissa : Nat) (exponent : Int) : Int :=
  let n : Int := numerator mantissa (exponent - unit)
  if negative then -n else n

/-- `a * b + c` formed exactly. A finite product does not move a `c` that is not finite. -/
def exactMulAdd (a b c : Float) : Float :=
  match ofFloat a, ofFloat b, ofFloat c with
  | finite sa ma ea, finite sb mb eb, finite sc mc ec =>
    let unit := min (ea + eb) ec
    let sum := inUnits unit (sa != sb) (ma * mb) (ea + eb) + inUnits unit sc mc ec
    -- nothing is rounded away from a zero sum, and the separate operations know its sign
    if sum = 0 then a * b + c
    else if sum < 0 then -nearest sum.natAbs unit
    else nearest sum.natAbs unit
  | finite _ _ _, finite _ _ _, _ => c
  | _, _, _ => a * b + c

/-- The leading half of the digits of a number; the other half is what is left. -/
def upperHalf (a : Float) : Float :=
  let shifted := 134217729.0 * a
  shifted - (shifted - a)

/-- What rounding took from the product `p` of `a` and `b`: exact, as the product of halves is. -/
def productError (a b p : Float) : Float :=
  let a' := upperHalf a
  let b' := upperHalf b
  (a - a') * (b - b') - (((p - a' * b') - (a - a') * b') - a' * (b - b'))

/-- What rounding took from the sum `s` of `a` and `b`. -/
def sumError (a b s : Float) : Float :=
  let b' := s - a
  (a - (s - b')) + (b - b')

/-- Moderate numbers lie between this one and its reciprocal. -/
def moderateLimit : Float := 1e100

/-- Whether a number is so far from the ends of the range that no product of two such numbers, and
no rounding error of one, comes near them. -/
def isModerate (x : Float) : Bool :=
  let size := x.abs
  size < moderateLimit && 1 < size * moderateLimit

/-- Twice the distance from one to the next number. -/
def twoUnits : Float := 4.440892098500626e-16

/-- `a * b + c` rounded once. Away from the ends of the range the errors of product and sum are
numbers of their own, and only their own sum is rounded; where a change of that sum by its rounding
error does not show in the result, the result is right. -/
def mulAdd (a b c : Float) : Float :=
  if a == 0 || b == 0 then a * b + c
  else if isModerate a && isModerate b && c.abs < moderateLimit then
    let p := a * b
    let s := p + c
    let error := productError a b p + sumError p c s
    let doubt := error * twoUnits
    let result := s + (error + doubt)
    if s + (error - doubt) == result then result else exactMulAdd a b c
  else exactMulAdd a b c

/-- The integer part of the square root, for a number of at most `2 * fuel` bits. -/
def floorSqrt : (fuel n : Nat) → Nat
  | 0, _ => 0
  | fuel + 1, n =>
    let r := 2 * floorSqrt fuel (n / 4)
    if (r + 1) * (r + 1) ≤ n then r + 1 else r

/-- The double nearest to the square root of `n * 4 ^ exponent`; `n` is positive. -/
def nearestSqrt (n : Nat) (exponent : Int) : Float :=
  -- more digits than a double has, and one more that says whether the root ends there
  let n := n * Nat.pow 4 64
  let r := floorSqrt (n.log2 + 1) n
  nearest (2 * r + if r * r = n then 0 else 1) (exponent - 65)

/-- The length of the hypotenuse over two legs, rounded once. -/
def hypot (a b : Float) : Float :=
  match ofFloat a, ofFloat b with
  | finite _ ma ea, finite _ mb eb =>
    let unit := min ea eb
    let n := numerator (ma * ma) (2 * (ea - unit)) + numerator (mb * mb) (2 * (eb - unit))
    if n = 0 then 0 else nearestSqrt n unit
  | infinite _, _ => a.abs
  | _, infinite _ => b.abs
  | _, _ => a + b

end Binary

end Shooting
