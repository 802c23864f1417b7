import Shooting.Decimal.Rounding
import Shooting.Binary

/-!
# The shortest decimal that reads back

Among the decimals that round to a given double, `shortest` picks one with the fewest digits, of
those the nearest, and of two equally near ones the larger. The reals that round to `m * 2 ^ q` form
an interval around it, which contains its ends exactly when `m` is even; on the grid of decimals
with `k` digits only the two neighbours of the value can be the nearest point in that interval.

All quantities are multiples of a quarter of the last place, so that the ends are natural numbers.
-/

namespace Shooting

namespace Decimal

/-- Whether a point, an upper or lower bound and a number in units of their own, lies between the
ends of an interval. -/
private def within (lo hi point : Nat) (closed : Bool) : Bool :=
  if closed then lo ≤ point && point ≤ hi else lo < point && point < hi

/-- The point of the grid `10 ^ e` nearest to the value, if one lies in the interval that rounds to
it. `mid`, `lo` and `hi` are the value and the ends of its interval, all over `den`. -/
def nearestWithin (lo mid hi den : Nat) (closed : Bool) (e : Int) : Option Decimal :=
  let up := if 0 ≤ e then 1 else Nat.pow 10 (-e).toNat
  let unit := if 0 ≤ e then den * Nat.pow 10 e.toNat else den
  let q := mid * up / unit
  let inside := fun c => within (lo * up) (hi * up) (c * unit) closed
  let nearest := roundDiv .up (mid * up) unit
  let other := if nearest = q then q + 1 else q
  if inside nearest then some ⟨nearest, e⟩
  else if inside other then some ⟨other, e⟩
  else none

/-- The first grid, from coarse to fine, with a point in the interval. -/
def firstGrid (lo mid hi den : Nat) (closed : Bool) (top : Int) : Nat → Nat → Decimal
  | 0, k => ⟨roundDiv .up (mid * Nat.pow 10 (k - top).toNat) den, top - k⟩
  | fuel + 1, k =>
    match nearestWithin lo mid hi den closed (top - k) with
    | some d => d
    | none => firstGrid lo mid hi den closed top fuel (k + 1)

/-- The shortest decimal that reads back as `mantissa * 2 ^ exponent`, for a positive mantissa.
Seventeen digits are always enough. -/
def shortest (mantissa : Nat) (exponent : Int) : Decimal :=
  -- below a power of two the doubles lie twice as dense
  let lowerGap := if mantissa = Nat.pow 2 52 ∧ -1074 < exponent then 1 else 2
  let lo := Binary.numerator (4 * mantissa - lowerGap) exponent
  let mid := Binary.numerator (4 * mantissa) exponent
  let hi := Binary.numerator (4 * mantissa + 2) exponent
  let den := 4 * Binary.denominator exponent
  trim (firstGrid lo mid hi den (mantissa % 2 = 0) (magnitude mid den) 18 0)

end Decimal

end Shooting
