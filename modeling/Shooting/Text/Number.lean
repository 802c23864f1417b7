import Shooting.Decimal.Shortest

/-!
# Numbers in messages and tables

Three ways of writing a double:

* `plain`: the fewest digits that read back, never with an exponent, and no point for an integer;
* `scientific p`: one digit, a point, `p` more and an exponent without padding;
* `fixed p`: `p` digits after the point.

The last two round the exact binary value, a tie going to the even digit; in `plain`, a tie between
two shortest forms goes away from zero. A negative zero keeps its sign everywhere; a value that is
not a number has none.
-/

namespace Shooting.Text

/-- A digit string with a point before its last `p` digits, filled up with zeros in front. -/
def placePoint (digits : List Char) (p : Nat) : String :=
  let padded := List.replicate (p + 1 - digits.length) '0' ++ digits
  let whole := padded.take (padded.length - p)
  if p = 0 then String.ofList padded
  else String.ofList (whole ++ '.' :: padded.drop (padded.length - p))

/-- Writes sign and special values; `body` writes a finite magnitude. -/
def signed (x : Float) (body : Nat → Int → String) : String :=
  match Binary.ofFloat x with
  | .nan => "NaN"
  | .infinite negative => if negative then "-inf" else "inf"
  | .finite negative m e => (if negative then "-" else "") ++ body m e

/-- A decimal without exponent. -/
def positional (d : Decimal) : String :=
  if 0 ≤ d.exponent then
    String.ofList (Decimal.digits d.coefficient ++ List.replicate d.exponent.toNat '0')
  else placePoint (Decimal.digits d.coefficient) (-d.exponent).toNat

/-- The fewest digits that read back, without exponent. -/
def plain (x : Float) : String :=
  signed x fun m e => if m = 0 then "0" else positional (Decimal.shortest m e)

/-- `p` digits after the point. -/
def fixed (p : Nat) (x : Float) : String :=
  signed x fun m e =>
    let d := Decimal.roundTo (Binary.numerator m e) (Binary.denominator e) (-p)
    placePoint (Decimal.digits d.coefficient) p

/-- One digit, `p` more after a point, and an exponent. -/
def scientific (p : Nat) (x : Float) : String :=
  signed x fun m e =>
    let d :=
      if m = 0 then ⟨0, -p⟩
      else Decimal.roundSignificant (Binary.numerator m e) (Binary.denominator e) p
    placePoint (if m = 0 then List.replicate (p + 1) '0' else Decimal.digits d.coefficient) p ++
      "e" ++ toString (d.exponent + p)

/-- A text moved to the right end of a column of the given width. -/
def alignRight (width : Nat) (s : String) : String :=
  String.ofList (List.replicate (width - s.length) ' ') ++ s

end Shooting.Text
