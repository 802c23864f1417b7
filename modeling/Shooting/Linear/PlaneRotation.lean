import Shooting.Linear.Mat

/-!
# Plane rotations

A rotation turns two coordinates and leaves all others alone. Three ways to find one: `fromAxis`
turns the first axis to a point, `cancelSecond?` and `cancelFirst?` turn one of the two coordinates
of a point to zero. All three say how far from the origin the point is, with a sign that keeps the
cosine from being negative.
-/

namespace Shooting

/-- The rotation that takes `(a, b)` to `(c a - s b, s a + c b)`. -/
structure PlaneRotation (α : Type) where
  c : α
  s : α
  deriving DecidableEq, Repr

namespace PlaneRotation

variable {α : Type} [Scalar α]

/-- The rotation that turns nothing. -/
def identity : PlaneRotation α := ⟨1, 0⟩

/-- The rotation back. -/
def inverse (r : PlaneRotation α) : PlaneRotation α := ⟨r.c, -r.s⟩

/-- The image of a point. -/
def apply (r : PlaneRotation α) (a b : α) : α × α := (r.c * a - r.s * b, r.s * a + r.c * b)

/-- The rotation that takes `(r, 0)` to `(a, b)`, and `r`. The origin is not turned. -/
def fromAxis (a b : α) : PlaneRotation α × α :=
  let length := Scalar.sqrt (a * a + b * b)
  if 0 < length then
    let r := Scalar.sign a * length
    (⟨Scalar.abs a / length, b / r⟩, r)
  else (identity, 0)

/-- The rotation that takes `(a, b)` to `(r, 0)`, and `r`; none if `b` is zero already. -/
def cancelSecond? (a b : α) : Option (PlaneRotation α × α) :=
  if b == 0 then none
  else
    let length := Scalar.sqrt (a * a + b * b)
    let r := Scalar.sign a * length
    some (⟨Scalar.abs a / length, -b / r⟩, r)

/-- The rotation that takes `(a, b)` to `(0, r)`, and `r`; none if `a` is zero already. -/
def cancelFirst? (a b : α) : Option (PlaneRotation α × α) :=
  if a == 0 then none
  else
    let length := Scalar.sqrt (b * b + a * a)
    some (⟨Scalar.abs b / length, a * Scalar.sign b / length⟩, Scalar.sign b * length)

end PlaneRotation

/-- Turns rows `p` and `q` into each other. -/
def Mat.rotateRows {α : Type} [Scalar α] {m n : Nat} (a : Mat α m n) (r : PlaneRotation α)
    (p q : Nat) : Mat α m n :=
  let row := fun i => if h : i < m then a.row ⟨i, h⟩ else 0
  let turned : Vec (α × α) n := .ofFn fun j => r.apply ((row p).get j) ((row q).get j)
  .ofFn fun i j =>
    if i = p then (turned.get j).1 else if i = q then (turned.get j).2 else a.get i j

end Shooting
