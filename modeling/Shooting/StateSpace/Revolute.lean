import Shooting.Linear.Mat

/-!
# The state of a revolute joint

The orientation of a joint is a point of the unit circle and its velocity a number, so a state is
`[cos θ, sin θ, ω]` while a tangent vector is `[δθ, δω]`. Differences are taken on the circle and
therefore never jump when the joint swings through half a turn.

A state need not lie on the circle exactly: `rotation` renormalizes it on every use.
-/

namespace Shooting

/-- A rotation of the plane, as a complex number of length one. -/
structure Rotation (α : Type) where
  re : α
  im : α
  deriving DecidableEq, Repr

namespace Rotation

variable {α : Type} [Scalar α]

/-- The rotation by an angle. -/
def ofAngle (θ : α) : Rotation α := ⟨Scalar.cos θ, Scalar.sin θ⟩

/-- The rotation in the direction of a point of the plane. -/
def normalize (re im : α) : Rotation α :=
  let r := Scalar.sqrt (re * re + im * im)
  ⟨re / r, im / r⟩

/-- The rotation back. -/
def inverse (r : Rotation α) : Rotation α := ⟨r.re, -r.im⟩

/-- One rotation after another. -/
def mul (r s : Rotation α) : Rotation α :=
  ⟨r.re * s.re - r.im * s.im, r.re * s.im + r.im * s.re⟩

instance : Mul (Rotation α) := ⟨mul⟩

/-- The angle of a rotation, in `(-π, π]`. -/
def angle (r : Rotation α) : α := Scalar.atan2 r.im r.re

end Rotation

namespace Revolute

variable {α : Type} [Scalar α]

/-- The state with the given angle and velocity. -/
def ofAngle (θ ω : α) : Vec α 3 := ⟨#v[Scalar.cos θ, Scalar.sin θ, ω]⟩

/-- The orientation of a state, renormalized. -/
def rotation (x : Vec α 3) : Rotation α := .normalize (x.entry 0) (x.entry 1)

/-- The velocity of a state. -/
def velocity (x : Vec α 3) : α := x.entry 2

/-- The tangent vector from one state to another: the angle between them and the change of
velocity. -/
def diff (x₀ x₁ : Vec α 3) : Vec α 2 :=
  ⟨#v[((rotation x₀).inverse * rotation x₁).angle, velocity x₁ - velocity x₀]⟩

/-- The state reached along a tangent vector. -/
def integrate (x : Vec α 3) (dx : Vec α 2) : Vec α 3 :=
  let r := rotation x * .ofAngle (dx.entry 0)
  ⟨#v[r.re, r.im, velocity x + dx.entry 1]⟩

/-- The orientation stored at the front of a list, if it has two entries. -/
def rotation? : List α → Option (Rotation α)
  | re :: im :: _ => some (.normalize re im)
  | _ => none

end Revolute

end Shooting
