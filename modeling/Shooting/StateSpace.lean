import Shooting.StateSpace.Revolute

/-!
# State spaces

A state lives in a representation of `nx` scalars and its perturbations in a tangent space of `ndx`
scalars. Solvers never add a vector to a state: they go through `diff` and `integrate`.

* `euclidean n`: states and tangents are vectors of `n` scalars, and both operations are the
  vector ones.
* `revolute`: one joint that turns, `[cos θ, sin θ, ω]`, with tangents `[δθ, δω]`.

`diff?` and `integrate?` are the same operations on lists of any length. They answer `none` where an
operand is too short or where two vectors of different lengths would have to be combined. Spaces may
be of any size; where a state or a Jacobian has to be made, `zero?` and its like answer `none` if
there is no room for it.
-/

namespace Shooting

/-- The spaces in which states live. -/
inductive StateSpace where
  | euclidean (n : Nat)
  | revolute
  deriving DecidableEq, Repr

namespace StateSpace

/-- Size of a state. -/
@[reducible] def nx : StateSpace → Nat
  | euclidean n => n
  | revolute => 3

/-- Size of a tangent vector. -/
@[reducible] def ndx : StateSpace → Nat
  | euclidean n => n
  | revolute => 2

/-- The two sizes of a space determine it. -/
theorem eq_iff_sizes (s t : StateSpace) : s = t ↔ s.nx = t.nx ∧ s.ndx = t.ndx := by
  cases s <;> cases t <;> simp [nx, ndx] <;> omega

/-- The space as a reader sees it. -/
def display : StateSpace → String
  | euclidean n => "StateVector(nx: " ++ toString n ++ ")"
  | revolute => "StateSO2(nx: 3, ndx: 2)"

variable {α : Type} [Scalar α]

/-- The neutral state. -/
def zero : (s : StateSpace) → Vec α s.nx
  | euclidean _ => 0
  | revolute => Revolute.ofAngle 0 0

/-- The tangent vector that leads from `x₀` to `x₁`. -/
def diff : (s : StateSpace) → (x₀ x₁ : Vec α s.nx) → Vec α s.ndx
  | euclidean _, x₀, x₁ => x₁ - x₀
  | revolute, x₀, x₁ => Revolute.diff x₀ x₁

/-- The state reached from `x` along `dx`. -/
def integrate : (s : StateSpace) → Vec α s.nx → Vec α s.ndx → Vec α s.nx
  | euclidean _, x, dx => x + dx
  | revolute, x, dx => Revolute.integrate x dx

/-- Derivatives of `diff x₀ x₁` when `x₀`, and when `x₁`, moves in its tangent space. All spaces
here are commutative groups, so they are signed identities everywhere. -/
def diffJacobians (s : StateSpace) : Mat α s.ndx s.ndx × Mat α s.ndx s.ndx :=
  (-Mat.identity s.ndx, Mat.identity s.ndx)

/-- Derivatives of `integrate x dx` in `x` and in `dx`. -/
def integrateJacobians (s : StateSpace) : Mat α s.ndx s.ndx × Mat α s.ndx s.ndx :=
  (Mat.identity s.ndx, Mat.identity s.ndx)

/-- The neutral state as a list, if there is room for it. -/
def zero? (s : StateSpace) : Option (List α) :=
  if s.nx < Vec.sizeLimit then some (s.zero : Vec α s.nx).toList else none

/-- `diffJacobians`, if there is room for them. -/
def diffJacobians? (s : StateSpace) : Option (Mat α s.ndx s.ndx × Mat α s.ndx s.ndx) :=
  if s.ndx * s.ndx < Vec.sizeLimit then some s.diffJacobians else none

/-- `integrateJacobians`, if there is room for them. -/
def integrateJacobians? (s : StateSpace) : Option (Mat α s.ndx s.ndx × Mat α s.ndx s.ndx) :=
  if s.ndx * s.ndx < Vec.sizeLimit then some s.integrateJacobians else none

/-- `diff` on lists. In a Euclidean space the operands need only agree with each other. -/
def diff? : StateSpace → List α → List α → Option (List α)
  | euclidean _, x₀, x₁ => do
    -- the size of the space itself is not looked at
    let b ← Vec.ofList? x₁
    return (b - Vec.ofList x₀).toList
  | revolute, x₀, x₁ => do
    let a ← Vec.ofList? (x₀.take 3)
    let b ← Vec.ofList? (x₁.take 3)
    return (Revolute.diff a b).toList

/-- `integrate` on lists. -/
def integrate? : StateSpace → List α → List α → Option (List α)
  | euclidean _, x, dx => do
    let d ← Vec.ofList? dx
    return (Vec.ofList x + d).toList
  | revolute, x, dx => do
    let a ← Vec.ofList? (x.take 3)
    let d ← Vec.ofList? (dx.take 2)
    return (Revolute.integrate a d).toList

end StateSpace

end Shooting
