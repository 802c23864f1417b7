import Shooting.Linear.Mat
import Shooting.StageData

/-!
# Driven integrator

`x' = x + B u + c` with the same constant `c` in every entry, at the cost `½ |x|²`; without a
control the state stays. The smallest model with a control: it has no physics and no weights, and
whether it offers a quasi-static control is part of its data.

`broken` makes the second derivative of the cost undefined, for trying out how a solver copes with
a model that fails.
-/

namespace Shooting

/-- The coefficients of an integrator. -/
structure Integrator (α : Type) (nx nu : Nat) where
  b : Mat α nx nu
  c : α
  /-- Whether a quasi-static control may be searched for. -/
  hasQuasiStatic : Bool
  broken : Bool
  deriving DecidableEq, Repr

namespace Integrator

variable {α : Type} [Scalar α] {nx nu : Nat}

/-- Next state and cost. -/
def evaluate (p : Integrator α nx nu) (x : Vec α nx) (u : Option (Vec α nu)) : Evaluation α nx :=
  { cost := 0.5 * x.normSq
    next := match u with
      | some u => x + p.b * u + .replicate nx p.c
      | none => x }

/-- The second derivative of the cost in the state, at states of size `k`. -/
def stateHessian (p : Integrator α nx nu) (k : Nat) : Mat α k k :=
  if p.broken then (Mat.identity k).scale (0 / 0) else .identity k

/-- Derivatives at a state. They do not depend on the control, nor on whether there is one. -/
def expand (p : Integrator α nx nu) (x : Vec α nx) : Expansion α nx nu :=
  { fx := .identity nx, fu := p.b, lx := x, lu := 0, lxx := p.stateHessian nx, luu := 0, lxu := 0 }

end Integrator

end Shooting
