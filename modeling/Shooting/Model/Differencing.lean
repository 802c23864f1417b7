import Shooting.StateSpace
import Shooting.StageData

/-!
# Derivatives by finite differences

The derivatives of a stage from its evaluations alone. Perturbations are taken in the tangent space
of the state and in the control, one coordinate at a time: first differences with a small step `h`,

    fx[:, i] ≈ (f(x ⊕ h eᵢ, u) ⊖ f(x, u)) / h,   lx[i] ≈ (l(x ⊕ h eᵢ, u) - l(x, u)) / h

and second differences of the cost with a larger step `h₂` over the stacked coordinates
`z = (δx, δu)`,

    H[i, j] ≈ (l(z + h₂ eᵢ + h₂ eⱼ) - l(z + h₂ eᵢ) - l(z + h₂ eⱼ) + l(z)) / h₂²

computed for `i ≤ j` only, so that the Hessian is symmetric to the last bit. Without a control only
the state is perturbed and all control terms are zero.
-/

namespace Shooting

/-- The two step lengths of finite differences. -/
structure Differencing (α : Type) where
  step : α
  curvatureStep : α
  deriving DecidableEq, Repr

namespace Differencing

variable {α : Type} [Scalar α]

/-- The square root and the fourth root of the spacing of double precision numbers at one. -/
def standard : Differencing α := ⟨1.490116119384765625e-8, 1.220703125e-4⟩

/-- The accuracy to expect of first differences. -/
def tolerance (d : Differencing α) : α := Scalar.cbrt d.step

variable {nu : Nat}

/-- One coordinate direction of a stage: of its state or of its control. -/
inductive Direction (ndx nu : Nat) where
  | state (i : Fin ndx)
  | control (j : Fin nu)
  deriving DecidableEq, Repr

/-- The displacement by `h` along one direction: its part in the state and its part in the control.
-/
def Direction.along {ndx : Nat} (h : α) : Direction ndx nu → Vec α ndx × Vec α nu
  | state i => (.single i h, 0)
  | control j => (0, .single j h)

/-- A displacement with `h` added to its coordinate in one direction. -/
def Direction.addTo {ndx : Nat} (h : α) : Direction ndx nu → Vec α ndx × Vec α nu →
    Vec α ndx × Vec α nu
  | state i, z => (z.1.put i (z.1.get i + h), z.2)
  | control j, z => (z.1, z.2.put j (z.2.get j + h))

variable (d : Differencing α) (s : StateSpace)
  (evaluate : Vec α s.nx → Option (Vec α nu) → Evaluation α s.nx)

/-- Cost after a displacement of state and control. -/
def perturbedCost (x : Vec α s.nx) (u : Option (Vec α nu)) (z : Vec α s.ndx × Vec α nu) : α :=
  (evaluate (s.integrate x z.1) (u.map (· + z.2))).cost

/-- Second difference of the cost along two directions. -/
def secondDifference (x : Vec α s.nx) (u : Option (Vec α nu)) (a b : Direction s.ndx nu) : α :=
  let h := d.curvatureStep
  let cost := perturbedCost s evaluate x u
  -- one step after the other, so that twice the same direction is a step of twice the length
  let both := cost (b.addTo h (a.addTo h (0, 0)))
  (both - cost (a.along h) - cost (b.along h) + (evaluate x u).cost) / (h * h)

/-- Derivatives at a state and a control. -/
def expand (x : Vec α s.nx) (u : Option (Vec α nu)) : Expansion α s.ndx nu :=
  let h := d.step
  let base := evaluate x u
  let byState : Vec (Evaluation α s.nx) s.ndx :=
    .ofFn fun i => evaluate (s.integrate x (.single i h)) u
  let second := d.secondDifference s evaluate x u
  let fx := .ofCols fun i => (s.diff base.next (byState.get i).next).map (· / h)
  let lx := .ofFn fun i => ((byState.get i).cost - base.cost) / h
  let lxx := .ofFn fun i j =>
    if i ≤ j then second (.state i) (.state j) else second (.state j) (.state i)
  match u with
  | some v =>
    let byControl : Vec (Evaluation α s.nx) nu :=
      .ofFn fun j => evaluate x (some (v.put j (v.get j + h)))
    { fx
      fu := .ofCols fun j => (s.diff base.next (byControl.get j).next).map (· / h)
      lx
      lu := .ofFn fun j => ((byControl.get j).cost - base.cost) / h
      lxx
      luu := .ofFn fun i j =>
        if i ≤ j then second (.control i) (.control j) else second (.control j) (.control i)
      lxu := .ofFn fun i j => second (.state i) (.control j) }
  | none => { fx, fu := 0, lx, lu := 0, lxx, luu := 0, lxu := 0 }

end Differencing

end Shooting
