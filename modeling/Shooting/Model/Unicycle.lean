import Shooting.StageData

/-!
# Planar unicycle

State `[x, y, θ]`, control `[v, ω]` (forward and angular velocity), one explicit Euler step of
length `dt`:

    x' = x + v cos θ dt,  y' = y + v sin θ dt,  θ' = θ + ω dt

at the cost `½ |w_state x|² + ½ |w_control u|²`. Without a control the state stays and only its own
term is charged.
-/

namespace Shooting

/-- Step length and cost weights of a unicycle. -/
structure Unicycle (α : Type) where
  dt : α
  stateWeight : α
  controlWeight : α
  deriving DecidableEq, Repr

namespace Unicycle

variable {α : Type} [Scalar α]

/-- A tenth of a unit of time per step, with a state weight of ten and a control weight of one. -/
def standard : Unicycle α := ⟨0.1, 10.0, 1⟩

/-- Next state and cost. -/
def evaluate (p : Unicycle α) (x : Vec α 3) : Option (Vec α 2) → Evaluation α 3
  | some u =>
    let s := Scalar.sin (x.entry 2)
    let c := Scalar.cos (x.entry 2)
    { cost := 0.5 * (p.stateWeight * p.stateWeight) * x.normSq +
        0.5 * (p.controlWeight * p.controlWeight) * u.normSq
      next := ⟨#v[x.entry 0 + c * u.entry 0 * p.dt, x.entry 1 + s * u.entry 0 * p.dt,
        x.entry 2 + u.entry 1 * p.dt]⟩ }
  | none => { cost := 0.5 * (p.stateWeight * p.stateWeight) * x.normSq, next := x }

/-- Derivatives at a state and a control. -/
def expand (p : Unicycle α) (x : Vec α 3) (u : Option (Vec α 2)) : Expansion α 3 2 :=
  let ws := p.stateWeight * p.stateWeight
  let wc := p.controlWeight * p.controlWeight
  let lx := x.scale ws
  let lxx := (Mat.identity 3).scale ws
  match u with
  | some u =>
    let s := Scalar.sin (x.entry 2)
    let c := Scalar.cos (x.entry 2)
    { fx := ⟨⟨#v[⟨#v[1, 0, -s * u.entry 0 * p.dt]⟩, ⟨#v[0, 1, c * u.entry 0 * p.dt]⟩,
        ⟨#v[0, 0, 1]⟩]⟩⟩
      fu := ⟨⟨#v[⟨#v[c * p.dt, 0]⟩, ⟨#v[s * p.dt, 0]⟩, ⟨#v[0, p.dt]⟩]⟩⟩
      lx
      lu := u.scale wc
      lxx
      luu := (Mat.identity 2).scale wc
      lxu := 0 }
  | none => { fx := .identity 3, fu := 0, lx, lu := 0, lxx, luu := 0, lxu := 0 }

end Unicycle

end Shooting
