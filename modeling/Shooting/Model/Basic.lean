import Shooting.StateSpace
import Shooting.Model.Lqr
import Shooting.Model.Unicycle
import Shooting.Model.Pendulum
import Shooting.Model.Integrator
import Shooting.Model.Differencing
import Shooting.Error.Basic

/-!
# Models

A `Model α s nu` is one stage of an optimal control problem over the state space `s` with `nu`
controls. Sizes are part of its type, so that `evaluate` and `expand` are total: a state or control
of the wrong size cannot be given to them. Both depend on the state and the control alone.

`evaluate?` and `expand?` take lists and check their lengths first, naming the model in the fault.

Besides the models of the library there are those that others bring along (`CustomModel`): any two
functions of state and control.
-/

namespace Shooting

/-- A model from outside the library. -/
structure CustomModel (α : Type) (s : StateSpace) (nu : Nat) where
  name : String
  evaluate : Vec α s.nx → Option (Vec α nu) → Evaluation α s.nx
  expand : Vec α s.nx → Option (Vec α nu) → Expansion α s.ndx nu
  /-- Whether it offers quasi-static controls, by the search that the library has for them. -/
  hasQuasiStatic : Bool

/-- The models of stages. -/
inductive Model (α : Type) : StateSpace → Nat → Type where
  | lqr {nx nu : Nat} (p : Lqr α nx nu) : Model α (.euclidean nx) nu
  | unicycle (p : Unicycle α) : Model α (.euclidean 3) 2
  | pendulum (p : Pendulum α) : Model α .revolute 1
  | integrator {nx nu : Nat} (p : Integrator α nx nu) : Model α (.euclidean nx) nu
  /-- Another model with its derivatives replaced by finite differences. -/
  | differenced {s : StateSpace} {nu : Nat} (d : Differencing α) (inner : Model α s nu) :
      Model α s nu
  | custom {s : StateSpace} {nu : Nat} (c : CustomModel α s nu) : Model α s nu

namespace Model

variable {α : Type} {s : StateSpace} {nu : Nat}

/-- The name of a model in messages. -/
def name : {s : StateSpace} → {nu : Nat} → Model α s nu → String
  | _, _, lqr _ => "ActionModelLqr"
  | _, _, unicycle _ => "ActionModelUnicycle"
  | _, _, pendulum _ => "ActionModelPendulum"
  | _, _, integrator _ => "ActionModel"
  | _, _, differenced _ _ => "ActionModelNumDiff"
  | _, _, custom c => c.name

/-- The model that computes the evaluations: finite differences have none of their own. -/
def evaluator : {s : StateSpace} → {nu : Nat} → Model α s nu → Model α s nu
  | _, _, differenced _ inner => inner.evaluator
  | _, _, m => m

/-- Whether expanding a stage says anything about the control terms of its cost. Those of an
integrator are no part of its expansion: they are zero in the data of its own stages, and remain as
they are in data that finite differences have filled. -/
def expandsControlCost : {s : StateSpace} → {nu : Nat} → Model α s nu → Bool
  | _, _, integrator _ => false
  | _, _, _ => true

variable [Scalar α]

/-- Next state and cost; without a control the stage is a terminal one, which keeps the state. -/
def evaluate : {s : StateSpace} → {nu : Nat} → Model α s nu →
    Vec α s.nx → Option (Vec α nu) → Evaluation α s.nx
  | _, _, lqr p, x, u => p.evaluate x u
  | _, _, unicycle p, x, u => p.evaluate x u
  | _, _, pendulum p, x, u => p.evaluate x u
  | _, _, integrator p, x, u => p.evaluate x u
  | _, _, differenced _ inner, x, u => inner.evaluate x u
  | _, _, custom c, x, u => c.evaluate x u

/-- Derivatives at a state and a control. -/
def expand : {s : StateSpace} → {nu : Nat} → Model α s nu →
    Vec α s.nx → Option (Vec α nu) → Expansion α s.ndx nu
  | _, _, lqr p, x, u => p.expand x u
  | _, _, unicycle p, x, u => p.expand x u
  | _, _, pendulum p, x, u => p.expand x u
  | _, _, integrator p, x, _ => p.expand x
  | s, _, differenced d inner, x, u => d.expand s inner.evaluate x u
  | _, _, custom c, x, u => c.expand x u

/-- Evaluation and derivatives together. -/
def measure (m : Model α s nu) (x : Vec α s.nx) (u : Option (Vec α nu)) :
    StageData α s.nx s.ndx nu :=
  ⟨m.evaluate x u, m.expand x u⟩

/-- Wraps a model in finite differences, with a step of its own if one is given. -/
def differencedBy (m : Model α s nu) (step : Option α) :
    Except (ProblemError α) (Model α s nu) :=
  match step with
  | none => .ok (.differenced .standard m)
  | some h =>
    if Scalar.isFinite h && decide (0 < h) then
      .ok (.differenced { Differencing.standard with step := h } m)
    else .error (.invalidInput (.disturbance h))

/-- A list as a state of the model, or what is wrong with it. -/
def state? (owner : SizeOwner) (s : StateSpace) (x : List α) : Except SizeFault (Vec α s.nx) :=
  match Vec.ofList? x with
  | some v => .ok v
  | none => .error (.state owner x.length s.nx)

/-- A list as a control of the model, or what is wrong with it. -/
def control? (owner : SizeOwner) (nu : Nat) (u : List α) : Except SizeFault (Vec α nu) :=
  match Vec.ofList? u with
  | some v => .ok v
  | none => .error (.control owner u.length nu)

/-- The arguments of a stage: a state, and a control unless the stage is a terminal one. -/
def arguments? (owner : SizeOwner) (s : StateSpace) (nu : Nat) (x : List α) (u : Option (List α)) :
    Except SizeFault (Vec α s.nx × Option (Vec α nu)) := do
  let x ← state? owner s x
  let u ← u.mapM (control? owner nu)
  return (x, u)

/-- Checks a state and a control. -/
def check (m : Model α s nu) (x : List α) (u : Option (List α)) : Except SizeFault Unit := do
  discard <| arguments? (.model m.name) s nu x u

/-- `evaluate` on lists. -/
def evaluate? (m : Model α s nu) (x : List α) (u : Option (List α)) :
    Except SizeFault (Evaluation α s.nx) := do
  let (x, u) ← arguments? (.model m.evaluator.name) s nu x u
  return m.evaluate x u

/-- `expand` on lists. -/
def expand? (m : Model α s nu) (x : List α) (u : Option (List α)) :
    Except SizeFault (Expansion α s.ndx nu) := do
  let (x, u) ← arguments? (.model m.name) s nu x u
  return m.expand x u

end Model

/-- A model with its state space and its number of controls. -/
structure AnyModel (α : Type) where
  space : StateSpace
  nu : Nat
  model : Model α space nu

end Shooting
