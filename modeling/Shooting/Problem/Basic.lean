import Shooting.Horizon
import Shooting.Model.Basic

/-!
# Shooting problems

A problem is an initial state and one model for each stage of a horizon, the last of them without a
control. It remembers the last evaluation and expansion of every stage.

All stages share one state space, which is part of the type: `ofModels?` is where models with their
own spaces become stages of one problem, or are refused.
-/

namespace Shooting

/-- A running stage: its model and what was last found about it. -/
structure Stage (α : Type) (s : StateSpace) (nu : Nat) where
  model : Model α s nu
  data : StageData α s.nx s.ndx nu

/-- The last stage. Its model may have controls, but it is evaluated without one. -/
structure TerminalStage (α : Type) (s : StateSpace) where
  nu : Nat
  model : Model α s nu
  data : StageData α s.nx s.ndx nu

/-- The stages of a problem in order. -/
abbrev Stages (α : Type) (s : StateSpace) (nus : List Nat) : Type :=
  Horizon (Stage α s) (TerminalStage α s) nus

/-- A state and the control applied in it. -/
structure Knot (α : Type) (s : StateSpace) (nu : Nat) where
  state : Vec α s.nx
  control : Vec α nu

/-- A trajectory whose sizes fit the stages: a state and a control for each of them and a state at
the end. -/
abbrev Path (α : Type) (s : StateSpace) (nus : List Nat) : Type :=
  Horizon (Knot α s) (Vec α s.nx) nus

/-- A control for each running stage. -/
abbrev Controls (α : Type) (nus : List Nat) : Type := Horizon (Vec α) Unit nus

/-- A state for each stage and one at the end. -/
abbrev States (α : Type) (s : StateSpace) (nus : List Nat) : Type :=
  Horizon (fun _ => Vec α s.nx) (Vec α s.nx) nus

/-- A tangent vector for each stage and one at the end. -/
abbrev Gaps (α : Type) (s : StateSpace) (nus : List Nat) : Type :=
  Horizon (fun _ => Vec α s.ndx) (Vec α s.ndx) nus

/-- An optimal control problem over a fixed horizon. -/
structure Problem (α : Type) (s : StateSpace) (nus : List Nat) where
  /-- Where every trajectory should start. -/
  start : Vec α s.nx
  stages : Stages α s nus

/-- A problem with its state space and the numbers of controls of its stages. -/
structure AnyProblem (α : Type) where
  space : StateSpace
  nus : List Nat
  problem : Problem α space nus

namespace Path

variable {α : Type} {s : StateSpace} {nus : List Nat}

/-- The states. -/
def states (p : Path α s nus) : States α s nus := p.map Knot.state id

/-- The controls. -/
def controls (p : Path α s nus) : Controls α nus := p.map Knot.control fun _ => ()

/-- The path as lists. -/
def toTrajectory (p : Path α s nus) : Trajectory α where
  states := p.toList (fun k => k.state.toList) Vec.toList
  controls := p.running fun k => k.control.toList

/-- Controls and states that belong together. -/
def ofParts (xs : States α s nus) (us : Controls α nus) : Path α s nus :=
  xs.zipWith (fun x u => ⟨x, u⟩) (fun x _ => x) us

end Path

namespace Problem

variable {α : Type} [Scalar α] {s : StateSpace} {nus : List Nat}

/-- The number of running stages. -/
def horizon (_ : Problem α s nus) : Nat := nus.length

/-- Turns models into stages over the space `s`, the space of the stage before number `t`. -/
def stagesFrom (s : StateSpace) (t : Nat) :
    List (AnyModel α) → AnyModel α → Except SizeFault ((nus : List Nat) × Stages α s nus)
  | [], m =>
    if h : m.space = s then .ok ⟨[], .last ⟨m.nu, h ▸ m.model, .zero⟩⟩
    else .error (.neighbours (t - 1) s.nx s.ndx m.space.nx m.space.ndx)
  | m :: rest, terminal =>
    if h : m.space = s then do
      let ⟨nus, stages⟩ ← stagesFrom s (t + 1) rest terminal
      return ⟨m.nu :: nus, .stage ⟨h ▸ m.model, .zero⟩ stages⟩
    else .error (.neighbours (t - 1) s.nx s.ndx m.space.nx m.space.ndx)

/-- A list as an initial state. -/
def start? (s : StateSpace) (x₀ : List α) : Except SizeFault (Vec α s.nx) :=
  match Vec.ofList? x₀ with
  | some x => .ok x
  | none => .error (.initialState x₀.length s.nx)

/-- A problem from an initial state, the models of the running stages and that of the last one. -/
def ofModels? (x₀ : List α) (running : List (AnyModel α)) (terminal : AnyModel α) :
    Except SizeFault (AnyProblem α) := do
  let s := (running.head?.getD terminal).space
  let ⟨nus, stages⟩ ← stagesFrom s 0 running terminal
  let start ← start? s x₀
  return ⟨s, nus, start, stages⟩

/-- Replaces the initial state. -/
def withStart? (p : Problem α s nus) (x₀ : List α) : Except SizeFault (Problem α s nus) := do
  let start ← start? s x₀
  return { p with start }

/-- Names and numbers of controls of the running stages. -/
def signatures (p : Problem α s nus) : List (String × Nat) :=
  p.stages.running fun {nu} st => (st.model.name, nu)

end Problem

end Shooting
