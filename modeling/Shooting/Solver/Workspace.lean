import Shooting.Solver.Policy
import Shooting.Solver.Config

/-!
# Workspace of the solver

What a solver knows between iterations: the current path with its gaps and cost, the policy of the
last backward pass with what it promises, and the regularization. The path counts as feasible when
it is taken to have no gaps.

`tryStep` rolls the policy out with a given step length. Partial steps on an infeasible path close
only a part of each gap: the state predicted for a stage is moved back by the rest of its gap.
-/

namespace Shooting

/-- The state of a solve between iterations. -/
structure Workspace (α : Type) (s : StateSpace) (nus : List Nat) where
  path : Path α s nus
  gaps : Gaps α s nus
  policy : Policy α s.ndx nus
  damping : Damping α
  expected : ExpectedImprovement α
  cost : α
  feasible : Bool

variable {α : Type} [Scalar α] {s : StateSpace} {nus : List Nat}

/-- The sum of the lengths of all gaps. -/
def Gaps.total (g : Gaps α s nus) : α :=
  (g.toList Vec.norm Vec.norm).foldl (· + ·) 0

/-- The gaps as lists. -/
def Gaps.toLists (g : Gaps α s nus) : List (List α) := g.toList Vec.toList Vec.toList

/-- A step of a policy being rolled out: the stages evaluated on the way, and the cost and the path,
unless something was not finite. -/
abbrev Trial (α : Type) (s : StateSpace) (nus : List Nat) : Type :=
  Stages α s nus × Option (α × Path α s nus)

/-- The rollout from a predicted state on, with the cost so far. `length` is the step length and
`closing` tells whether gaps are closed completely. -/
def tryStepFrom (length : α) (closing : Bool) :
    {nus : List Nat} → (predicted : Vec α s.nx) → (cost : α) → Stages α s nus → Path α s nus →
      Gaps α s nus → Policy α s.ndx nus → Trial α s nus
  | _, predicted, cost, .last st, .last _, .last f, .last _ =>
    let x := if closing then predicted else s.integrate predicted (f.scale (length - 1))
    let st := st.evaluate x
    if st.data.eval.isFinite && x.isFinite then
      (.last st, some (cost + st.data.eval.cost, .last x))
    else (.last st, none)
  | _, predicted, cost, .stage st rest, .stage k ks, .stage f fs, .stage p ps =>
    -- the scale is negative: a step of length `a` leaves the part `1 - a` of the gap open
    let x := if closing then predicted else s.integrate predicted (f.scale (length - 1))
    let dx := s.diff k.state x
    let u := k.control - p.gains.feedforward.scale length - p.gains.feedback * dx
    let st := st.evaluate x u
    let e := st.data.eval
    if e.isFinite && x.isFinite && u.isFinite then
      let (rest, outcome) := tryStepFrom length closing e.next (cost + e.cost) rest ks fs ps
      (.stage st rest, outcome.map fun (c, path) => (c, .stage ⟨x, u⟩ path))
    else (.stage st rest, none)

namespace Workspace

/-- The workspace at the start of a solve. -/
def start (path : Path α s nus) (feasible : Bool) (regularization : α) : Workspace α s nus where
  path
  gaps := .replicate (fun _ => 0) 0 nus
  policy := .replicate (fun _ => ⟨⟨0, 0, 0, 0, 0⟩, ⟨0, 0⟩, ⟨0, 0⟩⟩) ⟨0, 0⟩ nus
  damping := ⟨regularization, regularization⟩
  expected := ⟨0, 0, 0⟩
  cost := 0
  feasible

/-- The sum of the lengths of the gaps. -/
def feasibility (w : Workspace α s nus) : α := w.gaps.total

/-- The candidate for a step of the given length, and the problem with the stages evaluated on the
way. -/
def tryStep (w : Workspace α s nus) (p : Problem α s nus) (length : α) :
    Problem α s nus × Option (α × Path α s nus) :=
  let closing := w.feasible || length == 1
  let (stages, outcome) := tryStepFrom length closing p.start 0 p.stages w.path w.gaps w.policy
  ({ p with stages }, outcome)

/-- Takes a candidate. A full step leaves no gaps. -/
def accept (w : Workspace α s nus) (cost : α) (path : Path α s nus) (length : α) :
    Workspace α s nus :=
  { w with path, cost, feasible := w.feasible || length == 1 }

/-- Raises both regularizations. -/
def raise (w : Workspace α s nus) (c : Config α) : Workspace α s nus :=
  { w with damping := ⟨c.raise w.damping.state, c.raise w.damping.control⟩ }

/-- Lowers both regularizations. -/
def lower (w : Workspace α s nus) (c : Config α) : Workspace α s nus :=
  { w with damping := ⟨c.lower w.damping.state, c.lower w.damping.control⟩ }

/-- Whether the regularization is at its bound. -/
def isSaturated (w : Workspace α s nus) (c : Config α) : Bool :=
  decide (c.regularizationMax ≤ w.damping.state)

end Workspace

end Shooting
