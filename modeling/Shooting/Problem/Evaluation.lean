import Shooting.Problem.Basic

/-!
# Evaluating a problem along a path

`evaluate` and `expand` refresh the data of all stages, each from its own knot of the path and
nothing else. `totalCost` sums the stored costs in stage order, whatever order they were found in.

`gaps` compares a path with the stored predictions: how far each state is from the one that its
predecessor leads to, and the first from the initial state. `rollout` is the path without gaps that
given controls produce.
-/

namespace Shooting

variable {α : Type} [Scalar α] {s : StateSpace} {nus : List Nat}

namespace Stage

variable {nu : Nat}

/-- The control that does nothing. -/
def zeroControl (_ : Stage α s nu) : Vec α nu := 0

/-- Evaluates the stage at a state and a control. -/
def evaluate (st : Stage α s nu) (x : Vec α s.nx) (u : Vec α nu) : Stage α s nu :=
  { st with data.eval := st.model.evaluate x (some u) }

/-- Expands the stage at a state and a control. -/
def expand (st : Stage α s nu) (x : Vec α s.nx) (u : Vec α nu) : Stage α s nu :=
  { st with data.expansion := st.model.expand x (some u) }

end Stage

namespace TerminalStage

/-- Evaluates the last stage at a state. -/
def evaluate (st : TerminalStage α s) (x : Vec α s.nx) : TerminalStage α s :=
  { st with data.eval := st.model.evaluate x none }

/-- Expands the last stage at a state. -/
def expand (st : TerminalStage α s) (x : Vec α s.nx) : TerminalStage α s :=
  { st with data.expansion := st.model.expand x none }

end TerminalStage

namespace Stages

/-- Evaluates every stage along a path. -/
def evaluate (stages : Stages α s nus) (path : Path α s nus) : Stages α s nus :=
  stages.zipWith (fun st k => st.evaluate k.state k.control) TerminalStage.evaluate path

/-- Expands every stage along a path. -/
def expand (stages : Stages α s nus) (path : Path α s nus) : Stages α s nus :=
  stages.zipWith (fun st k => st.expand k.state k.control) TerminalStage.expand path

/-- The sum of the stored costs: running stages first, then the last one. -/
def totalCost (stages : Stages α s nus) : α :=
  stages.foldl (fun acc st => acc + st.data.eval.cost) 0 + stages.final.data.eval.cost

/-- Whether everything stored consists of ordinary numbers. -/
def isFinite (stages : Stages α s nus) : Bool :=
  (stages.running fun st => st.data.isFinite).all id && stages.final.data.isFinite

/-- The tangent vectors from the states of a path to those predicted for them, when `predicted` is
the prediction for the first. -/
def gapsFrom : {nus : List Nat} → Vec α s.nx → Stages α s nus → Path α s nus → Gaps α s nus
  | _, predicted, .last _, .last x => .last (s.diff x predicted)
  | _, predicted, .stage st rest, .stage k ks =>
    .stage (s.diff k.state predicted) (gapsFrom st.data.eval.next rest ks)

/-- Applies controls from the state `x` on, evaluating each stage on the way. -/
def rolloutFrom : {nus : List Nat} → Vec α s.nx → Stages α s nus → Controls α nus →
    Stages α s nus × Path α s nus
  | _, x, .last st, .last () => (.last (st.evaluate x), .last x)
  | _, x, .stage st rest, .stage u us =>
    let st := st.evaluate x u
    let (rest, path) := rolloutFrom st.data.eval.next rest us
    (.stage st rest, .stage ⟨x, u⟩ path)

end Stages

namespace Problem

/-- Evaluates every stage along a path. -/
def evaluate (p : Problem α s nus) (path : Path α s nus) : Problem α s nus :=
  { p with stages := p.stages.evaluate path }

/-- Expands every stage along a path. -/
def expand (p : Problem α s nus) (path : Path α s nus) : Problem α s nus :=
  { p with stages := p.stages.expand path }

/-- The sum of the costs last found. -/
def totalCost (p : Problem α s nus) : α := p.stages.totalCost

/-- The gaps between a path and the last predictions. -/
def gaps (p : Problem α s nus) (path : Path α s nus) : Gaps α s nus :=
  Stages.gapsFrom p.start p.stages path

/-- The path that given controls produce from the initial state; its evaluation stays stored. -/
def rollout (p : Problem α s nus) (us : Controls α nus) : Problem α s nus × Path α s nus :=
  let (stages, path) := Stages.rolloutFrom p.start p.stages us
  ({ p with stages }, path)

end Problem

end Shooting
