import Shooting.Problem.Checked
import Shooting.Solver.Workspace
import Shooting.Solver.Result
import Shooting.Observer

/-!
# Solving a problem

Feasibility-driven differential dynamic programming. An iteration expands the problem along the
current path, unless the expansion at hand is still that of the path; makes a policy by a backward
pass; ends the solve if the path is feasible and the policy promises nothing more; and otherwise
tries steps of length 1, ½, ¼, … along the policy until one lowers the cost as promised.

A failed backward pass and a line search without success both raise the regularization and use up
the iteration; if it is at its bound already, the solve ends. Long steps lower it again.

All that a solve changes is in `Run`, and `iterate` is one iteration from one run to the next. The
time that has passed when an iteration starts is given by a clock, a function of the iteration.
-/

namespace Shooting

/-- Counters of a solve. -/
structure Tally (α : Type) where
  evaluations : Nat
  expansions : Nat
  accepted : Nat
  rejected : Nat
  backwardFailures : Nat
  stepLengths : List α
  deriving DecidableEq, Repr

/-- A solve between two iterations. -/
structure Run (α : Type) (s : StateSpace) (nus : List Nat) where
  problem : Problem α s nus
  workspace : Workspace α s nus
  observers : Observers α
  tally : Tally α
  initialCost : α
  /-- The stored expansions and the gaps are not yet those of the current path. -/
  unexpanded : Bool
  /-- The stored evaluations are those of rejected candidates. -/
  stale : Bool
  log : List (Event α)

/-- What an iteration comes to. -/
inductive Step (α : Type) (s : StateSpace) (nus : List Nat) where
  | next (run : Run α s nus)
  /-- The solve ends, having completed the given number of iterations. -/
  | stop (run : Run α s nus) (status : Status) (iterations : Nat)
  | fail (run : Run α s nus) (cause : SolverError α)

/-- A step found by a line search. -/
structure Found (α : Type) (s : StateSpace) (nus : List Nat) where
  length : α
  cost : α
  path : Path α s nus

/-- How a line search ends: the problem with its stages as the last candidate left them, the number
of candidates evaluated, the last step length tried, and the step if one was accepted. -/
structure LineSearch (α : Type) (s : StateSpace) (nus : List Nat) where
  problem : Problem α s nus
  tried : Nat
  length : α
  found : Option (Found α s nus)

variable {α : Type} [Scalar α] {s : StateSpace} {nus : List Nat}

/-- What the given number of halvings leaves of one. -/
def halving : Nat → α
  | 0 => 1
  | i + 1 => 0.5 * halving i

/-- One half to the power of an integer. -/
def powerOfHalf : Int → α
  | .ofNat k => halving k
  | .negSucc k => 1 / halving (k + 1)

/-- The length of candidate number `i`: one half to the power of `i`. The exponent has 32 bits, one
of them for its sign, so that from candidate number `2 ^ 31` on it is negative, and zero again at
number `2 ^ 32`. -/
@[irreducible]
def stepLength (i : Nat) : α := powerOfHalf ((i : Int).bmod (Nat.pow 2 32))

/-- Whether a candidate of the given cost and step length is accepted. -/
def Workspace.acceptable (w : Workspace α s nus) (c : Config α) (cost length : α) : Bool :=
  c.accepts (w.cost - cost) (w.expected.reduction length) w.expected.first

/-- Tries `remaining` more step lengths, the next of them that of candidate number `i`. `length` is
the last one tried. -/
def lineSearchFrom (c : Config α) (w : Workspace α s nus) :
    (remaining i : Nat) → (length : α) → Problem α s nus → LineSearch α s nus
  | 0, i, length, p => ⟨p, i, length, none⟩
  | n + 1, i, _, p =>
    let length := stepLength i
    match w.tryStep p length with
    | (p, some (cost, path)) =>
      if w.acceptable c cost length then ⟨p, i + 1, length, some ⟨length, cost, path⟩⟩
      else lineSearchFrom c w n (i + 1) length p
    | (p, none) => lineSearchFrom c w n (i + 1) length p

/-- Tries the step lengths of the configuration. -/
def lineSearch (c : Config α) (w : Workspace α s nus) (p : Problem α s nus) : LineSearch α s nus :=
  lineSearchFrom c w c.lineSearchSteps 0 1 p

/-- The status of a feasible path whose policy promises nothing more. -/
def Workspace.verdict (w : Workspace α s nus) (c : Config α) : Option Status :=
  if !w.feasible then none
  else if w.expected.stop < c.stopThreshold then some .converged
  else if Scalar.abs w.expected.first < c.gradientThreshold then some .gradientToleranceReached
  else none

namespace Run

/-- Adds events to the log. -/
def say (r : Run α s nus) (events : List (Event α)) : Run α s nus :=
  { r with log := r.log ++ events }

/-- The error of an evaluation that is not finite, logged. -/
def invalidValue (r : Run α s nus) (cause : EvaluationFault α) : Run α s nus × SolverError α :=
  let e := SolverError.invalidNumericValue cause r.workspace.path.toTrajectory
  (r.say [.failure (.solver e)], e)

/-- Tells the observers about an iteration. -/
def report (r : Run α s nus) (m : Metrics α) : Run α s nus :=
  let (observers, events) := r.observers.announce m
  { r with observers := observers.notify r.workspace.path.toTrajectory m.iteration }.say events

/-- Expands the problem along the current path and takes its gaps, unless that is done already.
Fails if an expansion is not finite. -/
def refresh (r : Run α s nus) (iteration : Nat) :
    Except (Run α s nus × SolverError α) (Run α s nus) :=
  if r.unexpanded then
    let problem := r.problem.expand r.workspace.path
    let r := { r with problem, tally.expansions := r.tally.expansions + 1 }
    if problem.stages.isFinite then
      .ok { r with
        workspace.gaps := problem.gaps r.workspace.path
        unexpanded := false }
    else .error (r.invalidValue (.derivatives iteration))
  else .ok r

/-- The figures of the workspace. -/
def metrics (r : Run α s nus) (iteration : Nat) (stepLength : α) (accepted : Bool)
    (feasibility : α) : Metrics α where
  iteration
  cost := r.workspace.cost
  stop := r.workspace.expected.stop
  expectedImprovement := r.workspace.expected.first
  stepLength
  accepted
  stateRegularization := r.workspace.damping.state
  controlRegularization := r.workspace.damping.control
  feasibility

/-- An iteration whose backward pass failed. -/
def afterBackwardFailure (c : Config α) (r : Run α s nus) (iteration : Nat) : Step α s nus :=
  let r := { r with tally.backwardFailures := r.tally.backwardFailures + 1 }
  if r.workspace.isSaturated c then
    .stop (r.say [.backwardSaturated c.regularizationMax]) .regularizationSaturated iteration
  else
    let r := { r with
      workspace := r.workspace.raise c
      tally.stepLengths := r.tally.stepLengths ++ [0] }
    .next (r.report (r.metrics iteration 0 false r.workspace.feasibility))

/-- An iteration whose line search found a step. The feasibility reported is that before the step,
measured by the caller. -/
def afterStep (c : Config α) (r : Run α s nus) (iteration : Nat) (f : Found α s nus)
    (feasibility : α) : Step α s nus :=
  let w := r.workspace.accept f.cost f.path f.length
  -- both apply where the two thresholds overlap
  let w := if c.shrinkAbove < f.length then w.lower c else w
  let w := if f.length ≤ c.growUpTo then w.raise c else w
  let r := { r with
    workspace := w
    tally.accepted := r.tally.accepted + 1
    tally.stepLengths := r.tally.stepLengths ++ [f.length]
    unexpanded := true
    stale := false }
  .next (r.report (r.metrics iteration f.length true feasibility))

/-- An iteration whose line search found nothing; `length` is the last step length it tried. -/
def afterRejection (c : Config α) (r : Run α s nus) (iteration : Nat) (length feasibility : α) :
    Step α s nus :=
  -- looked at before the regularization is raised: reaching the bound now leaves one more attempt
  let saturated := r.workspace.isSaturated c
  let r := { r with
    workspace := r.workspace.raise c
    tally.rejected := r.tally.rejected + 1
    tally.stepLengths := r.tally.stepLengths ++ [0]
    stale := true }
  let r := r.report (r.metrics iteration length false feasibility)
  if saturated then
    let r := r.say [.lineSearchSaturated c.regularizationMax]
    .stop r .regularizationSaturated (iteration + 1)
  else .next r

/-- The events of a backward pass that ended early. -/
def backwardEvents : BackwardFailure → List (Event α)
  | .finalGradient => []
  | .indefinite t => [.indefinite t]
  | .gradient t => [.gradientNotFinite t]

/-- One iteration. -/
def iterate (c : Config α) (r : Run α s nus) (iteration : Nat) : Step α s nus :=
  match r.refresh iteration with
  | .error (r, e) => .fail r e
  | .ok r =>
    let w := r.workspace
    match backward w.damping w.feasible r.problem.stages w.gaps w.policy with
    | (policy, some failure) =>
      ({ r with workspace.policy := policy }.say (backwardEvents failure)).afterBackwardFailure c
        iteration
    | (policy, none) =>
      let r := { r with
        workspace.policy := policy
        workspace.expected := .ofPolicy policy w.gaps w.feasible }
      match r.workspace.verdict c with
      | some status => .stop r status iteration
      | none =>
        let feasibility := r.workspace.feasibility
        let search := lineSearch c r.workspace r.problem
        let r := { r with
          problem := search.problem
          tally.evaluations := r.tally.evaluations + search.tried }
        match search.found with
        | some f => r.afterStep c iteration f feasibility
        | none => r.afterRejection c iteration search.length feasibility

end Run

/-- A solver between solves: the workspace of the last one, if any was begun, and the observers. -/
structure Solver (α : Type) (s : StateSpace) (nus : List Nat) where
  config : Config α
  workspace : Option (Workspace α s nus)
  observers : Observers α

/-- What a solve leaves behind. -/
structure Solved (α : Type) (s : StateSpace) (nus : List Nat) where
  problem : Problem α s nus
  solver : Solver α s nus
  log : List (Event α)
  outcome : Except (Refusal (Error α)) (SolveResult α)

/-- Arguments of a solve. -/
structure Guess (α : Type) where
  /-- States to start from; a rollout of the controls if there are none. -/
  states : Option (List (List α))
  /-- Controls to start from; zeros if there are none. -/
  controls : Option (List (List α))
  /-- Whether the given states follow from the controls. -/
  feasible : Bool
  regularization : Option α

namespace Run

/-- The figures at the end of a solve. -/
def info (r : Run α s nus) : ConvergenceInfo α where
  stop := r.workspace.expected.stop
  expectedImprovement := r.workspace.expected.first
  stateRegularization := r.workspace.damping.state
  controlRegularization := r.workspace.damping.control
  feasibility := r.workspace.feasibility
  evaluations := r.tally.evaluations
  expansions := r.tally.expansions
  rejected := r.tally.rejected

/-- Brings the stored evaluations and the gaps back in line with the current path. -/
def settle (r : Run α s nus) : Run α s nus :=
  let r :=
    if r.stale then
      let problem := r.problem.evaluate r.workspace.path
      { r with
        problem
        workspace.cost := problem.totalCost
        tally.evaluations := r.tally.evaluations + 1 }
    else r
  { r with workspace.gaps := r.problem.gaps r.workspace.path }

/-- The solver after a run. -/
def solver (c : Config α) (r : Run α s nus) : Solver α s nus := ⟨c, some r.workspace, r.observers⟩

/-- Ends a solve with a result. -/
def finish (c : Config α) (r : Run α s nus) (status : Status) (iterations : Nat) : Solved α s nus :=
  let r := r.settle
  { problem := r.problem
    solver := r.solver c
    log := r.log
    outcome := .ok {
      trajectory := r.workspace.path.toTrajectory
      status
      initialCost := r.initialCost
      finalCost := r.workspace.cost
      iterations
      stepLengths := r.tally.stepLengths
      gaps := r.workspace.gaps.toLists
      info := r.info } }

/-- Ends a solve with an error. -/
def abort (c : Config α) (r : Run α s nus) (e : SolverError α) : Solved α s nus :=
  ⟨r.problem, r.solver c, r.log, .error (.error (.solver e))⟩

/-- Whether the time limit has passed. It is not looked at before the first iteration. -/
def isTimedOut (c : Config α) (clock : Nat → Nat) (iteration : Nat) : Bool :=
  iteration != 0 && match c.timeout with
    | some limit => limit ≤ clock iteration
    | none => false

/-- Iterates at most `budget` more times, the next iteration being number `iteration`. -/
def iterateFrom (c : Config α) (clock : Nat → Nat) :
    (budget iteration : Nat) → Run α s nus → Solved α s nus
  | 0, iteration, r => r.finish c .maxIterationsReached iteration
  | n + 1, iteration, r =>
    if isTimedOut c clock iteration then r.finish c .timeout iteration
    else
      match r.iterate c iteration with
      | .next r => iterateFrom c clock n (iteration + 1) r
      | .stop r status iterations => r.finish c status iterations
      | .fail r e => r.abort c e

end Run

namespace Solver

/-- A solver that has not solved anything. -/
def new (config : Config α) (observers : Observers α) : Solver α s nus := ⟨config, none, observers⟩

/-- The path of the last solve; without one, no path at all. -/
def trajectory (sv : Solver α s nus) : Trajectory α :=
  match sv.workspace with
  | some w => w.path.toTrajectory
  | none => .empty

/-- The gaps of that path. -/
def gaps (sv : Solver α s nus) : List (List α) :=
  match sv.workspace with
  | some w => w.gaps.toLists
  | none => []

/-- The path a solve starts from and whether it is feasible. Without given states the controls are
rolled out, which leaves its evaluation with the problem. -/
def initialPath (p : Problem α s nus) (g : Guess α) :
    Except SizeFault (Problem α s nus × Path α s nus × Bool) := do
  let us := g.controls.getD (p.stages.running fun st => st.zeroControl.toList)
  match g.states with
  | some xs =>
    let path ← p.path? xs us
    return (p, path, g.feasible)
  | none =>
    let (p, path) ← p.rollout? us
    return (p, path, true)

/-- The problem and the workspace at the start of a solve, unless the arguments are refused. -/
def initialize? (sv : Solver α s nus) (p : Problem α s nus) (g : Guess α) :
    Except (Error α) (Problem α s nus × Workspace α s nus) := do
  let c := sv.config
  let regularization ←
    (c.validate >>= fun _ => c.initialRegularization g.regularization).mapError
      fun fault => .solver (.invalidParameters fault)
  let (p, path, feasible) ←
    (initialPath p g).mapError fun fault => .problem (.dimensionMismatch fault)
  return (p, .start path feasible regularization)

/-- Solves a problem with a budget of iterations. Room for the step length of every iteration is set
aside at the start, so a budget beyond all room is a misuse. -/
def solveWithin (sv : Solver α s nus) (p : Problem α s nus) (g : Guess α) (clock : Nat → Nat)
    (budget : Nat) : Solved α s nus :=
  let c := sv.config
  match sv.initialize? p g with
  | .error e => ⟨p, sv, [], .error (.error e)⟩
  | .ok (p, w) =>
    if budget < Vec.sizeLimit then
      let problem := p.evaluate w.path
      let initialCost := problem.totalCost
      let r : Run α s nus :=
        { problem
          workspace := w
          observers := sv.observers
          tally := ⟨1, 0, 0, 0, 0, []⟩
          initialCost
          unexpanded := true
          stale := false
          log := [] }
      if Scalar.isFinite initialCost then
        let r := { r with workspace.cost := initialCost }.say [.configuration c, .lineHeader]
        r.iterateFrom c clock budget 0
      else
        let (r, e) := r.invalidValue (.initialCost initialCost)
        r.abort c e
    else ⟨p, { sv with workspace := some w }, [], .error .misuse⟩

/-- Solves a problem with the budget of the configuration. -/
def solve (sv : Solver α s nus) (p : Problem α s nus) (g : Guess α) (clock : Nat → Nat) :
    Solved α s nus :=
  sv.solveWithin p g clock sv.config.maxIterations

end Solver

end Shooting
