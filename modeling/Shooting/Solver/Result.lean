import Shooting.Trajectory
import Shooting.Linear.InnerProduct
import Shooting.Text.Number

/-!
# Results of a solve

How a solve can end, and what it answers. Running out of iterations, time or regularization is a
status, not an error.
-/

namespace Shooting

/-- How a solve ended. -/
inductive Status where
  /-- Feasible, and the control gradients are small. -/
  | converged
  /-- Feasible, and the expected improvement is small. -/
  | gradientToleranceReached
  | maxIterationsReached
  | timeout
  /-- The regularization reached its bound without an acceptable step. -/
  | regularizationSaturated
  deriving DecidableEq, Repr

namespace Status

/-- Whether the status means that an optimum was found. -/
def isConverged : Status → Bool
  | converged | gradientToleranceReached => true
  | _ => false

/-- The status as a sentence. -/
def display : Status → String
  | converged => "Converged"
  | gradientToleranceReached => "Gradient tolerance reached"
  | maxIterationsReached => "Maximum iterations reached"
  | timeout => "Timeout"
  | regularizationSaturated => "Regularization saturated"

/-- The status as one word. -/
def tag : Status → String
  | converged => "Converged"
  | gradientToleranceReached => "GradientToleranceReached"
  | maxIterationsReached => "MaxIterationsReached"
  | timeout => "Timeout"
  | regularizationSaturated => "RegularizationSaturated"

/-- All statuses. -/
def all : List Status :=
  [converged, gradientToleranceReached, maxIterationsReached, timeout, regularizationSaturated]

/-- The status with the given tag. -/
def ofTag? (tag : String) : Option Status := all.find? (·.tag = tag)

end Status

/-- Figures at the end of a solve. -/
structure ConvergenceInfo (α : Type) where
  /-- Sum of the squared control gradients at the last successful backward pass. -/
  stop : α
  /-- Expected improvement at first order at the last successful backward pass. -/
  expectedImprovement : α
  stateRegularization : α
  controlRegularization : α
  /-- Sum of the lengths of the gaps. -/
  feasibility : α
  /-- How often a trajectory was evaluated, candidates of the line search included. -/
  evaluations : Nat
  /-- How often a trajectory was expanded. -/
  expansions : Nat
  /-- Iterations whose line search accepted nothing. -/
  rejected : Nat
  deriving DecidableEq, Repr

/-- The figures in one line. -/
def ConvergenceInfo.display (i : ConvergenceInfo Float) : String :=
  ", ".intercalate [
    "Final stop: " ++ Text.scientific 2 i.stop,
    "Expected improvement: " ++ Text.scientific 2 i.expectedImprovement,
    "Regularization: (" ++ Text.scientific 1 i.stateRegularization ++ ", " ++
      Text.scientific 1 i.controlRegularization ++ ")",
    "Feasibility: " ++ Text.scientific 2 i.feasibility,
    "Calc evaluations: " ++ toString i.evaluations,
    "CalcDiff evaluations: " ++ toString i.expansions,
    "Rejected iterations: " ++ toString i.rejected]

/-- The answer of a solve. -/
structure SolveResult (α : Type) where
  trajectory : Trajectory α
  status : Status
  initialCost : α
  finalCost : α
  /-- Completed iterations, whether they accepted a step or not. -/
  iterations : Nat
  /-- The step length of every iteration; zero for one that accepted nothing. -/
  stepLengths : List α
  /-- The gaps of the trajectory, one for each state. -/
  gaps : List (List α)
  info : ConvergenceInfo α
  deriving DecidableEq, Repr

namespace SolveResult

variable {α : Type} [Scalar α]

/-- Whether an optimum was found. -/
def converged (r : SolveResult α) : Bool := r.status.isConverged

/-- The number of iterations that accepted a step. -/
def acceptedIterations (r : SolveResult α) : Nat :=
  (r.stepLengths.filter fun a => decide (0 < a)).length

/-- The length of the longest gap. -/
def maxGap (r : SolveResult α) : α :=
  (r.gaps.map fun g => (Vec.ofList g).norm).foldl Scalar.max 0

end SolveResult

end Shooting
