import Shooting.Solver.Result

/-!
# Summary of a solve

A report for human readers, with shares in percent and run times in milliseconds.
-/

namespace Shooting

/-- The figures of a summary. -/
structure Summary where
  status : Status
  initialCost : Float
  finalCost : Float
  iterations : Nat
  accepted : Nat
  rejected : Nat
  /-- Backward passes that ended early. -/
  backwardFailures : Nat
  stateRegularization : Float
  controlRegularization : Float
  stop : Float
  feasibility : Float
  /-- Run time in microseconds. -/
  totalTime : Nat
  /-- Run time per iteration in microseconds. -/
  averageTime : Nat
  deriving Repr

namespace Summary

open Text

/-- A time in microseconds as milliseconds. Whole seconds and the rest are converted apart. -/
def milliseconds (us : Nat) : Float :=
  ((us / 1000000).toFloat + (us % 1000000 * 1000).toFloat / 1000000000.0) * 1000.0

/-- A number of iterations and its share of all of them. -/
def share (s : Summary) (n : Nat) : String :=
  toString n ++ " (" ++ fixed 1 (100.0 * n.toFloat / (max s.iterations 1).toFloat) ++ "%)"

/-- The reduction of the cost and its share of the initial cost. -/
def reduction (s : Summary) : String :=
  let saved := s.initialCost - s.finalCost
  scientific 6 saved ++ " (" ++
    fixed 2 (100.0 * saved / Scalar.max (Scalar.abs s.initialCost) 1e-12) ++ "%)"

/-- The report. -/
def display (s : Summary) : String :=
  String.join <| List.map (· ++ "\n") [
    "FDDP Final Result",
    (if s.status.isConverged then "CONVERGED (" else "NOT CONVERGED (") ++ s.status.tag ++ ")",
    "",
    "Cost:",
    "  Initial:   " ++ scientific 6 s.initialCost,
    "  Final:     " ++ scientific 6 s.finalCost,
    "  Reduction: " ++ s.reduction,
    "",
    "Iterations:",
    "  Total:              " ++ toString s.iterations,
    "  Accepted steps:     " ++ s.share s.accepted,
    "  Rejected steps:     " ++ s.share s.rejected,
    "  Backward failures:  " ++ toString s.backwardFailures,
    "",
    "Optimality:",
    "  Stop:        " ++ scientific 2 s.stop,
    "  Feasibility: " ++ scientific 2 s.feasibility,
    "  Regularization: (" ++ scientific 1 s.stateRegularization ++ ", " ++
      scientific 1 s.controlRegularization ++ ")",
    "",
    "Performance:",
    "  Total time:             " ++ fixed 2 (milliseconds s.totalTime) ++ "ms",
    "  Average per iteration:  " ++ fixed 2 (milliseconds s.averageTime) ++ "ms"]

end Summary

end Shooting
