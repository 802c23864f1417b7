import Shooting.Solver.Config
import Shooting.Solver.Metrics
import Shooting.Text.Duration

/-!
# Log

Everything that is worth a line in a log is an `Event`. `level` and `message` say how it is
written; no other part of the library puts text into a log.
-/

namespace Shooting

/-- How urgent an event is. -/
inductive Level where
  | error
  | warn
  | info
  | debug
  deriving DecidableEq, Repr

/-- The level as it is written. -/
def Level.name : Level → String
  | error => "ERROR"
  | warn => "WARN"
  | info => "INFO"
  | debug => "DEBUG"

/-- What happened. -/
inductive Event (α : Type) where
  | failure (cause : Error α)
  /-- A failure that was caused by something outside the library. -/
  | failureFrom (cause : Error α) (source : String)
  /-- A stage without a quasi-static control. -/
  | zeroControl (t : Nat) (cause : ProblemError α)
  /-- The backward pass failed although no larger regularization is allowed. -/
  | backwardSaturated (bound : α)
  /-- No step was accepted although no larger regularization is allowed. -/
  | lineSearchSaturated (bound : α)
  | indefinite (t : Nat)
  | gradientNotFinite (t : Nat)
  | configuration (c : Config α)
  | lineHeader
  | line (l : IterationLine α)
  | tableHeader
  | tableRow (m : Metrics α)
  deriving DecidableEq, Repr

/-- What is logged when an error comes up. Only failures of foreign routines are. -/
def ProblemError.events {α : Type} (e : ProblemError α) : List (Event α) :=
  match e with
  | .invalidNumericValue (.pseudoInverse _ reason) => [.failureFrom (.problem e) reason]
  | _ => []

namespace Event

/-- The level at which an event is logged. -/
def level {α : Type} : Event α → Level
  | failure _ | failureFrom _ _ => .error
  | zeroControl _ _ | backwardSaturated _ | lineSearchSaturated _ => .warn
  | tableHeader | tableRow _ => .info
  | indefinite _ | gradientNotFinite _ | configuration _ | lineHeader | line _ => .debug

open Text

/-- Cells moved to the right ends of their columns, two blanks apart. -/
def columns (cells : List (Nat × String)) : String :=
  "  ".intercalate (cells.map fun (width, text) => alignRight width text)

/-- A configuration in several lines. -/
def configurationText (c : Config Float) : String :=
  let timeout := match c.timeout with
    | some ms => "Some(" ++ duration ms ++ ")"
    | none => "None"
  "\n".intercalate [
    "Configuration:",
    "  Solver:        FDDP",
    "  Convergence Criteria:",
    "  Max iterations:      " ++ toString c.maxIterations,
    "  Stop threshold:      " ++ scientific 2 c.stopThreshold,
    "  Gradient threshold:  " ++ scientific 2 c.gradientThreshold,
    "  Timeout:             " ++ timeout,
    "  Regularization:",
    "  Range:               [" ++ scientific 2 c.regularizationMin ++ ", " ++
      scientific 2 c.regularizationMax ++ "]",
    "  Increase factor:     " ++ fixed 2 c.regularizationIncrease,
    "  Decrease factor:     " ++ fixed 2 c.regularizationDecrease,
    "  Step thresholds:     dec " ++ fixed 2 c.shrinkAbove ++ ", inc " ++ fixed 2 c.growUpTo,
    "  Line Search:",
    "  Steps:               " ++ toString c.lineSearchSteps,
    "  Accept ratios:       " ++ fixed 2 c.acceptanceRatio ++ ", " ++
      fixed 2 c.negativeAcceptanceRatio]

/-- The column titles above iteration lines. -/
def lineTitles : String :=
  columns [(4, "iter"), (13, "cost"), (13, "cost_change"), (11, "stop"), (11, "grad"), (9, "step"),
    (9, "preg"), (11, "feas"), (11, "iter_time"), (13, "total_time"), (6, "status")]

/-- An iteration line. The expected improvement is written with the sign of a gradient. -/
def lineText (l : IterationLine Float) : String :=
  columns [(4, toString l.iteration), (13, scientific 6 l.cost), (13, scientific 2 l.costChange),
    (11, scientific 2 l.stop), (11, scientific 2 (-l.expectedImprovement)),
    (9, fixed 4 l.stepLength), (9, scientific 1 l.regularization), (11, scientific 2 l.feasibility),
    (0, alignRight 9 (fixed 2 l.iterationTime) ++ "ms"),
    (0, alignRight 11 (fixed 2 l.totalTime) ++ "ms"), (6, if l.accepted then "✓" else "✗")]

/-- The column titles of an observer's table. -/
def tableTitles : String :=
  columns [(4, "iter"), (12, "cost"), (10, "stop"), (10, "grad"), (9, "preg"), (9, "ureg"),
    (7, "step"), (10, "feas")]

/-- A row of an observer's table. -/
def tableText (m : Metrics Float) : String :=
  columns [(4, toString m.iteration), (12, scientific 5 m.cost), (10, scientific 3 m.stop),
    (10, scientific 3 (-m.expectedImprovement)), (9, scientific 3 m.stateRegularization),
    (9, scientific 3 m.controlRegularization),
    (7, if m.accepted then fixed 4 m.stepLength else "reject"), (10, scientific 3 m.feasibility)]

/-- The event in words. -/
def message : Event Float → String
  | failure e => e.message
  | failureFrom e source => e.message ++ " | Source: " ++ quoted source
  | zeroControl t e => "Stage " ++ toString t ++ ": " ++ e.message ++ ", using zero control"
  | backwardSaturated b =>
    "Backward pass failed with regularization at its upper bound " ++ scientific 1 b
  | lineSearchSaturated b =>
    "Line search rejected every step with regularization at " ++ scientific 1 b
  | indefinite t => "Quu at stage " ++ toString t ++ " is not positive definite"
  | gradientNotFinite t => "Value gradient at stage " ++ toString t ++ " is not finite"
  | configuration c => configurationText c
  | lineHeader => lineTitles
  | line l => lineText l
  | tableHeader => tableTitles
  | tableRow m => tableText m

end Event

end Shooting
