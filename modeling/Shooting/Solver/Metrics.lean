/-!
# Figures of an iteration

What is reported about one iteration of a solve: `Metrics` to observers, `IterationLine` in the log
of a caller who also measures time.
-/

namespace Shooting

/-- The state of a solve after an iteration. -/
structure Metrics (α : Type) where
  /-- Counted from zero. -/
  iteration : Nat
  /-- Total cost of the current trajectory. -/
  cost : α
  /-- Sum of the squared control gradients. -/
  stop : α
  /-- Expected improvement at first order. -/
  expectedImprovement : α
  /-- The accepted step length, or the last one tried. -/
  stepLength : α
  accepted : Bool
  stateRegularization : α
  controlRegularization : α
  /-- Sum of the lengths of the gaps. -/
  feasibility : α
  deriving DecidableEq, Repr

/-- One line about an iteration, with run times in milliseconds. -/
structure IterationLine (α : Type) where
  iteration : Nat
  cost : α
  costChange : α
  stop : α
  expectedImprovement : α
  stepLength : α
  regularization : α
  feasibility : α
  iterationTime : α
  totalTime : α
  accepted : Bool
  deriving DecidableEq, Repr

end Shooting
