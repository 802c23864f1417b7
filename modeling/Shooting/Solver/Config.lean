import Shooting.Error.Basic
import Shooting.Scalar

/-!
# Configuration of the solver

The parameters of a solve and the conditions on them. `validate` checks the conditions in a fixed
order and reports the first that fails; comparisons that are undefined count as failed, except in
the last condition, which is stated as the absence of a violation.
-/

namespace Shooting

/-- Parameters of the solver. -/
structure Config (α : Type) where
  maxIterations : Nat
  /-- Time limit in milliseconds, looked at between iterations. -/
  timeout : Option Nat
  regularizationIncrease : α
  regularizationDecrease : α
  /-- Lower bound of the regularization, and where it starts unless told otherwise. -/
  regularizationMin : α
  regularizationMax : α
  /-- Accepted steps longer than this shrink the regularization. -/
  shrinkAbove : α
  /-- Accepted steps no longer than this grow the regularization. -/
  growUpTo : α
  /-- Expected improvement below which any step is accepted. -/
  gradientThreshold : α
  /-- Bound on the squared control gradients below which the solve has converged. -/
  stopThreshold : α
  /-- Least ratio of actual to expected reduction. -/
  acceptanceRatio : α
  /-- Largest ratio of actual to expected increase, where an increase is expected. -/
  negativeAcceptanceRatio : α
  /-- Number of step lengths tried, each half of the one before. -/
  lineSearchSteps : Nat
  deriving DecidableEq, Repr

namespace Config

variable {α : Type} [Scalar α]

/-- The configuration to start from. -/
def standard : Config α where
  maxIterations := 100
  timeout := none
  regularizationIncrease := 10.0
  regularizationDecrease := 10.0
  regularizationMin := 1e-9
  regularizationMax := 1e9
  shrinkAbove := 0.5
  growUpTo := 0.01
  gradientThreshold := 1e-12
  stopThreshold := 1e-9
  acceptanceRatio := 0.1
  negativeAcceptanceRatio := 2.0
  lineSearchSteps := 10

/-- Checks that the parameters describe a usable solver. -/
def validate (c : Config α) : Except (ParameterFault α) Unit :=
  -- negations of what is wanted, so that a value that compares with nothing is refused
  if ¬ (Scalar.isFinite c.regularizationMin ∧ 0 < c.regularizationMin) then
    .error (.lowerRegularization c.regularizationMin)
  else if ¬ (Scalar.isFinite c.regularizationMax ∧ c.regularizationMin ≤ c.regularizationMax) then
    .error (.upperRegularization c.regularizationMin c.regularizationMax)
  else if ¬ (1 < c.regularizationIncrease ∧ 1 < c.regularizationDecrease) then
    .error (.regularizationFactors c.regularizationIncrease c.regularizationDecrease)
  else if c.lineSearchSteps = 0 then .error .noLineSearchSteps
  else if ¬ (0 < c.acceptanceRatio ∧ c.acceptanceRatio < 1) then
    .error (.acceptanceRatio c.acceptanceRatio)
  else if c.negativeAcceptanceRatio < 1 then
    .error (.negativeAcceptanceRatio c.negativeAcceptanceRatio)
  else .ok ()

/-- Whether a step with the given actual and expected reduction of the cost is accepted, when the
expected improvement at first order is `d1`. Where an increase is expected, as while gaps are being
closed, an increase within bounds is accepted too. -/
def accepts (c : Config α) (actual expected d1 : α) : Bool :=
  if Scalar.abs d1 < c.gradientThreshold then true
  else if 0 ≤ expected then decide (c.acceptanceRatio * expected < actual)
  else decide (c.negativeAcceptanceRatio * expected < actual)

/-- Where the regularization of a solve starts. -/
def initialRegularization (c : Config α) : Option α → Except (ParameterFault α) α
  | none => .ok c.regularizationMin
  | some r =>
    if Scalar.isNaN r then .error .initialRegularization
    else .ok (Scalar.clamp r c.regularizationMin c.regularizationMax)

/-- A larger regularization, up to the bound. -/
def raise (c : Config α) (r : α) : α :=
  Scalar.min (r * c.regularizationIncrease) c.regularizationMax

/-- A smaller regularization, down to the bound. -/
def lower (c : Config α) (r : α) : α :=
  Scalar.max (r / c.regularizationDecrease) c.regularizationMin

end Config

end Shooting
