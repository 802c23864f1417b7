import Shooting.Trajectory
import Shooting.Text.Quoted

/-!
# Errors

What can go wrong, by the part of the library that notices it. Constructors carry causes and the
values involved; the wording is in the functions named `message`, one for each type. Causes have a
constructor `note` for code outside this library that reports in its own words.

`Error.chain` lists an error and the errors behind it. Only a solver error can have one behind it: a
failed factorization.
-/

namespace Shooting

/-! ## Matrix routines -/

/-- Why a factor is missing. -/
inductive FactorFault where
  | neverFactorized
  | note (text : String)
  deriving DecidableEq, Repr

/-- Why a matrix is not positive definite. -/
inductive PivotFault where
  /-- The first pivot that is not positive. -/
  | pivot (index : Nat)
  | note (text : String)
  deriving DecidableEq, Repr

/-- Matrices that do not fit a routine or each other. -/
inductive ShapeFault where
  | notSquare (rows cols : Nat)
  | rightHandSide (rows dimension : Nat)
  | note (text : String)
  deriving DecidableEq, Repr

/-- Entries a routine does not work on. -/
inductive EntryFault where
  | notFinite
  | note (text : String)
  deriving DecidableEq, Repr

/-- What a matrix routine reports. -/
inductive MatrixError where
  | factorizationFailed (cause : FactorFault)
  | notPositiveDefinite (cause : PivotFault)
  | dimensionMismatch (cause : ShapeFault)
  | numericalInstability (cause : EntryFault)
  deriving DecidableEq, Repr

/-- The error in words. -/
def MatrixError.message : MatrixError → String
  | factorizationFailed cause => "Matrix factorization failed: " ++ match cause with
    | .neverFactorized => "solve called before factorize"
    | .note text => text
  | notPositiveDefinite cause => "Matrix is not positive definite: " ++ match cause with
    | .pivot i => "NonPositivePivot \x7b index: " ++ toString i ++ " \x7d"
    | .note text => text
  | dimensionMismatch cause => "Matrix dimension mismatch: " ++ match cause with
    | .notSquare m n => toString m ++ "x" ++ toString n ++ " matrix is not square"
    | .rightHandSide m n =>
      "right-hand side has " ++ toString m ++ " rows, factor has dimension " ++ toString n
    | .note text => text
  | numericalInstability cause => "Numerical instability: " ++ match cause with
    | .notFinite => "matrix to factorize contains NaN or Inf"
    | .note text => text

/-! ## States -/

/-- What a check of a state or a tangent vector reports. -/
inductive StateError where
  | invalidTangentDimension (expected actual : Nat)
  | invalidElement (text : String)
  | dimensionMismatch (expected actual : Nat)
  | invalidNumber
  deriving DecidableEq, Repr

/-- The error in words. -/
def StateError.message : StateError → String
  | invalidTangentDimension e a => "Invalid tangent dimension: " ++ sizes e a
  | invalidElement text => "Invalid manifold element: " ++ text
  | dimensionMismatch e a => "Dimension mismatch: " ++ sizes e a
  | invalidNumber => "Invalid number: NaN or Inf detected"
where
  sizes (e a : Nat) : String := "expected " ++ toString e ++ ", got " ++ toString a

/-! ## Models and problems -/

/-- Operations that a model need not offer. -/
inductive SupportFault where
  | quasiStatic (model : String)
  | note (text : String)
  deriving DecidableEq, Repr

/-- Searches that end without an answer. -/
inductive SearchFault where
  | quasiStatic (model : String) (iterations : Nat)
  | note (text : String)
  deriving DecidableEq, Repr

/-- Values that are no ordinary numbers. -/
inductive ValueFault where
  /-- The control sought by a quasi-static search. -/
  | quasiStatic (model : String)
  /-- The effect of the controls, which a quasi-static search could not invert. The reason is known
  to the log only. -/
  | pseudoInverse (model reason : String)
  | note (text : String)
  deriving DecidableEq, Repr

/-- Arguments out of their range. -/
inductive InputFault (α : Type) where
  | stageOutside (t horizon : Nat)
  | disturbance (step : α)
  | note (text : String)
  deriving DecidableEq, Repr

/-- What models and problems report. -/
inductive ProblemError (α : Type) where
  | dimensionMismatch (cause : SizeFault)
  | unsupportedOperation (cause : SupportFault)
  | convergenceFailure (cause : SearchFault)
  | invalidNumericValue (cause : ValueFault)
  | invalidInput (cause : InputFault α)
  deriving DecidableEq, Repr

/-- The error in words. -/
def ProblemError.message : ProblemError Float → String
  | dimensionMismatch cause => "Dimension mismatch: " ++ cause.describe
  | unsupportedOperation cause => "Unsupported operation: " ++ match cause with
    | .quasiStatic model => model ++ " does not provide a quasi-static control"
    | .note text => text
  | convergenceFailure cause => "Convergence failure: " ++ match cause with
    | .quasiStatic model n =>
      model ++ ": quasi-static control did not converge in " ++ toString n ++ " iterations"
    | .note text => text
  | invalidNumericValue cause => "Invalid numeric value: " ++ match cause with
    | .quasiStatic model => model ++ ": quasi-static control diverged"
    | .pseudoInverse model _ => model ++ ": pseudo-inverse of fu failed"
    | .note text => text
  | invalidInput cause => "Invalid input: " ++ match cause with
    | .stageOutside t n => "stage " ++ toString t ++ " is outside horizon " ++ toString n
    | .disturbance h =>
      "finite-difference disturbance must be positive, got " ++ Text.plain h
    | .note text => text

/-- How an operation ends without an answer, `ε` being the errors it reports. -/
inductive Refusal (ε : Type) where
  /-- It reports an error. -/
  | error (cause : ε)
  /-- It was asked for something outside its contract and gives up without a report. -/
  | misuse
  deriving DecidableEq, Repr

/-! ## Solvers -/

/-- Parameters a solver does not accept. -/
inductive ParameterFault (α : Type) where
  | lowerRegularization (lo : α)
  | upperRegularization (lo hi : α)
  | regularizationFactors (increase decrease : α)
  | noLineSearchSteps
  | acceptanceRatio (ratio : α)
  | negativeAcceptanceRatio (ratio : α)
  | initialRegularization
  | note (text : String)
  deriving DecidableEq, Repr

/-- The fault in words. -/
def ParameterFault.describe : ParameterFault Float → String
  | lowerRegularization lo => "reg_min must be finite and positive, got " ++ Text.plain lo
  | upperRegularization lo hi =>
    "reg_max must be finite and at least reg_min, got [" ++ Text.plain lo ++ ", " ++
      Text.plain hi ++ "]"
  | regularizationFactors inc dec =>
    "regularization factors must exceed 1, got increase " ++ Text.plain inc ++ " and decrease " ++
      Text.plain dec
  | noLineSearchSteps => "line search needs at least one step length"
  | acceptanceRatio r => "th_acceptstep must lie in (0, 1), got " ++ Text.plain r
  | negativeAcceptanceRatio r => "th_acceptnegstep must be at least 1, got " ++ Text.plain r
  | initialRegularization => "initial regularization is NaN"
  | note text => text

/-- Evaluations of a trajectory that are no ordinary numbers. -/
inductive EvaluationFault (α : Type) where
  | initialCost (cost : α)
  | derivatives (iteration : Nat)
  | note (text : String)
  deriving DecidableEq, Repr

/-- What a solver reports. -/
inductive SolverError (α : Type) where
  | invalidParameters (cause : ParameterFault α)
  /-- Carries the trajectory at which the evaluation failed. -/
  | invalidNumericValue (cause : EvaluationFault α) (lastValid : Trajectory α)
  | matrix (cause : MatrixError)
  deriving DecidableEq, Repr

/-- The error in words. -/
def SolverError.message : SolverError Float → String
  | invalidParameters cause => "Invalid optimization parameters: " ++ cause.describe
  | invalidNumericValue cause _ => "Invalid numeric value: " ++ match cause with
    | .initialCost c => "initial cost is " ++ Text.plain c
    | .derivatives i => "derivatives at iteration " ++ toString i ++ " are not finite"
    | .note text => text
  | matrix cause => "Linear algebra error: " ++ cause.message

/-! ## Observers -/

/-- What an observer reports: its record was left locked by a failed access. -/
structure ObserverError where
  context : String
  reason : String
  deriving DecidableEq, Repr

/-- The error in words. -/
def ObserverError.message (e : ObserverError) : String :=
  "Mutex poisoned in " ++ e.context ++ ": " ++ e.reason

/-! ## All of them -/

/-- Any error of the library. -/
inductive Error (α : Type) where
  | problem (cause : ProblemError α)
  | solver (cause : SolverError α)
  | matrix (cause : MatrixError)
  | state (cause : StateError)
  | observer (cause : ObserverError)
  deriving DecidableEq, Repr

namespace Error

/-- The error in words. -/
def message : Error Float → String
  | problem e => e.message
  | solver e => e.message
  | matrix e => e.message
  | state e => e.message
  | observer e => e.message

/-- The messages of the errors behind an error, nearest first. -/
def sources : Error Float → List String
  | solver (.matrix e) => [e.message]
  | _ => []

/-- An error and those behind it, one to a line. -/
def chain (e : Error Float) : String :=
  "\n".intercalate (e.message :: e.sources.map ("  → " ++ ·))

/-- An error and those behind it on one line. -/
def chainCompact (e : Error Float) : String := " → ".intercalate (e.message :: e.sources)

end Error

end Shooting
