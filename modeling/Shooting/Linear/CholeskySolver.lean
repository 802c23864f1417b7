import Shooting.Linear.Cholesky
import Shooting.Linear.Table
import Shooting.Error.Basic

/-!
# Linear systems by a stored factor

A solver holds the factor of the matrix it was last given. Being given another one first drops the
old factor, so that a matrix that cannot be factorized leaves a solver that refuses to solve; the
dimension it reports is still that of the last factor it had.
-/

namespace Shooting

/-- A solver for symmetric positive definite systems. -/
structure CholeskySolver (α : Type) where
  factor : Option ((n : Nat) × Lower α n)
  dimension : Nat

namespace CholeskySolver

variable {α : Type} [Scalar α]

/-- A solver without a factor. -/
def new : CholeskySolver α := ⟨none, 0⟩

/-- The factor of a table, of which the lower triangle counts. -/
def factorOf (a : Table α) : Except MatrixError (Lower α a.rows) :=
  -- only the lower triangle is used, but every entry has to be an ordinary number
  match a.toMat? a.rows a.rows with
  | none => .error (.dimensionMismatch (.notSquare a.rows a.cols))
  | some m =>
    if m.isFinite then
      match cholesky m with
      | .ok l => .ok l
      | .error i => .error (.notPositiveDefinite (.pivot i))
    else .error (.numericalInstability .notFinite)

/-- Factorizes a matrix, forgetting the one before. -/
def factorize (sv : CholeskySolver α) (a : Table α) : CholeskySolver α × Except MatrixError Unit :=
  match factorOf a with
  | .ok l => (⟨some ⟨a.rows, l⟩, a.rows⟩, .ok ())
  | .error e => ({ sv with factor := none }, .error e)

/-- Solves for a matrix of right-hand sides. -/
def solve (sv : CholeskySolver α) (b : Table α) : Except MatrixError (Table α) :=
  match sv.factor with
  | none => .error (.factorizationFailed .neverFactorized)
  | some ⟨n, l⟩ =>
    match b.toMat? n b.cols with
    | none => .error (.dimensionMismatch (.rightHandSide b.rows n))
    | some m => .ok (.ofMat (l.solve m))

/-- Solves for one right-hand side. -/
def solveVec (sv : CholeskySolver α) (b : List α) : Except MatrixError (List α) :=
  (sv.solve (.ofMat (.ofVec (.ofList b)))).map fun x => x.toLists.flatten

end CholeskySolver

end Shooting
