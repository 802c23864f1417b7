import Shooting.StateSpace
import Shooting.Error.Basic

/-!
# Checking states

What makes a list a state or a tangent vector of a space. A state has the right size and consists
of ordinary numbers; of a tangent vector only the size is checked.
-/

namespace Shooting.StateSpace

variable {α : Type} [Scalar α]

/-- Checks that a list is a state. -/
def checkState (s : StateSpace) (x : List α) : Except StateError Unit :=
  if x.length ≠ s.nx then .error (.dimensionMismatch s.nx x.length)
  else if x.all Scalar.isFinite then .ok () else .error .invalidNumber

/-- Checks that a list is a tangent vector. -/
def checkTangent (s : StateSpace) (dx : List α) : Except StateError Unit :=
  if dx.length ≠ s.ndx then .error (.invalidTangentDimension s.ndx dx.length) else .ok ()

end Shooting.StateSpace
