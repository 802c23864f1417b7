import Shooting.Error.Size

/-!
# Trajectories as lists

The states and controls of a horizon in the form in which they are given and answered: lists of
lists of scalars. A trajectory over `N` stages has `N` controls and one state more; sizes of single
states and controls are a matter of the problem (`Problem.path?`).
-/

namespace Shooting

/-- A sequence of states and a sequence of controls. -/
structure Trajectory (α : Type) where
  states : List (List α)
  controls : List (List α)
  deriving DecidableEq, Repr

namespace Trajectory

variable {α : Type}

/-- No states and no controls. -/
def empty : Trajectory α := ⟨[], []⟩

/-- Checks that there is one more state than controls. -/
def ofLists (states controls : List (List α)) : Except SizeFault (Trajectory α) :=
  if states.length = controls.length + 1 then .ok ⟨states, controls⟩
  else .error (.trajectory states.length controls.length)

/-- The number of stages. -/
def horizon (t : Trajectory α) : Nat := t.controls.length

/-- The state at the end, if there is any. -/
def finalState? (t : Trajectory α) : Option (List α) := t.states.getLast?

end Trajectory

end Shooting
