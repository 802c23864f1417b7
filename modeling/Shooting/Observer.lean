import Shooting.Log
import Shooting.Trajectory

/-!
# Observers

Observers are told about every iteration of a solve, first its figures and then the trajectory, in
the order in which they were added. They cannot influence the solve.

`Observers.calls` is everything that was ever said to them. What becomes of it is up to an observer;
the kinds there are here log it or record a part of it. Observers that record share one record: two
of the same kind write every figure twice.
-/

namespace Shooting

/-- Someone who watches a solve. -/
inductive Observer where
  /-- Does nothing. -/
  | silent
  /-- Logs a table row for each iteration, with titles above every ten rows. -/
  | table (rows : Nat)
  /-- Records the figures of every iteration. -/
  | history
  /-- Records the ends of every trajectory: its first control and its last state. -/
  | ends
  deriving DecidableEq, Repr

/-- The ends of a trajectory after an iteration. -/
structure TrajectoryEnds (α : Type) where
  iteration : Nat
  firstControl : Option (List α)
  lastState : Option (List α)
  deriving DecidableEq, Repr

/-- What is said to an observer. -/
inductive Call (α : Type) where
  | figures (m : Metrics α)
  | step (t : Trajectory α) (iteration : Nat)
  deriving DecidableEq, Repr

/-- A group of observers with what they were told and what they recorded. -/
structure Observers (α : Type) where
  members : List Observer
  /-- All calls in their order, with the position of the observer that each went to. -/
  calls : List (Nat × Call α)
  history : List (Metrics α)
  ends : List (TrajectoryEnds α)
  deriving DecidableEq, Repr

/-- What an observer makes of the figures of an iteration: its own next state, what it adds to the
record of figures and what it logs. -/
def Observer.figures {α : Type} (m : Metrics α) :
    Observer → Observer × List (Metrics α) × List (Event α)
  | silent => (silent, [], [])
  | table rows =>
    (table (rows + 1), [], if rows % 10 = 0 then [.tableHeader, .tableRow m] else [.tableRow m])
  | history => (history, [m], [])
  | ends => (ends, [], [])

namespace Observers

variable {α : Type}

/-- Nobody. -/
def none : Observers α := ⟨[], [], [], []⟩

/-- One more observer at the end of the group. -/
def add (o : Observers α) (member : Observer) : Observers α :=
  { o with members := o.members ++ [member] }

/-- The same call to every observer, one after the other. -/
def toAll (o : Observers α) (c : Call α) : List (Nat × Call α) :=
  (List.range o.members.length).map fun i => (i, c)

/-- What the observer at position `i` was told. -/
def received (o : Observers α) (i : Nat) : List (Call α) :=
  (o.calls.filter (·.1 = i)).map (·.2)

/-- Tells all observers the figures of an iteration. -/
def announce (o : Observers α) (m : Metrics α) : Observers α × List (Event α) :=
  let told := o.members.map (Observer.figures m)
  ({ o with
      members := told.map (·.1)
      calls := o.calls ++ o.toAll (.figures m)
      history := o.history ++ told.flatMap (·.2.1) },
    told.flatMap (·.2.2))

/-- Tells all observers the trajectory after an iteration. -/
def notify (o : Observers α) (t : Trajectory α) (iteration : Nat) : Observers α :=
  let ends : TrajectoryEnds α := ⟨iteration, t.controls.head?, t.finalState?⟩
  { o with
    calls := o.calls ++ o.toAll (.step t iteration)
    ends := o.ends ++ (o.members.filter (· = .ends)).map fun _ => ends }

end Observers

end Shooting
