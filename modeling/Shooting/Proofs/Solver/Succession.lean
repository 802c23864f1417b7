import Shooting.Proofs.Solver.Course

/-!
# Solves in succession

A solve takes its configuration and its observers from the solver, but nothing of the workspace that
the last one left (`Solver.solveWithin_new`). So one solver can be used for problems of different
shapes, one after another. `AnySolver` is a solver without a shape, and a `Task` is what it is given
for one solve; as long as all tasks are of one shape it does what a solver of that shape does
(`AnySolver.after_ofSolver`).

No law of arithmetic is used.
-/

namespace Shooting

variable {α : Type} [Scalar α] {s : StateSpace} {nus : List Nat}

/-- A solve that comes to its iterations leaves a workspace. -/
theorem Run.iterateFrom_workspace (c : Config α) (clock : Nat → Nat) :
    ∀ (left i : Nat) (r : Run α s nus), ∃ w,
      (r.iterateFrom c clock left i).solver.workspace = some w
  | 0, _, _ => ⟨_, rfl⟩
  | left + 1, i, r => by
    unfold iterateFrom
    split
    next => exact ⟨_, rfl⟩
    next =>
      split
      next r' _ => exact iterateFrom_workspace c clock left (i + 1) r'
      next => exact ⟨_, rfl⟩
      next => exact ⟨_, rfl⟩

/-- What is left of a solver that had the given workspace before. -/
def Solved.keeping (solved : Solved α s nus) (last : Option (Workspace α s nus)) :
    Solved α s nus :=
  { solved with solver.workspace := solved.solver.workspace.or last }

omit [Scalar α] in
theorem Solved.keeping_of_some {solved : Solved α s nus} {w : Workspace α s nus}
    (h : solved.solver.workspace = some w) (last : Option (Workspace α s nus)) :
    solved.keeping last = solved := by
  obtain ⟨p, ⟨c, workspace, o⟩, log, outcome⟩ := solved
  cases h
  rfl

/-- **A solve does the same on a solver that has not solved anything**, but that a refused solve
leaves the workspace there was. -/
theorem Solver.solveWithin_new (sv : Solver α s nus) (p : Problem α s nus) (g : Guess α)
    (clock : Nat → Nat) (budget : Nat) :
    sv.solveWithin p g clock budget =
      ((Solver.new sv.config sv.observers).solveWithin p g clock budget).keeping sv.workspace := by
  have hinit : (Solver.new sv.config sv.observers).initialize? p g = sv.initialize? p g := rfl
  unfold solveWithin
  rw [hinit]
  cases sv.initialize? p g with
  | error e => rfl
  | ok started =>
    dsimp only
    split
    next =>
      split
      next =>
        obtain ⟨w, hw⟩ := Run.iterateFrom_workspace sv.config clock budget 0 _
        exact (Solved.keeping_of_some hw _).symm
      next => rfl
    next => rfl

/-- What a solver is given for one solve. -/
structure Task (α : Type) where
  space : StateSpace
  controls : List Nat
  problem : Problem α space controls
  guess : Guess α
  clock : Nat → Nat
  budget : Nat

/-- A solver between solves of problems of whatever shape. -/
structure AnySolver (α : Type) where
  config : Config α
  /-- The workspace of the last solve that was not refused. -/
  last : Option ((s : StateSpace) × (nus : List Nat) × Workspace α s nus)
  observers : Observers α

/-- The arguments of the task are not refused under the configuration. -/
def Task.IsAdmitted (t : Task α) (c : Config α) : Prop :=
  ∃ started, (Solver.new c .none).initialize? t.problem t.guess = .ok started

namespace AnySolver

omit [Scalar α] in
/-- A solver that has not solved anything. -/
def new (c : Config α) (o : Observers α) : AnySolver α := ⟨c, none, o⟩

/-- What is left of a solver of one shape when the shape is forgotten. -/
def ofSolver (sv : Solver α s nus) : AnySolver α :=
  ⟨sv.config, sv.workspace.map fun w => ⟨s, nus, w⟩, sv.observers⟩

/-- The solver as the problem of a task finds it. -/
def solver (sv : AnySolver α) (t : Task α) : Solver α t.space t.controls :=
  .new sv.config sv.observers

/-- A task solved. -/
def solve (sv : AnySolver α) (t : Task α) : Solved α t.space t.controls :=
  (sv.solver t).solveWithin t.problem t.guess t.clock t.budget

/-- The solver after a task. -/
def after (sv : AnySolver α) (t : Task α) : AnySolver α :=
  let left := ofSolver (sv.solve t).solver
  { left with last := left.last.or sv.last }

/-- The solver after several tasks. -/
def afterAll (sv : AnySolver α) (ts : List (Task α)) : AnySolver α := ts.foldl after sv

/-- The regularizations after the last solve that was not refused. -/
def damping (sv : AnySolver α) : Option (Damping α) := sv.last.map fun ⟨_, _, w⟩ => w.damping

/-- **For problems of one shape it is a solver of that shape.** -/
theorem after_ofSolver (sv : Solver α s nus) (p : Problem α s nus) (g : Guess α)
    (clock : Nat → Nat) (budget : Nat) :
    (ofSolver sv).after ⟨s, nus, p, g, clock, budget⟩ =
      ofSolver (sv.solveWithin p g clock budget).solver := by
  rw [sv.solveWithin_new]
  show AnySolver.mk _ _ _ = AnySolver.mk _ _ _
  congr 1
  exact Option.map_or.symm

/-- A task that is not refused leaves its workspace. -/
theorem isSome_last_after (sv : AnySolver α) (t : Task α) :
    (sv.after t).last.isSome = true ↔ t.IsAdmitted sv.config ∨ sv.last.isSome = true := by
  have hconcludes := (sv.solver t).solveWithin_cases t.problem t.guess t.clock t.budget
  have hadmitted : t.IsAdmitted sv.config ↔ (sv.solve t).solver.workspace.isSome = true :=
    (hconcludes.isSome_workspace rfl).symm
  rw [hadmitted]
  show (((sv.solve t).solver.workspace.map _).or sv.last).isSome = true ↔ _
  rw [Option.isSome_or, Option.isSome_map, Bool.or_eq_true]

/-- The configuration is never changed. -/
theorem config_after (sv : AnySolver α) (t : Task α) : (sv.after t).config = sv.config :=
  ((sv.solver t).solveWithin_cases t.problem t.guess t.clock t.budget).config

/-- There is a workspace from the first task on that is not refused. -/
theorem isSome_last_afterAll (sv : AnySolver α) (ts : List (Task α)) :
    (sv.afterAll ts).last.isSome = true ↔
      (∃ t ∈ ts, t.IsAdmitted sv.config) ∨ sv.last.isSome = true := by
  induction ts generalizing sv with
  | nil => simp [afterAll]
  | cons t ts ih =>
    have hrest := ih (sv.after t)
    rw [sv.config_after, sv.isSome_last_after] at hrest
    refine hrest.trans ⟨?_, ?_⟩
    · rintro (⟨t', hmem, hadmitted⟩ | hadmitted | hlast)
      · exact .inl ⟨t', .tail t hmem, hadmitted⟩
      · exact .inl ⟨t, .head ts, hadmitted⟩
      · exact .inr hlast
    · rintro (⟨t', hmem, hadmitted⟩ | hlast)
      · cases hmem with
        | head => exact .inr (.inl hadmitted)
        | tail _ hmem => exact .inl ⟨t', hmem, hadmitted⟩
      · exact .inr (.inr hlast)

end AnySolver

end Shooting
