import Shooting.Proofs.Solver.Backward
import Shooting.Proofs.Solver.Consistency
import Shooting.Proofs.Solver.Ledger

/-!
# Resuming a solve

A run holds much more than a path: a policy, stored expansions, gaps, a cost that was added up by a
line search, and flags that say which of these are up to date. What it does next depends on the path
with its flag and on the regularization alone, for all the rest is made anew before it is used or
belongs to the path. `Run.Resumes` relates two runs that are at the same point in this sense,
however they came there, and one iteration keeps it, whatever it comes to (`Resumes.iterate`).

Counters go on from where they are. Of these, the step lengths and the number of an iteration are
compared: one of the two runs has some more behind it.

No law of arithmetic is used.
-/

namespace Shooting

variable {α : Type} {s : StateSpace} {nus : List Nat}

/-- Gaps are what they are one by one. -/
theorem Gaps.eq_of_toList : ∀ {nus : List Nat} {a b : Gaps α s nus},
    a.toList id id = b.toList id id → a = b
  | _, .last _, .last _, h => congrArg Horizon.last (List.cons.inj h).1
  | _, .stage _ _, .stage _ _, h => by
    obtain ⟨hgap, hrest⟩ := List.cons.inj h
    exact congr (congrArg Horizon.stage hgap) (eq_of_toList hrest)

namespace Run

/-- The run `r'` is where `r` is, and `r` has the given step lengths more behind it. -/
structure Follows (before : List α) (r r' : Run α s nus) : Prop where
  path : r'.workspace.path = r.workspace.path
  damping : r'.workspace.damping = r.workspace.damping
  feasible : r'.workspace.feasible = r.workspace.feasible
  stepLengths : r.tally.stepLengths = before ++ r'.tally.stepLengths

theorem Follows.say {before : List α} {r r' : Run α s nus} (h : r.Follows before r')
    (events events' : List (Event α)) : (r.say events).Follows before (r'.say events') :=
  ⟨h.path, h.damping, h.feasible, h.stepLengths⟩

theorem Follows.report {before : List α} {r r' : Run α s nus} (h : r.Follows before r')
    (m m' : Metrics α) : (r.report m).Follows before (r'.report m') :=
  ⟨h.path, h.damping, h.feasible, h.stepLengths⟩

/-- One more step length for both. -/
theorem append_of_follows {before a b : List α} (h : a = before ++ b) (length : α) :
    a ++ [length] = before ++ (b ++ [length]) := by
  rw [h, List.append_assoc]

end Run

/-- The steps are of one kind and lead to runs that follow one another. The first of them comes
`m` iterations later. -/
inductive Step.Follows (before : List α) (m : Nat) : Step α s nus → Step α s nus → Prop where
  | next {r r' : Run α s nus} (h : r.Follows before r') : Follows before m (.next r) (.next r')
  | stop {r r' : Run α s nus} (h : r.Follows before r') (status : Status) (n : Nat) :
      Follows before m (.stop r status (m + n)) (.stop r' status n)

variable [Scalar α]

namespace Run

variable {p : Problem α s nus} {c : Config α} {before : List α} {m j : Nat}
  {r r' r₁ r₁' : Run α s nus}

/-! ## Ends of an iteration -/

theorem Follows.isSaturated (h : r.Follows before r') (c : Config α) :
    r'.workspace.isSaturated c = r.workspace.isSaturated c := by
  unfold Workspace.isSaturated
  rw [h.damping]

theorem Follows.raise (h : r.Follows before r') (c : Config α) :
    (r'.workspace.raise c).damping = (r.workspace.raise c).damping := by
  unfold Workspace.raise
  rw [h.damping]

theorem Follows.afterBackwardFailure (h : r.Follows before r') (c : Config α) (m j : Nat) :
    (r.afterBackwardFailure c (m + j)).Follows before m (r'.afterBackwardFailure c j) := by
  unfold Run.afterBackwardFailure
  dsimp only
  rw [h.isSaturated c]
  split
  · refine .stop ?_ _ _
    exact ⟨h.path, h.damping, h.feasible, h.stepLengths⟩
  · refine .next (Follows.report ?_ _ _)
    exact ⟨h.path, h.raise c, h.feasible, append_of_follows h.stepLengths 0⟩

theorem Follows.afterStep (h : r.Follows before r') (c : Config α) (m j : Nat) (f : Found α s nus)
    (feasibility : α) :
    (r.afterStep c (m + j) f feasibility).Follows before m (r'.afterStep c j f feasibility) := by
  have hfeasible : (r'.workspace.feasible || f.length == 1) =
      (r.workspace.feasible || f.length == 1) := by rw [h.feasible]
  refine .next (Follows.report ⟨?_, ?_, ?_, append_of_follows h.stepLengths f.length⟩ _ _)
  -- the thresholds for raising and lowering look at the length of the step alone
  · dsimp only
    split <;> split <;> rfl
  · have hdamping := h.damping
    dsimp only [Workspace.accept, Workspace.lower, Workspace.raise]
    split <;> split <;> simp [hdamping]
  · dsimp only
    split <;> split <;> exact hfeasible

theorem Follows.afterRejection (h : r.Follows before r') (c : Config α) (m j : Nat)
    (length feasibility : α) :
    (r.afterRejection c (m + j) length feasibility).Follows before m
      (r'.afterRejection c j length feasibility) := by
  have hrejected := append_of_follows h.stepLengths 0
  unfold Run.afterRejection
  dsimp only
  rw [h.isSaturated c]
  split
  · refine .stop (n := j + 1) (Follows.say (Follows.report ?_ _ _) _ _) _
    exact ⟨h.path, h.raise c, h.feasible, hrejected⟩
  · refine .next (Follows.report ?_ _ _)
    exact ⟨h.path, h.raise c, h.feasible, hrejected⟩

/-! ## One iteration -/

/-- The run `r'` has resumed the solve of `p` where the run `r` is. -/
structure Resumes (p : Problem α s nus) (before : List α) (r r' : Run α s nus) : Prop
    extends r.Follows before r' where
  consistent : r.Consistent p
  consistent' : r'.Consistent p

/-- Both runs are prepared for a backward pass. -/
structure Ready (p : Problem α s nus) (before : List α) (r r' : Run α s nus) : Prop
    extends r.Resumes p before r' where
  expanded : r.unexpanded = false
  expanded' : r'.unexpanded = false

/-- Preparing a run brings up to date what it has stored. -/
theorem Resumes.refresh {i i' : Nat} (h : r.Resumes p before r') (hprep : r.refresh i = .ok r₁)
    (hprep' : r'.refresh i' = .ok r₁') : r₁.Ready p before r₁' := by
  obtain ⟨hconsistent, hexpanded⟩ := refresh_consistent h.consistent hprep
  obtain ⟨hconsistent', hexpanded'⟩ := refresh_consistent h.consistent' hprep'
  have hstays := stays_refresh hprep
  have hstays' := stays_refresh hprep'
  have hprepares := prepares_refresh hprep
  have hprepares' := prepares_refresh hprep'
  refine ⟨⟨⟨?_, ?_, ?_, ?_⟩, hconsistent, hconsistent'⟩, hexpanded, hexpanded'⟩
  · rw [hstays'.path, h.path, hstays.path]
  · rw [hprepares'.damping, h.damping, hprepares.damping]
  · rw [hstays'.feasible, h.feasible, hstays.feasible]
  · rw [hprepares.stepLengths, h.stepLengths, hprepares'.stepLengths]

/-- A backward pass that gets through is told by its policy. -/
theorem backward_eq_iff {policy : Policy α s.ndx nus} : r.backward = (policy, none) ↔
    policy.Solves r.workspace.damping r.workspace.feasible r.problem.stages.storedExpansions
      r.workspace.gaps :=
  ⟨backward_solves, backward_of_solves _⟩

namespace Ready

theorem same (h : r.Ready p before r') : r'.problem.Same r.problem :=
  h.consistent'.same.trans h.consistent.same.symm

theorem cost (h : r.Ready p before r') : r'.workspace.cost = r.workspace.cost := by
  rw [h.consistent'.cost, h.consistent.cost, h.path]

theorem gaps (h : r.Ready p before r') : r'.workspace.gaps = r.workspace.gaps := by
  refine Gaps.eq_of_toList ?_
  rw [h.consistent'.gaps h.expanded', h.consistent.gaps h.expanded, h.path]

theorem storedExpansions (h : r.Ready p before r') :
    r'.problem.stages.storedExpansions = r.problem.stages.storedExpansions := by
  rw [h.consistent'.expanded h.expanded', h.consistent.expanded h.expanded, h.path]

/-- A backward pass gets through for both or for neither, whatever policies it overwrites. -/
theorem backward_iff (h : r.Ready p before r') {policy : Policy α s.ndx nus} :
    r'.backward = (policy, none) ↔ r.backward = (policy, none) := by
  rw [backward_eq_iff, backward_eq_iff, h.damping, h.feasible, h.storedExpansions, h.gaps]

theorem backward_of_failure (h : r.Ready p before r') {policy : Policy α s.ndx nus}
    {failure : BackwardFailure} (hback : r.backward = (policy, some failure)) :
    ∃ policy' failure', r'.backward = (policy', some failure') := by
  cases hback' : r'.backward with
  | mk policy' outcome =>
    cases outcome with
    | some failure' => exact ⟨policy', failure', rfl⟩
    | none =>
      -- the pass would get through for the other run, too
      rw [h.backward_iff.mp hback'] at hback
      cases (Prod.mk.inj hback).2

/-- Once a policy is found, nothing is left in which the workspaces differ. -/
theorem workspace_planned (h : r.Ready p before r') (policy : Policy α s.ndx nus) :
    (r'.planned policy).workspace = (r.planned policy).workspace := by
  show Workspace.mk r'.workspace.path r'.workspace.gaps policy r'.workspace.damping
      (.ofPolicy policy r'.workspace.gaps r'.workspace.feasible) r'.workspace.cost
      r'.workspace.feasible =
    Workspace.mk r.workspace.path r.workspace.gaps policy r.workspace.damping
      (.ofPolicy policy r.workspace.gaps r.workspace.feasible) r.workspace.cost
      r.workspace.feasible
  rw [h.path, h.gaps, h.damping, h.cost, h.feasible]

theorem search_planned (h : r.Ready p before r') (policy : Policy α s.ndx nus) (c : Config α) :
    ((r.planned policy).search c).Matches ((r'.planned policy).search c) := by
  unfold search
  rw [h.workspace_planned policy]
  exact lineSearch_congr c _ h.same

end Ready

/-- **An iteration comes to the same from both runs.** The cases are what it can come to from the
first of them. -/
theorem Resumes.iterate (h : r.Resumes p before r') (hprep : r.refresh (m + j) = .ok r₁)
    (hprep' : r'.refresh j = .ok r₁') :
    (r.iterate c (m + j)).Follows before m (r'.iterate c j) := by
  have hready := h.refresh hprep hprep'
  cases hback : r₁.backward with
  | mk policy outcome =>
    cases outcome with
    | some failure =>
      -- what the pass leaves of the two policies may differ, but nothing else does
      obtain ⟨policy', failure', hback'⟩ := hready.backward_of_failure hback
      rw [iterate_of_failure hprep hback, iterate_of_failure hprep' hback']
      refine Follows.afterBackwardFailure ?_ c m j
      exact ⟨hready.path, hready.damping, hready.feasible, hready.stepLengths⟩
    | none =>
      -- from here on the workspaces are the same, and the verdict and the search look at these
      have hback' := hready.backward_iff.mpr hback
      have hplanned := hready.workspace_planned policy
      have hfollows : (r₁.planned policy).Follows before (r₁'.planned policy) :=
        ⟨hready.path, hready.damping, hready.feasible, hready.stepLengths⟩
      cases hend : (r₁.planned policy).workspace.verdict c with
      | some status =>
        rw [iterate_of_verdict hprep hback hend,
          iterate_of_verdict hprep' hback' (by rw [hplanned, hend])]
        exact .stop hfollows status j
      | none =>
        have hend' : (r₁'.planned policy).workspace.verdict c = none := by rw [hplanned, hend]
        have hsearch := hready.search_planned policy c
        have hsearched : ((r₁.planned policy).searched c).Follows before
            ((r₁'.planned policy).searched c) :=
          ⟨hfollows.path, hfollows.damping, hfollows.feasible, hfollows.stepLengths⟩
        cases hfound : ((r₁.planned policy).search c).found with
        | some f =>
          rw [iterate_of_found hprep hback hend hfound,
            iterate_of_found hprep' hback' hend' (hsearch.found.trans hfound), hplanned]
          exact hsearched.afterStep c m j f _
        | none =>
          rw [iterate_of_not_found hprep hback hend hfound,
            iterate_of_not_found hprep' hback' hend' (hsearch.found.trans hfound), hplanned,
            hsearch.length]
          exact hsearched.afterRejection c m j _ _

end Run

end Shooting
