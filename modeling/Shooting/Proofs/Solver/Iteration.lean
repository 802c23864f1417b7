import Shooting.Proofs.Solver.Trial

/-!
# What an iteration does

`Run.iterate` prepares the run, makes a policy, and then ends the solve, takes a step or rejects all
steps. `Run.Iteration` lists these cases once, each with the run it leads to (`iterate_cases`), so
that an invariant of a solve is proved by going through five cases and not by unfolding the
iteration. Two of them branch once more, on whether any regularization is left
(`afterBackwardFailure_cases`, `afterRejection_cases`); what a solve can end with is
`Iteration.ends`.

An iteration that takes no step keeps the current path with all that belongs to it
(`Run.Keeps`): whatever the reason, it changes at most the stored evaluations, the policy, the
regularization and the counters. Where the reason does not matter, two cases are enough
(`Iteration.stays_or_takes`).

No law of arithmetic is used.
-/

namespace Shooting

variable {α : Type} {s : StateSpace} {nus : List Nat}

/-- The run that an iteration leads to, whatever it comes to. -/
def Step.run : Step α s nus → Run α s nus
  | next r => r
  | stop r _ _ => r
  | fail r _ => r

/-- There is no verdict on a feasible path if neither figure is below its threshold. -/
theorem Workspace.verdict_eq_none_iff [Scalar α] {w : Workspace α s nus} {c : Config α}
    (hflag : w.feasible = true) : w.verdict c = none ↔
      ¬ w.expected.stop < c.stopThreshold ∧
        ¬ Scalar.abs w.expected.first < c.gradientThreshold := by
  unfold verdict
  rw [hflag, Bool.not_true, if_neg Bool.false_ne_true]
  split
  next hstop => simp [hstop]
  next hstop => split <;> simp_all

/-- A verdict is that an optimum was found. -/
theorem Workspace.isConverged_of_verdict [Scalar α] {w : Workspace α s nus} {c : Config α}
    {status : Status} (h : w.verdict c = some status) : status.isConverged = true := by
  unfold verdict at h
  split at h
  next => cases h
  next =>
    split at h
    next => cases h; rfl
    next =>
      split at h
      next => cases h; rfl
      next => cases h

namespace Run

/-- The run `r'` is still where `r` is: no step has been taken in between. -/
structure Stays (r r' : Run α s nus) : Prop where
  path : r'.workspace.path = r.workspace.path
  cost : r'.workspace.cost = r.workspace.cost
  feasible : r'.workspace.feasible = r.workspace.feasible
  accepted : r'.tally.accepted = r.tally.accepted
  initialCost : r'.initialCost = r.initialCost

theorem Stays.trans {r₀ r r' : Run α s nus} (h : r₀.Stays r) (h' : r.Stays r') : r₀.Stays r' :=
  ⟨h'.path.trans h.path, h'.cost.trans h.cost, h'.feasible.trans h.feasible,
    h'.accepted.trans h.accepted, h'.initialCost.trans h.initialCost⟩

variable [Scalar α]

/-- The backward pass over what the run has stored. -/
def backward (r : Run α s nus) : Policy α s.ndx nus × Option BackwardFailure :=
  Shooting.backward r.workspace.damping r.workspace.feasible r.problem.stages r.workspace.gaps
    r.workspace.policy

/-- The run after a backward pass that ended early. -/
def withdrawn (r : Run α s nus) (policy : Policy α s.ndx nus) (failure : BackwardFailure) :
    Run α s nus :=
  { r with workspace.policy := policy }.say (backwardEvents failure)

/-- The run after a backward pass that found a policy. -/
def planned (r : Run α s nus) (policy : Policy α s.ndx nus) : Run α s nus :=
  { r with
    workspace.policy := policy
    workspace.expected := .ofPolicy policy r.workspace.gaps r.workspace.feasible }

/-- The line search of a run. -/
def search (c : Config α) (r : Run α s nus) : LineSearch α s nus :=
  lineSearch c r.workspace r.problem

/-- The run after its line search. -/
def searched (c : Config α) (r : Run α s nus) : Run α s nus :=
  { r with
    problem := (r.search c).problem
    tally.evaluations := r.tally.evaluations + (r.search c).tried }

/-- The run that gives up because its backward pass ended early at the bound. -/
def exhausted (c : Config α) (r : Run α s nus) : Run α s nus :=
  { r with tally.backwardFailures := r.tally.backwardFailures + 1 }.say
    [.backwardSaturated c.regularizationMax]

/-- The run that tries again because its backward pass ended early short of the bound. -/
def postponed (c : Config α) (r : Run α s nus) (i : Nat) : Run α s nus :=
  let r := { r with
    workspace := r.workspace.raise c
    tally.backwardFailures := r.tally.backwardFailures + 1
    tally.stepLengths := r.tally.stepLengths ++ [0] }
  r.report (r.metrics i 0 false r.workspace.feasibility)

/-- The run whose line search found no step, which is reported at the bound, too. -/
def turnedDown (c : Config α) (r : Run α s nus) (i : Nat) (length feasibility : α) : Run α s nus :=
  let r := { r with
    workspace := r.workspace.raise c
    tally.rejected := r.tally.rejected + 1
    tally.stepLengths := r.tally.stepLengths ++ [0]
    stale := true }
  r.report (r.metrics i length false feasibility)

/-- What a backward pass that ended early leads to. -/
theorem afterBackwardFailure_cases (c : Config α) (r : Run α s nus) (i : Nat) :
    (r.workspace.isSaturated c = true ∧
      r.afterBackwardFailure c i = .stop (r.exhausted c) .regularizationSaturated i) ∨
    (r.workspace.isSaturated c = false ∧ r.afterBackwardFailure c i = .next (r.postponed c i)) := by
  unfold afterBackwardFailure
  dsimp only
  split
  next hbound => exact .inl ⟨hbound, rfl⟩
  next hshort => exact .inr ⟨Bool.eq_false_iff.mpr hshort, rfl⟩

/-- What a line search that found no step leads to. -/
theorem afterRejection_cases (c : Config α) (r : Run α s nus) (i : Nat) (length feasibility : α) :
    (r.workspace.isSaturated c = true ∧
      r.afterRejection c i length feasibility =
        .stop ((r.turnedDown c i length feasibility).say
          [.lineSearchSaturated c.regularizationMax]) .regularizationSaturated (i + 1)) ∨
    (r.workspace.isSaturated c = false ∧
      r.afterRejection c i length feasibility = .next (r.turnedDown c i length feasibility)) := by
  unfold afterRejection
  dsimp only
  split
  next hbound => exact .inl ⟨hbound, rfl⟩
  next hshort => exact .inr ⟨Bool.eq_false_iff.mpr hshort, rfl⟩

/-- The figures of a feasible run are those of its policy without the gaps. -/
theorem expected_planned {r : Run α s nus} (hflag : r.workspace.feasible = true)
    (policy : Policy α s.ndx nus) :
    (r.planned policy).workspace.expected = .ofPolicy policy r.workspace.gaps true := by
  show ExpectedImprovement.ofPolicy policy r.workspace.gaps r.workspace.feasible = _
  rw [hflag]

/-- What iteration number `i` from the run `r` can come to. -/
inductive Iteration (c : Config α) (r : Run α s nus) (i : Nat) : Step α s nus → Prop where
  /-- An expansion is not finite. -/
  | invalid {r' : Run α s nus} {e : SolverError α} (hprep : r.refresh i = .error (r', e)) :
      Iteration c r i (.fail r' e)
  /-- The backward pass ends early. -/
  | unplanned {r₁ : Run α s nus} {policy : Policy α s.ndx nus} {failure : BackwardFailure}
      (hprep : r.refresh i = .ok r₁) (hback : r₁.backward = (policy, some failure)) :
      Iteration c r i ((r₁.withdrawn policy failure).afterBackwardFailure c i)
  /-- The policy promises nothing more. -/
  | optimal {r₁ : Run α s nus} {policy : Policy α s.ndx nus} {status : Status}
      (hprep : r.refresh i = .ok r₁) (hback : r₁.backward = (policy, none))
      (hend : (r₁.planned policy).workspace.verdict c = some status) :
      Iteration c r i (.stop (r₁.planned policy) status i)
  /-- The line search accepts a step. -/
  | stepped {r₁ : Run α s nus} {policy : Policy α s.ndx nus} {f : Found α s nus}
      (hprep : r.refresh i = .ok r₁) (hback : r₁.backward = (policy, none))
      (hgo : (r₁.planned policy).workspace.verdict c = none)
      (hfound : ((r₁.planned policy).search c).found = some f) :
      Iteration c r i
        (((r₁.planned policy).searched c).afterStep c i f (r₁.planned policy).workspace.feasibility)
  /-- The line search accepts nothing. -/
  | rejected {r₁ : Run α s nus} {policy : Policy α s.ndx nus}
      (hprep : r.refresh i = .ok r₁) (hback : r₁.backward = (policy, none))
      (hgo : (r₁.planned policy).workspace.verdict c = none)
      (hfound : ((r₁.planned policy).search c).found = none) :
      Iteration c r i
        (((r₁.planned policy).searched c).afterRejection c i ((r₁.planned policy).search c).length
          (r₁.planned policy).workspace.feasibility)

/-- **Every iteration comes to one of the five cases.** -/
theorem iterate_cases (c : Config α) (r : Run α s nus) (i : Nat) :
    Iteration c r i (r.iterate c i) := by
  unfold iterate
  split
  next r' e hprep => exact .invalid hprep
  next r₁ hprep =>
    dsimp only
    split
    next policy failure hback => exact .unplanned hprep hback
    next policy hback =>
      split
      next status hend => exact .optimal hprep hback hend
      next hgo =>
        split
        next f hfound => exact .stepped hprep hback hgo hfound
        next hfound => exact .rejected hprep hback hgo hfound

/-! Conversely, what a pass and a search find tells what an iteration comes to. -/

theorem iterate_of_invalid (c : Config α) {r r' : Run α s nus} {i : Nat} {e : SolverError α}
    (hprep : r.refresh i = .error (r', e)) : r.iterate c i = .fail r' e := by
  unfold iterate
  rw [hprep]

theorem iterate_of_failure {c : Config α} {r r₁ : Run α s nus} {i : Nat}
    {policy : Policy α s.ndx nus} {failure : BackwardFailure} (hprep : r.refresh i = .ok r₁)
    (hback : r₁.backward = (policy, some failure)) :
    r.iterate c i = (r₁.withdrawn policy failure).afterBackwardFailure c i := by
  unfold backward at hback
  unfold iterate
  rw [hprep]
  dsimp only
  rw [hback]
  rfl

theorem iterate_of_verdict {c : Config α} {r r₁ : Run α s nus} {i : Nat}
    {policy : Policy α s.ndx nus} {status : Status} (hprep : r.refresh i = .ok r₁)
    (hback : r₁.backward = (policy, none))
    (hend : (r₁.planned policy).workspace.verdict c = some status) :
    r.iterate c i = .stop (r₁.planned policy) status i := by
  unfold backward at hback
  unfold planned at hend
  unfold iterate
  rw [hprep]
  dsimp only
  rw [hback]
  dsimp only
  rw [hend]
  rfl

theorem iterate_of_found {c : Config α} {r r₁ : Run α s nus} {i : Nat}
    {policy : Policy α s.ndx nus} {f : Found α s nus} (hprep : r.refresh i = .ok r₁)
    (hback : r₁.backward = (policy, none))
    (hgo : (r₁.planned policy).workspace.verdict c = none)
    (hfound : ((r₁.planned policy).search c).found = some f) :
    r.iterate c i =
      ((r₁.planned policy).searched c).afterStep c i f
        (r₁.planned policy).workspace.feasibility := by
  unfold backward at hback
  unfold search planned at hfound
  unfold planned at hgo
  unfold iterate
  rw [hprep]
  dsimp only
  rw [hback]
  dsimp only at hfound ⊢
  rw [hgo]
  dsimp only
  rw [hfound]
  rfl

theorem iterate_of_not_found {c : Config α} {r r₁ : Run α s nus} {i : Nat}
    {policy : Policy α s.ndx nus} (hprep : r.refresh i = .ok r₁)
    (hback : r₁.backward = (policy, none))
    (hgo : (r₁.planned policy).workspace.verdict c = none)
    (hfound : ((r₁.planned policy).search c).found = none) :
    r.iterate c i =
      ((r₁.planned policy).searched c).afterRejection c i ((r₁.planned policy).search c).length
        (r₁.planned policy).workspace.feasibility := by
  unfold backward at hback
  unfold search planned at hfound
  unfold planned at hgo
  unfold iterate
  rw [hprep]
  dsimp only
  rw [hback]
  dsimp only at hfound ⊢
  rw [hgo]
  dsimp only
  rw [hfound]
  rfl

/-- A solve goes on if there is no verdict, and regularization left. -/
theorem exists_next_of_undecided {c : Config α} {r r₁ : Run α s nus} {i : Nat}
    {policy : Policy α s.ndx nus} (hprep : r.refresh i = .ok r₁)
    (hback : r₁.backward = (policy, none))
    (hgo : (r₁.planned policy).workspace.verdict c = none)
    (hleft : r₁.workspace.isSaturated c = false) : ∃ r', r.iterate c i = .next r' := by
  cases hfound : ((r₁.planned policy).search c).found with
  | some f => exact ⟨_, iterate_of_found hprep hback hgo hfound⟩
  | none =>
    rw [iterate_of_not_found hprep hback hgo hfound]
    rcases afterRejection_cases c ((r₁.planned policy).searched c) i _ _ with
      ⟨hbound, -⟩ | ⟨-, hnext⟩
    · exact absurd (hleft.symm.trans hbound) Bool.false_ne_true
    · exact ⟨_, hnext⟩

/-- **How an iteration ends a solve**: with a verdict on its policy, or at the bound of the
regularization, after a pass that ended early or a search that found nothing. -/
theorem Iteration.ends {c : Config α} {r r' : Run α s nus} {i n : Nat} {status : Status}
    {step : Step α s nus} (h : r.Iteration c i step) (hstop : step = .stop r' status n) :
    (n = i ∧ ∃ r₁ policy, r.refresh i = .ok r₁ ∧ r₁.backward = (policy, none) ∧
      r' = r₁.planned policy ∧ r'.workspace.verdict c = some status) ∨
    (status = .regularizationSaturated ∧
      ∃ r₁ policy, r.refresh i = .ok r₁ ∧ r₁.workspace.isSaturated c = true ∧
        ((∃ failure, r₁.backward = (policy, some failure)) ∨
          r₁.backward = (policy, none) ∧ (r₁.planned policy).workspace.verdict c = none ∧
            ((r₁.planned policy).search c).found = none)) := by
  cases h with
  | invalid => cases hstop
  | @unplanned r₁ policy failure hprep hback =>
    rcases afterBackwardFailure_cases c (r₁.withdrawn policy failure) i with
      ⟨hbound, heq⟩ | ⟨-, heq⟩ <;> rw [heq] at hstop <;> cases hstop
    exact .inr ⟨rfl, r₁, policy, hprep, hbound, .inl ⟨failure, hback⟩⟩
  | @optimal r₁ policy status hprep hback hend =>
    cases hstop
    exact .inl ⟨rfl, r₁, policy, hprep, hback, rfl, hend⟩
  | stepped => cases hstop
  | @rejected r₁ policy hprep hback hgo hfound =>
    rcases afterRejection_cases c ((r₁.planned policy).searched c) i _ _ with
      ⟨hbound, heq⟩ | ⟨-, heq⟩ <;> rw [heq] at hstop <;> cases hstop
    exact .inr ⟨rfl, r₁, policy, hprep, hbound, .inr ⟨hback, hgo, hfound⟩⟩

/-- What an iteration has found that ends the solve as converged. All other ends are for want of
regularization. -/
theorem Iteration.converged {c : Config α} {r r' : Run α s nus} {i n : Nat} {status : Status}
    {step : Step α s nus} (h : r.Iteration c i step) (hstop : step = .stop r' status n)
    (hconv : status.isConverged = true) :
    ∃ r₁ policy, r.refresh i = .ok r₁ ∧ r₁.backward = (policy, none) ∧
      r' = r₁.planned policy ∧ r'.workspace.verdict c = some status := by
  rcases h.ends hstop with ⟨-, hverdict⟩ | ⟨rfl, -⟩
  · exact hverdict
  · cases hconv

/-- An iteration does not end a solve for want of iterations or of time. -/
theorem Iteration.status_of_stop {c : Config α} {r r' : Run α s nus} {i n : Nat} {status : Status}
    {step : Step α s nus} (h : r.Iteration c i step) (hstop : step = .stop r' status n) :
    ¬ (status = .maxIterationsReached ∨ status = .timeout) := by
  rcases h.ends hstop with ⟨-, r₁, policy, -, -, -, hend⟩ | ⟨rfl, -⟩
  · have hconv := Workspace.isConverged_of_verdict hend
    rintro (rfl | rfl) <;> cases hconv
  · rintro (hstatus | hstatus) <;> cases hstatus

/-- Nothing fails but the preparation of the run. -/
theorem Iteration.failed {c : Config α} {r r' : Run α s nus} {i : Nat} {e : SolverError α}
    {step : Step α s nus} (h : r.Iteration c i step) (hfail : step = .fail r' e) :
    r.refresh i = .error (r', e) := by
  cases h with
  | invalid hprep =>
    cases hfail
    exact hprep
  | @unplanned r₁ policy failure hprep hback =>
    rcases afterBackwardFailure_cases c (r₁.withdrawn policy failure) i with
      ⟨-, heq⟩ | ⟨-, heq⟩ <;> rw [heq] at hfail <;> cases hfail
  | optimal => cases hfail
  | stepped => cases hfail
  | @rejected r₁ policy hprep hback hgo hfound =>
    rcases afterRejection_cases c ((r₁.planned policy).searched c) i _ _ with
      ⟨-, heq⟩ | ⟨-, heq⟩ <;> rw [heq] at hfail <;> cases hfail

/-! ## Preparing the run -/

/-- What preparing a run comes to if it succeeds: the expansions and the gaps are taken along the
current path, unless they had been. -/
theorem refresh_ok {r r₁ : Run α s nus} {i : Nat} (h : r.refresh i = .ok r₁) :
    (r.unexpanded = false ∧ r₁ = r) ∨
      (r.unexpanded = true ∧
        r₁ = { r with
          problem := r.problem.expand r.workspace.path
          tally.expansions := r.tally.expansions + 1
          workspace.gaps := (r.problem.expand r.workspace.path).gaps r.workspace.path
          unexpanded := false }) := by
  unfold refresh at h
  split at h
  next hun =>
    dsimp only at h
    split at h
    next => exact .inr ⟨hun, (Except.ok.inj h).symm⟩
    next => cases h
  next hun => exact .inl ⟨by simpa using hun, (Except.ok.inj h).symm⟩

/-- What preparing a run comes to if it fails: the expansions are taken, and one is not finite. -/
theorem refresh_error {r r' : Run α s nus} {i : Nat} {e : SolverError α}
    (h : r.refresh i = .error (r', e)) :
    r.unexpanded = true ∧
      (r.problem.expand r.workspace.path).stages.isFinite = false ∧
      r' = ({ r with
        problem := r.problem.expand r.workspace.path
        tally.expansions := r.tally.expansions + 1 } : Run α s nus).say [.failure (.solver e)] ∧
      e = .invalidNumericValue (.derivatives i) r.workspace.path.toTrajectory := by
  unfold refresh at h
  split at h
  next hun =>
    dsimp only at h
    split at h
    next => cases h
    next hfin =>
      obtain ⟨rfl, rfl⟩ := Prod.mk.inj (Except.error.inj h)
      exact ⟨hun, by simpa using hfin, rfl, rfl⟩
  next => cases h

/-- Preparing a run leaves it where it is. -/
theorem stays_refresh {r r₁ : Run α s nus} {i : Nat} (h : r.refresh i = .ok r₁) : r.Stays r₁ := by
  rcases refresh_ok h with ⟨-, rfl⟩ | ⟨-, rfl⟩ <;> exact ⟨rfl, rfl, rfl, rfl, rfl⟩

theorem stays_invalid {r r' : Run α s nus} {i : Nat} {e : SolverError α}
    (h : r.refresh i = .error (r', e)) : r.Stays r' := by
  obtain ⟨-, -, rfl, -⟩ := refresh_error h
  exact ⟨rfl, rfl, rfl, rfl, rfl⟩

/-! ## Iterations without a step -/

/-- The run `r'` has changed nothing that belongs to the path of `r`. The stages have at most been
evaluated elsewhere, and then it is known that they have. -/
structure Keeps (r r' : Run α s nus) : Prop extends r.Stays r' where
  problem : r'.problem.Reevaluates r.problem
  evaluations : r'.stale = false → r.stale = false ∧ r'.problem = r.problem
  gaps : r'.workspace.gaps = r.workspace.gaps
  unexpanded : r'.unexpanded = r.unexpanded

theorem keeps_afterBackwardFailure (c : Config α) (r : Run α s nus) (policy : Policy α s.ndx nus)
    (failure : BackwardFailure) (i : Nat) :
    r.Keeps ((r.withdrawn policy failure).afterBackwardFailure c i).run := by
  rcases afterBackwardFailure_cases c (r.withdrawn policy failure) i with
    ⟨-, heq⟩ | ⟨-, heq⟩ <;> rw [heq]
  · exact ⟨⟨rfl, rfl, rfl, rfl, rfl⟩, .refl _, fun h => ⟨h, rfl⟩, rfl, rfl⟩
  · exact ⟨⟨rfl, rfl, rfl, rfl, rfl⟩, .refl _, fun h => ⟨h, rfl⟩, rfl, rfl⟩

theorem keeps_planned (r : Run α s nus) (policy : Policy α s.ndx nus) :
    r.Keeps (r.planned policy) :=
  ⟨⟨rfl, rfl, rfl, rfl, rfl⟩, .refl _, fun h => ⟨h, rfl⟩, rfl, rfl⟩

theorem keeps_afterRejection (c : Config α) (r : Run α s nus) (policy : Policy α s.ndx nus)
    (i : Nat) (length feasibility : α) :
    r.Keeps (((r.planned policy).searched c).afterRejection c i length feasibility).run := by
  have hproblem : ((r.planned policy).search c).problem.Reevaluates r.problem :=
    lineSearch_reevaluates c (r.planned policy).workspace r.problem
  -- the search may have evaluated the stages elsewhere, and the run is stale after it
  rcases afterRejection_cases c ((r.planned policy).searched c) i length feasibility with
    ⟨-, heq⟩ | ⟨-, heq⟩ <;> rw [heq]
  · exact ⟨⟨rfl, rfl, rfl, rfl, rfl⟩, hproblem, nofun, rfl, rfl⟩
  · exact ⟨⟨rfl, rfl, rfl, rfl, rfl⟩, hproblem, nofun, rfl, rfl⟩

/-! ## Iterations with a step -/

/-- The run `r'` has taken the step `f` from `r` under a policy of `r`. -/
structure Takes (c : Config α) (r : Run α s nus) (policy : Policy α s.ndx nus) (f : Found α s nus)
    (r' : Run α s nus) : Prop where
  found : FoundBy c (r.planned policy).workspace r.problem r'.problem f
  path : r'.workspace.path = f.path
  cost : r'.workspace.cost = f.cost
  feasible : r'.workspace.feasible = (r.workspace.feasible || f.length == 1)
  stale : r'.stale = false
  unexpanded : r'.unexpanded = true
  accepted : r'.tally.accepted = r.tally.accepted + 1
  initialCost : r'.initialCost = r.initialCost

/-- After a step the workspace has accepted it. Nothing but the regularization is changed then. -/
theorem workspace_afterStep (c : Config α) (r : Run α s nus) (i : Nat) (f : Found α s nus)
    (feasibility : α) : ∃ damping, (r.afterStep c i f feasibility).run.workspace =
      { r.workspace.accept f.cost f.path f.length with damping } := by
  unfold afterStep
  dsimp only [Step.run, report]
  split <;> split <;> exact ⟨_, rfl⟩

theorem takes_afterStep {c : Config α} {r : Run α s nus} {policy : Policy α s.ndx nus}
    {f : Found α s nus} (hfound : ((r.planned policy).search c).found = some f) (i : Nat)
    (feasibility : α) :
    r.Takes c policy f (((r.planned policy).searched c).afterStep c i f feasibility).run := by
  obtain ⟨damping, hw⟩ := workspace_afterStep c ((r.planned policy).searched c) i f feasibility
  refine ⟨lineSearch_found hfound, ?_, ?_, ?_, rfl, rfl, rfl, rfl⟩ <;> rw [hw] <;> rfl

/-- After a long step the regularization is lowered. -/
theorem afterStep_of_long {c : Config α} {f : Found α s nus} (hshrink : c.shrinkAbove < f.length)
    (hgrow : ¬ f.length ≤ c.growUpTo) (r : Run α s nus) (i : Nat) (feasibility : α) :
    ∃ r', r.afterStep c i f feasibility = .next r' ∧
      r'.workspace = (r.workspace.accept f.cost f.path f.length).lower c := by
  refine ⟨_, rfl, ?_⟩
  show ite _ _ _ = _
  rw [if_neg hgrow, if_pos hshrink]

/-- **An iteration stays where it is or takes one step.** The step is found from where it was, along
a policy that still promised something. -/
theorem Iteration.stays_or_takes {c : Config α} {r : Run α s nus} {i : Nat} {step : Step α s nus}
    (h : r.Iteration c i step) :
    r.Stays step.run ∨
      ∃ r₁ policy f, r.refresh i = .ok r₁ ∧ r₁.backward = (policy, none) ∧
        (r₁.planned policy).workspace.verdict c = none ∧ r₁.Takes c policy f step.run := by
  cases h with
  | invalid hprep => exact .inl (stays_invalid hprep)
  | unplanned hprep hback =>
    exact .inl ((stays_refresh hprep).trans (keeps_afterBackwardFailure c _ _ _ i).toStays)
  | optimal hprep hback hend =>
    exact .inl ((stays_refresh hprep).trans (keeps_planned _ _).toStays)
  | stepped hprep hback hgo hfound =>
    exact .inr ⟨_, _, _, hprep, hback, hgo, takes_afterStep hfound i _⟩
  | rejected hprep hback hgo hfound =>
    exact .inl ((stays_refresh hprep).trans (keeps_afterRejection c _ _ i _ _).toStays)

/-- What the step lengths of an iteration are: none or zero if it stays where it is, and the length
of the step that it takes. -/
theorem Iteration.stepLengths {c : Config α} {r : Run α s nus} {i : Nat} {step : Step α s nus}
    (h : r.Iteration c i step) :
    (r.Stays step.run ∧ ∃ zeros : List α,
        step.run.tally.stepLengths = r.tally.stepLengths ++ zeros ∧ ∀ a ∈ zeros, a = 0) ∨
      ∃ r₁ policy f, r.refresh i = .ok r₁ ∧ r₁.Takes c policy f step.run ∧
        step.run.tally.stepLengths = r.tally.stepLengths ++ [f.length] := by
  have hzero : ∀ a ∈ [(0 : α)], a = 0 := fun a ha => List.mem_singleton.mp ha
  have prepared {r₁ : Run α s nus} (hprep : r.refresh i = .ok r₁) :
      r₁.tally.stepLengths = r.tally.stepLengths := by
    rcases refresh_ok hprep with ⟨-, rfl⟩ | ⟨-, rfl⟩ <;> rfl
  cases h with
  | invalid hprep =>
    refine .inl ⟨stays_invalid hprep, [], ?_, nofun⟩
    obtain ⟨-, -, rfl, -⟩ := refresh_error hprep
    exact (List.append_nil _).symm
  | @unplanned r₁ policy failure hprep hback =>
    refine .inl ⟨(stays_refresh hprep).trans (keeps_afterBackwardFailure c _ _ _ i).toStays, ?_⟩
    rw [← prepared hprep]
    rcases afterBackwardFailure_cases c (r₁.withdrawn policy failure) i with
      ⟨-, heq⟩ | ⟨-, heq⟩ <;> rw [heq]
    · exact ⟨[], (List.append_nil _).symm, nofun⟩
    · exact ⟨[0], rfl, hzero⟩
  | optimal hprep hback hend =>
    refine .inl ⟨(stays_refresh hprep).trans (keeps_planned _ _).toStays, [], ?_, nofun⟩
    exact (prepared hprep).trans (List.append_nil _).symm
  | stepped hprep hback hgo hfound =>
    refine .inr ⟨_, _, _, hprep, takes_afterStep hfound i _, ?_⟩
    rw [← prepared hprep]
    rfl
  | @rejected r₁ policy hprep hback hgo hfound =>
    refine .inl ⟨(stays_refresh hprep).trans (keeps_afterRejection c _ _ i _ _).toStays, [0], ?_,
      hzero⟩
    rw [← prepared hprep]
    rcases afterRejection_cases c ((r₁.planned policy).searched c) i _ _ with
      ⟨-, heq⟩ | ⟨-, heq⟩ <;> rw [heq] <;> rfl

theorem initialCost_iterate (c : Config α) (r : Run α s nus) (i : Nat) :
    (r.iterate c i).run.initialCost = r.initialCost := by
  rcases (iterate_cases c r i).stays_or_takes with hs | ⟨r₁, policy, f, hprep, -, -, ht⟩
  · exact hs.initialCost
  · exact ht.initialCost.trans (stays_refresh hprep).initialCost

end Run

end Shooting
