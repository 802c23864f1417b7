import Shooting.Proofs.Solver.Backward
import Shooting.Proofs.Solver.Consistency

/-!
# Solves that converge at once

A solve converges at once if it ends as converged before it has done an iteration. That is decided
by its first backward pass alone (`Solver.FirstPass`): the path is the one that was given, nothing
was tried yet, and what the pass promises is looked at (`ConvergesAtOnce.firstPass`,
`FirstPass.convergesAtOnce`).

Of what a solve begins with, only the regularization depends on the one that was asked for
(`Begins.regularization`), so that the first passes of two solves which differ in nothing else work
on the same stages and gaps (`FirstPass.regularization`).

No law of arithmetic is used.
-/

namespace Shooting

variable {α : Type} [Scalar α] {s : StateSpace} {nus : List Nat}

/-- There is a verdict on a feasible path if one of its two figures is below its threshold. -/
theorem Workspace.exists_verdict_iff {w : Workspace α s nus} {c : Config α}
    (hflag : w.feasible = true) : (∃ status, w.verdict c = some status) ↔
      w.expected.stop < c.stopThreshold ∨ Scalar.abs w.expected.first < c.gradientThreshold := by
  rw [← Option.ne_none_iff_exists', ne_eq, verdict_eq_none_iff hflag,
    Classical.not_and_iff_not_or_not, Classical.not_not, Classical.not_not]

namespace Run

variable {c : Config α} {r r' : Run α s nus} {i n : Nat} {status : Status}

/-- The iteration that ends a solve as converged does not count as completed. -/
theorem Iteration.iterations_of_converged {step : Step α s nus} (h : r.Iteration c i step)
    (hstop : step = .stop r' status n) (hconv : status.isConverged = true) : n = i := by
  rcases h.ends hstop with ⟨hn, -⟩ | ⟨rfl, -⟩
  · exact hn
  · cases hconv

end Run

namespace Solver

variable {sv : Solver α s nus} {p : Problem α s nus} {g : Guess α} {clock : Nat → Nat}
  {budget : Nat} {r₁ : Run α s nus} {policy : Policy α s.ndx nus} {res : SolveResult α}

/-- The first backward pass of a solve gets through: it works on the run `r₁` and finds `policy`. -/
structure FirstPass (sv : Solver α s nus) (p : Problem α s nus) (g : Guess α) (r₁ : Run α s nus)
    (policy : Policy α s.ndx nus) : Prop where
  prepared : ∃ r₀, sv.Begins p g r₀ ∧ r₀.refresh 0 = .ok r₁
  found : r₁.backward = (policy, none)

/-- There is one first pass. -/
theorem FirstPass.unique {r₁' : Run α s nus} {policy' : Policy α s.ndx nus}
    (h : sv.FirstPass p g r₁ policy) (h' : sv.FirstPass p g r₁' policy') :
    r₁ = r₁' ∧ policy = policy' := by
  obtain ⟨⟨r₀, hbegin, hprep⟩, hback⟩ := h
  obtain ⟨⟨r₀', hbegin', hprep'⟩, hback'⟩ := h'
  obtain rfl := hbegin.unique hbegin'
  obtain rfl := Except.ok.inj (hprep.symm.trans hprep')
  exact ⟨rfl, (Prod.mk.inj (hback.symm.trans hback')).1⟩

/-- The first pass finds a policy for the path it works on. -/
theorem FirstPass.solves (h : sv.FirstPass p g r₁ policy) :
    policy.Solves r₁.workspace.damping r₁.workspace.feasible
      (p.stages.models.expansions r₁.workspace.path) r₁.workspace.gaps := by
  obtain ⟨⟨r₀, hbegin, hprep⟩, hback⟩ := h
  obtain ⟨hc, hexp⟩ := Run.refresh_consistent hbegin.consistent hprep
  have hsolves := backward_solves hback
  rwa [hc.expanded hexp] at hsolves

/-- A solve ends as converged with the answer `res` before it has done an iteration. -/
structure ConvergesAtOnce (sv : Solver α s nus) (p : Problem α s nus) (g : Guess α)
    (clock : Nat → Nat) (budget : Nat) (res : SolveResult α) : Prop where
  outcome : (sv.solveWithin p g clock budget).outcome = .ok res
  converged : res.converged = true
  iterations : res.iterations = 0

/-- **A solve that converges at once does so for what its first backward pass promises.** -/
theorem ConvergesAtOnce.firstPass (h : sv.ConvergesAtOnce p g clock budget res) :
    0 < budget ∧ budget < Vec.sizeLimit ∧ ∃ r₁ policy status, sv.FirstPass p g r₁ policy ∧
      (r₁.planned policy).workspace.verdict sv.config = some status ∧
      res.info.stop = (r₁.planned policy).workspace.expected.stop := by
  obtain ⟨-, -, hbudget⟩ := begins_of_ok h.outcome
  obtain ⟨r₀, r, status, n, hbegin, hend, hfinish⟩ := solveWithin_ok h.outcome
  have hout := h.outcome
  rw [hfinish] at hout
  obtain rfl := Except.ok.inj hout
  have hconv : status.isConverged = true := h.converged
  have hzero : n = 0 := h.iterations
  cases hend with
  | budget => cases hconv
  | timeout => cases hconv
  | @stop i _ r' _ _ hperf hstop =>
    have hcases := Run.iterate_cases sv.config r' i
    obtain rfl : i = 0 := (hcases.iterations_of_converged hstop hconv).symm.trans hzero
    obtain rfl := hperf.reached.unique .start
    obtain ⟨r₁, policy, hprep, hback, rfl, hverdict⟩ := hcases.converged hstop hconv
    exact ⟨hperf.within, hbudget, r₁, policy, status, ⟨⟨r', hbegin, hprep⟩, hback⟩, hverdict,
      congrArg ExpectedImprovement.stop (Run.settle_expected _)⟩

/-- **A solve whose first backward pass promises nothing converges at once.** -/
theorem FirstPass.convergesAtOnce (h : sv.FirstPass p g r₁ policy) {status : Status}
    (hverdict : (r₁.planned policy).workspace.verdict sv.config = some status) (hpos : 0 < budget)
    (hbudget : budget < Vec.sizeLimit) (clock : Nat → Nat) :
    ∃ res, sv.ConvergesAtOnce p g clock budget res ∧
      res.info.stop = (r₁.planned policy).workspace.expected.stop := by
  obtain ⟨⟨r₀, hbegin, hprep⟩, hback⟩ := h
  have hstop := Run.iterate_of_verdict hprep hback hverdict
  have hsolve : sv.solveWithin p g clock budget =
      (r₁.planned policy).finish sv.config status 0 := by
    rw [solveWithin_of_begins hbegin hbudget]
    obtain ⟨left, rfl⟩ : ∃ left, budget = left + 1 := ⟨budget - 1, by omega⟩
    unfold Run.iterateFrom
    rw [if_neg (by simp [Run.isTimedOut]), hstop]
  have hconv : status.isConverged = true := Workspace.isConverged_of_verdict hverdict
  refine ⟨_, ⟨congrArg Solved.outcome hsolve, hconv, rfl⟩, ?_⟩
  exact congrArg ExpectedImprovement.stop (Run.settle_expected _)

/-! ## Solves that differ in the regularization they ask for -/

/-- Guessing a path is beginning with it. -/
theorem begins_along (hvalid : sv.config.validate = .ok ()) (path : Path α s nus) (feasible : Bool)
    {o : Option α} {regularization : α}
    (hreg : sv.config.initialRegularization o = .ok regularization)
    (hfin : Scalar.isFinite (p.evaluate path).totalCost = true) :
    sv.Begins p ⟨some path.toTrajectory.states, some path.toTrajectory.controls, feasible, o⟩
      (sv.firstRun p (.start path feasible regularization)) := by
  have hchecks : (sv.config.validate >>= fun _ => sv.config.initialRegularization o) =
      .ok regularization := by
    rw [hvalid]
    exact hreg
  refine .intro ?_ hfin
  unfold initialize? initialPath
  dsimp only [Option.getD]
  rw [hchecks, Problem.path?_toTrajectory]
  rfl

/-- Of what a solve begins with, the regularization alone depends on what is asked for. -/
theorem Begins.regularization {o : Option α} {r₀ r₀' : Run α s nus} (h : sv.Begins p g r₀)
    (h' : sv.Begins p { g with regularization := o } r₀') :
    r₀' = { r₀ with workspace.damping := r₀'.workspace.damping } := by
  obtain ⟨hinit, -⟩ := h
  obtain ⟨hinit', -⟩ := h'
  obtain ⟨-, _, path, feasible, -, hpath, rfl⟩ := initialize?_ok hinit
  obtain ⟨-, _, path', feasible', -, hpath', rfl⟩ := initialize?_ok hinit'
  obtain ⟨rfl, hpair⟩ := Prod.mk.inj (Except.ok.inj (hpath.symm.trans hpath'))
  obtain ⟨rfl, rfl⟩ := Prod.mk.inj hpair
  rfl

theorem Begins.unexpanded {r₀ : Run α s nus} (h : sv.Begins p g r₀) : r₀.unexpanded = true := by
  obtain ⟨-, -⟩ := h
  rfl

/-- So the first passes of two solves work on the same but for the regularization. -/
theorem FirstPass.regularization {o : Option α} {r₁' : Run α s nus} {policy' : Policy α s.ndx nus}
    (h : sv.FirstPass p g r₁ policy)
    (h' : sv.FirstPass p { g with regularization := o } r₁' policy') :
    r₁' = { r₁ with workspace.damping := r₁'.workspace.damping } := by
  obtain ⟨⟨r₀, hbegin, hprep⟩, -⟩ := h
  obtain ⟨⟨r₀', hbegin', hprep'⟩, -⟩ := h'
  have hbefore := hbegin.regularization hbegin'
  have hup := hbegin.unexpanded
  have hup' := hbegin'.unexpanded
  rcases Run.refresh_ok hprep with ⟨hdown, -⟩ | ⟨-, rfl⟩
  · simp [hup] at hdown
  · rcases Run.refresh_ok hprep' with ⟨hdown, -⟩ | ⟨-, rfl⟩
    · simp [hup'] at hdown
    · rw [hbefore]

end Solver

end Shooting
