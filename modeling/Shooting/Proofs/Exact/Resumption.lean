import Shooting.Proofs.Exact.Stationary
import Shooting.Proofs.Solver.Regularization
import Shooting.Proofs.Solver.Resumption

/-!
# Solves in two parts

Over the reals no iteration fails, and so two runs that are at the same point stay together to the
end (`Run.Resumes.iterateFrom`). A solve that ran out of its budget can therefore be continued: one
that is given its trajectory, with the flag and the regularization that the solver shows, begins
where it ended, and comes to what a solve with the budgets of both would have come to
(`Solver.resumed_solve_continues`).
-/

namespace Shooting

variable {s : StateSpace} {nus : List ℕ}

namespace Run

variable {p : Problem ℝ s nus} {c : Config ℝ} {before : List ℝ} {m j : ℕ} {r r' : Run ℝ s nus}

/-- The steps are of one kind, neither is a failure, and they lead to runs that are at the same
point. -/
theorem Resumes.step (h : r.Resumes p before r') (c : Config ℝ) (m j : ℕ) :
    (∃ q q', r.iterate c (m + j) = .next q ∧ r'.iterate c j = .next q' ∧
        q.Resumes p before q') ∨
      ∃ q q' status n, r.iterate c (m + j) = .stop q status (m + n) ∧
        r'.iterate c j = .stop q' status n ∧ q.Resumes p before q' := by
  obtain ⟨r₁, hprep⟩ := r.exists_refresh (m + j)
  obtain ⟨r₁', hprep'⟩ := r'.exists_refresh j
  have hstep := h.iterate (c := c) hprep hprep'
  have hconsistent : (r.iterate c (m + j)).run.Consistent p := iterate_consistent h.consistent
  have hconsistent' : (r'.iterate c j).run.Consistent p := iterate_consistent h.consistent'
  generalize r.iterate c (m + j) = step at hstep hconsistent
  generalize r'.iterate c j = step' at hstep hconsistent'
  cases hstep with
  | next hfollows => exact .inl ⟨_, _, rfl, rfl, hfollows, hconsistent, hconsistent'⟩
  | stop hfollows status n =>
    exact .inr ⟨_, _, status, n, rfl, rfl, hfollows, hconsistent, hconsistent'⟩

/-- **Runs at the same point stay together to the end.** The induction is on the iterations that are
left, which are the same for both. -/
theorem Resumes.iterateFrom (htimeout : c.timeout = none) (clock clock' : ℕ → ℕ) (m : ℕ) :
    ∀ (left j : ℕ) {r r' : Run ℝ s nus}, r.Resumes p before r' →
      ∃ (q q' : Run ℝ s nus) (status : Status) (n : ℕ), q.Resumes p before q' ∧
        r.iterateFrom c clock left (m + j) = q.finish c status (m + n) ∧
        r'.iterateFrom c clock' left j = q'.finish c status n
  | 0, j, r, r', h => ⟨r, r', .maxIterationsReached, j, h, rfl, rfl⟩
  | left + 1, j, r, r', h => by
    unfold Run.iterateFrom
    rw [isTimedOut_of_none htimeout, isTimedOut_of_none htimeout, if_neg Bool.false_ne_true,
      if_neg Bool.false_ne_true]
    rcases h.step c m j with
      ⟨q, q', hnext, hnext', hq⟩ | ⟨q, q', status, n, hstop, hstop', hq⟩
    · rw [hnext, hnext']
      exact iterateFrom htimeout clock clock' m left (j + 1) hq
    · rw [hstop, hstop']
      exact ⟨q, q', status, n, hq, rfl, rfl⟩

end Run

/-- The arguments of a solve that goes on where the answer `res` ends: its trajectory, with the flag
and the regularization of the workspace that the solve left. -/
def SolveResult.resume {α : Type} (res : SolveResult α) (w : Workspace α s nus) : Guess α :=
  ⟨some res.trajectory.states, some res.trajectory.controls, w.feasible, some w.damping.state⟩

/-- The answer `later` of a solve goes on from the answer `first` of `m` iterations, and both
together are the answer `whole`. -/
structure SolveResult.Continues (m : ℕ) (first later whole : SolveResult ℝ) : Prop where
  status : later.status = whole.status
  trajectory : later.trajectory = whole.trajectory
  finalCost : later.finalCost = whole.finalCost
  gaps : later.gaps = whole.gaps
  regularization : later.info.damping = whole.info.damping
  stepLengths : whole.stepLengths = first.stepLengths ++ later.stepLengths
  iterations : whole.iterations = m + later.iterations

namespace Solver

variable {sv : Solver ℝ s nus} {p : Problem ℝ s nus} {g : Guess ℝ} {clock clock' : ℕ → ℕ}
  {m n : ℕ} {r₀ r : Run ℝ s nus}

/-- What is answered at the end of two runs at the same point. -/
theorem continues_of_resumes {c : Config ℝ} {before : List ℝ} {q q' : Run ℝ s nus} {status : Status}
    {first later whole : SolveResult ℝ} (h : q.Resumes p before q')
    (hbefore : first.stepLengths = before)
    (hwhole : (q.finish c status (m + n)).outcome = .ok whole)
    (hlater : (q'.finish c status n).outcome = .ok later) : first.Continues m later whole := by
  have hanswers := Run.answers_of_finish hwhole
  have hanswers' := Run.answers_of_finish hlater
  obtain ⟨hdescribes, -⟩ := h.consistent.describes hwhole
  obtain ⟨hdescribes', -⟩ := h.consistent'.describes hlater
  rw [h.path] at hdescribes'
  refine ⟨?_, ?_, ?_, ?_, ?_, ?_, ?_⟩
  · rw [hanswers'.status, hanswers.status]
  · rw [hdescribes'.trajectory, hdescribes.trajectory]
  · rw [hdescribes'.finalCost, hdescribes.finalCost]
  · rw [hdescribes'.gaps, hdescribes.gaps]
  · obtain rfl := Except.ok.inj hwhole
    obtain rfl := Except.ok.inj hlater
    show q'.settle.workspace.damping = q.settle.workspace.damping
    rw [Run.settle_damping, Run.settle_damping, h.damping]
  · rw [hanswers.stepLengths, h.stepLengths, hbefore, hanswers'.stepLengths]
  · rw [hanswers.iterations, hanswers'.iterations]

/-- A solve that goes on where another ended begins at the same point. -/
theorem exists_resumes (hbegin : sv.Begins p g r₀)
    (hreached : r₀.Reaches sv.config clock m m r) {first : SolveResult ℝ}
    (hfirst : (r.finish sv.config .maxIterationsReached m).outcome = .ok first) :
    let ended := r.finish sv.config .maxIterationsReached m
    ∃ r₀', ended.solver.Begins ended.problem (first.resume r.settle.workspace) r₀' ∧
      r.Resumes p first.stepLengths r₀' := by
  intro ended
  have hconsistent := hbegin.consistent_of_reaches hreached
  have hwithin := (hbegin.bounded_of_reaches hreached).within
  obtain ⟨hdescribes, hholds⟩ := hconsistent.describes hfirst
  have hanswers := Run.answers_of_finish hfirst
  have hguess : first.resume r.settle.workspace =
      ⟨some r.workspace.path.toTrajectory.states, some r.workspace.path.toTrajectory.controls,
        r.workspace.feasible, some r.workspace.damping.state⟩ := by
    unfold SolveResult.resume
    rw [hdescribes.trajectory, r.settle_feasible, r.settle_damping]
  rw [hguess]
  have hvalid : ended.solver.config.validate = .ok () := hbegin.validate
  have hbegin' : ended.solver.Begins ended.problem _ _ :=
    begins_along hvalid r.workspace.path r.workspace.feasible (hwithin.allowed.initial rfl) rfl
  refine ⟨_, hbegin', ⟨rfl, ?_, rfl, ?_⟩, hconsistent, hbegin'.consistent.of_same hholds.same⟩
  · -- a solve starts with one value for both regularizations
    show Damping.mk r.workspace.damping.state r.workspace.damping.state = r.workspace.damping
    exact congrArg (Damping.mk _) hwithin.equal.symm
  · rw [hanswers.stepLengths]
    exact (List.append_nil _).symm

/-- **A solve can be split and resumed.** If a solve with a budget of `m` ran out of it, then going
on from there with a budget of `n` comes to what a solve with a budget of `m + n` comes to. -/
theorem resumed_solve_continues (htimeout : sv.config.timeout = none) {first whole : SolveResult ℝ}
    (hfirst : (sv.solveWithin p g clock m).outcome = .ok first)
    (hspent : first.status = .maxIterationsReached)
    (hwhole : (sv.solveWithin p g clock' (m + n)).outcome = .ok whole) (clock'' : ℕ → ℕ) :
    ∃ w, (sv.solveWithin p g clock m).solver.workspace = some w ∧
      let resumed := (sv.solveWithin p g clock m).solver.solveWithin
        (sv.solveWithin p g clock m).problem (first.resume w) clock'' n
      ∃ later, resumed.outcome = .ok later ∧ first.Continues m later whole ∧
        ∃ w₁ w₂, (sv.solveWithin p g clock' (m + n)).solver.workspace = some w₁ ∧
          resumed.solver.workspace = some w₂ ∧ w₂.feasible = w₁.feasible ∧
          w₂.damping = w₁.damping := by
  -- the first part has done all its iterations
  obtain ⟨r₀, r, status, i, hbegin, hend, hfinish⟩ := solveWithin_ok hfirst
  rw [hfinish] at hfirst ⊢
  obtain rfl : status = .maxIterationsReached :=
    (Run.answers_of_finish hfirst).status.symm.trans hspent
  obtain ⟨rfl, hreached⟩ := hend.reaches_budget
  obtain ⟨r₀', hbegin', hresumes⟩ := exists_resumes hbegin hreached hfirst
  -- the whole passes through the same run
  obtain ⟨-, -, hbudget⟩ := begins_of_ok hwhole
  have htime (j : ℕ) : Run.isTimedOut sv.config clock' j = Run.isTimedOut sv.config clock j := by
    rw [Run.isTimedOut_of_none htimeout, Run.isTimedOut_of_none htimeout]
  have hreached' := hreached.of_budget htime (Nat.le_add_right i n)
  obtain ⟨q, q', status, k, hq, hcourse, hcourse'⟩ :=
    hresumes.iterateFrom htimeout clock' clock'' i n 0
  have hwholeCourse : sv.solveWithin p g clock' (i + n) = q.finish sv.config status (i + k) := by
    rw [solveWithin_of_begins hbegin hbudget, hreached'.iterateFrom_eq, Nat.add_sub_cancel_left]
    exact hcourse
  have hbudget' : n < Vec.sizeLimit := Nat.lt_of_le_of_lt (Nat.le_add_left n i) hbudget
  refine ⟨_, rfl, ?_⟩
  intro resumed
  have hresumed : resumed = q'.finish sv.config status k :=
    (solveWithin_of_begins hbegin' hbudget').trans hcourse'
  rw [hwholeCourse] at hwhole ⊢
  rw [hresumed]
  refine ⟨_, rfl, continues_of_resumes hq rfl hwhole rfl, _, _, rfl, rfl, ?_, ?_⟩
  · rw [Run.settle_feasible, Run.settle_feasible, hq.feasible]
  · rw [Run.settle_damping, Run.settle_damping, hq.damping]

/-- The first iteration for a point that is pushed from `1` completes, whatever it comes to: there
is something to gain, and the regularization is not at its bound. -/
theorem iterate_push : ∃ r₀ r : Run ℝ (.euclidean 1) [1],
    (Solver.new .standard .none).Begins (.pushFrom (.identity 1) 1) ((Path.resting 1).guess 1) r₀ ∧
      r₀.iterate .standard 0 = .next r := by
  obtain ⟨r₁, policy, hpass, hflag, hstop, hfirst⟩ :=
    exists_firstPass_push 1 (r := 1) (by norm_num) (by norm_num)
  obtain ⟨r₀, hbegin, hprep⟩ := hpass.prepared
  have hallowed : (Config.standard : Config ℝ).Allows 1 := by
    constructor <;> norm_num [Config.standard]
  have hstart : (Solver.new .standard .none).Begins (.pushFrom (.identity 1) 1)
      ((Path.resting 1).guess 1) _ :=
    begins_along (Config.validate_ok_iff.mpr Config.isValid_standard) (.resting 1) true
      (hallowed.initial rfl) rfl
  have hdamping : r₁.workspace.damping = ⟨1, 1⟩ := by
    rw [(Run.prepares_refresh hprep).damping, hbegin.unique hstart]
    rfl
  have hgo : (r₁.planned policy).workspace.verdict .standard = none := by
    refine (Workspace.verdict_eq_none_iff hflag).mpr ⟨?_, ?_⟩
    · rw [hstop]
      norm_num [Config.standard]
    · rw [Scalar.abs_real, abs_lt]
      norm_num [Config.standard] at hfirst ⊢
      intro _
      linarith
  have hsaturated : r₁.workspace.isSaturated .standard = false := by
    unfold Workspace.isSaturated
    rw [hdamping]
    norm_num [Config.standard]
  obtain ⟨r, hnext⟩ := Run.exists_next_of_undecided hprep hpass.found hgo hsaturated
  exact ⟨r₀, r, hbegin, hnext⟩

/-- A point is pushed in one iteration and then in another. -/
theorem resumed_solve_continues_push :
    let sv : Solver ℝ (.euclidean 1) [1] := .new .standard .none
    let p : Problem ℝ (.euclidean 1) [1] := .pushFrom (.identity 1) 1
    let g := (Path.resting 1).guess 1
    ∃ first whole w later, (sv.solveWithin p g (fun _ => 0) 1).outcome = .ok first ∧
      first.status = .maxIterationsReached ∧
      (sv.solveWithin p g (fun _ => 0) (1 + 1)).outcome = .ok whole ∧
      (sv.solveWithin p g (fun _ => 0) 1).solver.workspace = some w ∧
      ((sv.solveWithin p g (fun _ => 0) 1).solver.solveWithin
        (sv.solveWithin p g (fun _ => 0) 1).problem (first.resume w) (fun _ => 0) 1).outcome =
          .ok later ∧
      first.Continues 1 later whole := by
  intro sv p g
  obtain ⟨r₀, r, hbegin, hnext⟩ := iterate_push
  have hbudget : 1 + 1 < Vec.sizeLimit := by norm_num [Vec.sizeLimit]
  have hreached : r₀.Reaches .standard (fun _ => 0) 1 1 r := .next .start (by decide) rfl hnext
  have hcourse : sv.solveWithin p g (fun _ => 0) 1 =
      r.finish .standard .maxIterationsReached 1 :=
    (solveWithin_of_begins hbegin (by omega)).trans hreached.iterateFrom_eq
  obtain ⟨first, hfirst⟩ := answers_of_begins hbegin (fun _ => 0) (by omega : 1 < Vec.sizeLimit)
  have hspent : first.status = .maxIterationsReached :=
    (Run.answers_of_finish (hcourse ▸ hfirst)).status
  obtain ⟨whole, hwhole⟩ := answers_of_begins hbegin (fun _ => 0) hbudget
  obtain ⟨w, hw, later, hlater, hcontinues, -⟩ :=
    resumed_solve_continues rfl hfirst hspent hwhole fun _ => 0
  exact ⟨first, whole, w, later, hfirst, hspent, hwhole, hw, hlater, hcontinues⟩

end Solver

end Shooting
