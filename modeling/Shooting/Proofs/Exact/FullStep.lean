import Shooting.Proofs.Exact.Costate
import Shooting.Proofs.Exact.Reduction
import Shooting.Proofs.Solver.Descent
import Shooting.Proofs.Solver.Feasibility
import Shooting.Proofs.Solver.Ledger
import Shooting.Proofs.Solver.Regularization

/-!
# Full steps on linear-quadratic problems

On a linear-quadratic problem a full step gains what is expected of it and, on top, what the
regularization charges for its displacements (`Workspace.Plans.exists_candidate`). That surplus is
positive unless nothing moves, and then nothing was expected (`Workspace.Plans.first_eq_zero`). So
the first candidate of a line search is accepted, be the expected reduction positive, negative or
zero, and be the cost convex or not (`Run.search_full`).

Hence no other step length is ever tried, nothing is rejected, and the first step that is taken
closes all gaps. `Run.IsFull` is what every iteration keeps of that, and `Solver.steps_fully` what
comes of it for a solve.
-/

namespace Shooting

open Matrix

variable {s : StateSpace} {nx : ℕ} {nus : List ℕ}

/-! ## The surplus of a full step -/

/-- **A step that gains a surplus is accepted**, whatever was expected of it, unless nothing was
expected and the surplus is nothing. -/
theorem Config.IsValid.accepts_of_surplus {c : Config ℝ} (hvalid : c.IsValid)
    {actual expected d1 surplus : ℝ} (hactual : actual = expected + surplus) (hnonneg : 0 ≤ surplus)
    (hnothing : surplus = 0 → Scalar.abs d1 < c.gradientThreshold) :
    c.accepts actual expected d1 = true := by
  unfold accepts
  by_cases hsmall : Scalar.abs d1 < c.gradientThreshold
  · rw [if_pos hsmall]
  · have hpos : 0 < surplus := lt_of_le_of_ne hnonneg fun hzero => hsmall (hnothing hzero.symm)
    rw [if_neg hsmall]
    split
    next hgain =>
      have hkept := mul_le_of_le_one_left hgain hvalid.ratio.2.le
      exact decide_eq_true (by linarith)
    next hloss =>
      have hratio : 1 ≤ c.negativeAcceptanceRatio := not_lt.mp hvalid.negativeRatio
      have hallowed := mul_le_of_one_le_left (not_le.mp hloss).le hratio
      exact decide_eq_true (by linarith)

namespace Displacements

variable {d : Damping ℝ}

theorem penalty_nonneg (hstate : 0 ≤ d.state) (hcontrol : 0 ≤ d.control) : ∀ {nus : List ℕ}
    (ds : Displacements ℝ s nus), 0 ≤ ds.penalty d
  | _, .last dx => mul_nonneg (div_nonneg hstate zero_le_two) dx.normSq_nonneg
  | _, .stage δ ds =>
    add_nonneg (add_nonneg (mul_nonneg (div_nonneg hstate zero_le_two) δ.state.normSq_nonneg)
      (mul_nonneg (div_nonneg hcontrol zero_le_two) δ.control.normSq_nonneg))
      (penalty_nonneg hstate hcontrol ds)

/-- **A full step that costs no penalty goes nowhere**: there were no gaps to close, and the policy
leaves all controls. -/
theorem rest_of_penalty (hstate : 0 < d.state) (hcontrol : 0 < d.control) : ∀ {nus : List ℕ}
    {es : Expansions ℝ s nus} {fs : Gaps ℝ s nus} {ps : Policy ℝ s.ndx nus}
    {ds : Displacements ℝ s nus}, ds.Obeys 1 0 es fs → ds.Follows 1 ps → ds.penalty d = 0 →
    fs = .replicate (fun _ => 0) 0 nus ∧ ps.feedforwards = Controls.rest nus
  | _, .last e, .last f, .last v, .last dx, hobeys, _, hzero => by
    have hdx : dx = 0 := by
      rcases mul_eq_zero.mp hzero with hd | hnorm
      · exact absurd hd (half_pos hstate).ne'
      · exact Vec.normSq_eq_zero_iff.mp hnorm
    have hf : dx = 0 + f.scale 1 := hobeys
    rw [Vec.scale_one, Vec.zero_add, hdx] at hf
    exact ⟨congrArg Horizon.last hf.symm, rfl⟩
  | _, .stage e es, .stage f fs, .stage p ps, .stage δ ds, hobeys, hfollows, hzero => by
    have hx := mul_nonneg (half_pos hstate).le δ.state.normSq_nonneg
    have hu := mul_nonneg (half_pos hcontrol).le δ.control.normSq_nonneg
    have hrest := penalty_nonneg hstate.le hcontrol.le ds
    have hsum : d.state / 2 * δ.state.normSq + d.control / 2 * δ.control.normSq + penalty d ds = 0 :=
      hzero
    have hdx : δ.state = 0 := by
      rcases mul_eq_zero.mp (show d.state / 2 * δ.state.normSq = 0 by linarith) with hd | hnorm
      · exact absurd hd (half_pos hstate).ne'
      · exact Vec.normSq_eq_zero_iff.mp hnorm
    have hdu : δ.control = 0 := by
      rcases mul_eq_zero.mp (show d.control / 2 * δ.control.normSq = 0 by linarith) with hd | hnorm
      · exact absurd hd (half_pos hcontrol).ne'
      · exact Vec.normSq_eq_zero_iff.mp hnorm
    obtain ⟨hclosed, hlater⟩ := hobeys
    obtain ⟨hpolicy, hfollowed⟩ := hfollows
    rw [hdx, hdu, Mat.mul_zeroVec, Mat.mul_zeroVec, Vec.zero_add] at hlater
    obtain ⟨hfs, hks⟩ :=
      rest_of_penalty hstate hcontrol hlater hfollowed (show penalty d ds = 0 by linarith)
    have hf : f = 0 := by
      rw [hdx, Vec.scale_one, Vec.zero_add] at hclosed
      exact hclosed.symm
    have hk : p.gains.feedforward = 0 := by
      rw [hdu, hdx, Mat.mul_zeroVec, Vec.scale_one] at hpolicy
      ext i
      have hi := congrArg (fun v => v.get i) hpolicy
      simp only [Vec.get_sub, Vec.get_neg, Vec.get_zero] at hi
      rw [Vec.get_zero]
      linarith
    refine ⟨?_, ?_⟩
    · rw [hf, hfs]
      rfl
    · show Horizon.stage p.gains.feedforward (Policy.feedforwards ps) = _
      rw [hk, hks]
      rfl

end Displacements

/-- A policy that leaves all controls promises nothing where there are no gaps. -/
theorem Policy.promise_rest (a : ℝ) : ∀ {nus : List ℕ} {ps : Policy ℝ s.ndx nus},
    ps.feedforwards = Controls.rest nus → ps.promise a (.replicate (fun _ => 0) 0 nus) = 0
  | _, .last v, _ => v.promise_zero a
  | _, .stage p ps, h => by
    obtain ⟨hk, hrest⟩ := Horizon.stage.inj h
    replace hk : p.gains.feedforward = 0 := hk
    show p.promise a + p.value.promise a 0 + Policy.promise a ps _ = 0
    rw [p.value.promise_zero, promise_rest a hrest]
    unfold StagePolicy.promise
    rw [hk, Vec.dot_real, Vec.dot_real, Vec.toFun_zero, dotProduct_zero, zero_dotProduct]
    ring

namespace Workspace.Plans

variable {ms : Lqrs nx nus} {p : Problem ℝ (.euclidean nx) nus} {w : Workspace ℝ (.euclidean nx) nus}

/-- Where a policy leaves all controls and there are no gaps, nothing is expected. -/
theorem first_eq_zero {p : Problem ℝ s nus} {w : Workspace ℝ s nus} (h : w.Plans p)
    (hgaps : w.gaps = .replicate (fun _ => 0) 0 nus)
    (hrest : w.policy.feedforwards = Controls.rest nus) : w.expected.first = 0 := by
  have hcounted : w.gaps.counted w.feasible = .replicate (fun _ => 0) 0 nus := by
    unfold Gaps.counted
    split
    next => rfl
    next => exact hgaps
  have hpromise (a : ℝ) : w.expected.reduction a = 0 := by
    rw [h.expected, ExpectedImprovement.reduction_ofPolicy, hcounted, Policy.promise_rest a hrest]
  -- a promise without a second-order part would grow with the length
  have hone := hpromise 1
  have htwo := hpromise 2
  unfold ExpectedImprovement.reduction at hone htwo
  linarith

/-- **A full step on a linear-quadratic problem is acceptable.** It goes where the policy leads. -/
theorem exists_acceptable {c : Config ℝ} (hplans : w.Plans p) (hvalid : c.IsValid)
    (hthreshold : 0 < c.gradientThreshold) (hsymm : ms.IsSymmetric)
    (hmodels : p.stages.models = ms.models)
    (hfeasible : w.feasible = true → ∀ f ∈ w.gaps.toList id id, f = 0)
    (hstate : 0 < w.damping.state) (hcontrol : 0 < w.damping.control) :
    ∃ p' cost path', w.tryStep p 1 = (p', some (cost, path')) ∧ w.acceptable c cost 1 = true ∧
      w.path.displacementsTo path' =
        Policy.roll 1 0 (ms.models.expansions w.path) w.gaps w.policy := by
  obtain ⟨p', cost, path', hstep, hobeys, hfollows, hgain⟩ :=
    hplans.exists_candidate hsymm hmodels hfeasible 1
  rw [sub_self, zero_mul, add_zero] at hgain
  refine ⟨p', cost, path', hstep, hvalid.accepts_of_surplus hgain
    (Displacements.penalty_nonneg hstate.le hcontrol.le _) ?_,
    (Displacements.obeys_and_follows_iff 1).mp ⟨hobeys, hfollows⟩⟩
  intro hzero
  obtain ⟨hgaps, hrest⟩ := Displacements.rest_of_penalty hstate hcontrol hobeys hfollows hzero
  rw [hplans.first_eq_zero hgaps hrest, Scalar.abs_real, abs_zero]
  exact hthreshold

end Workspace.Plans

/-! ## Solves -/

/-- The states that come with the guess follow from its controls if they are declared to. -/
def Guess.IsHonest (g : Guess ℝ) (p : Problem ℝ s nus) : Prop :=
  ∀ {path : Path ℝ s nus}, g.Starts p path true → p.IsRollout path

/-- It is honest to declare a rollout feasible. -/
theorem Path.isHonest_guess {p : Problem ℝ s nus} {path : Path ℝ s nus} (h : p.IsRollout path)
    (o : Option ℝ) : Guess.IsHonest
      ⟨some path.toTrajectory.states, some path.toTrajectory.controls, true, o⟩ p := by
  intro path' hstarts
  rcases hstarts.states with ⟨hnone, -⟩ | ⟨hstates, -⟩
  · cases hnone
  · have hpath' := p.path?_toTrajectory path'
    rw [hstarts.controls, ← Option.some.inj hstates] at hpath'
    obtain rfl := Except.ok.inj ((p.path?_toTrajectory path).symm.trans hpath')
    exact h

/-- A rollout has no gaps. -/
theorem Problem.IsRollout.gap_eq_zero {p : Problem ℝ (.euclidean nx) nus}
    {path : Path ℝ (.euclidean nx) nus} (h : p.IsRollout path) : ∀ f ∈ p.gapsAlong path, f = 0 := by
  intro f hf
  rw [h.gapsAlong] at hf
  obtain ⟨x, -, rfl⟩ := List.mem_map.mp hf
  exact StateSpace.diff_self _ x

namespace Run

variable {ms : Lqrs nx nus} {p : Problem ℝ (.euclidean nx) nus} {c : Config ℝ}
  {r r₁ : Run ℝ (.euclidean nx) nus} {policy : Policy ℝ nx nus}

/-- The gaps that a run has stored are zero if its path is a rollout. -/
theorem Consistent.gap_eq_zero (hc : r₁.Consistent p) (hexp : r₁.unexpanded = false)
    (hflag : r₁.workspace.feasible = true → p.IsRollout r₁.workspace.path) :
    r₁.workspace.feasible = true → ∀ f ∈ r₁.workspace.gaps.toList id id, f = 0 := by
  intro hup
  rw [hc.gaps hexp]
  exact (hflag hup).gap_eq_zero

/-- **A line search accepts its first candidate**, the full step, which goes where the policy
leads. -/
theorem search_full (hvalid : c.IsValid) (hthreshold : 0 < c.gradientThreshold)
    (hsymm : ms.IsSymmetric) (hmodels : p.stages.models = ms.models) (hc : r₁.Consistent p)
    (hexp : r₁.unexpanded = false) (hdamping : r₁.workspace.damping.Within c)
    (hflag : r₁.workspace.feasible = true → p.IsRollout r₁.workspace.path)
    (hback : r₁.backward = (policy, none)) :
    ∃ q cost path, (r₁.planned policy).search c = ⟨q, 1, 1, some ⟨1, cost, path⟩⟩ ∧
      r₁.workspace.path.displacementsTo path =
        Policy.roll 1 0 (ms.models.expansions r₁.workspace.path) r₁.workspace.gaps policy := by
  have hpos : 0 < r₁.workspace.damping.state := hdamping.allowed.pos hvalid
  obtain ⟨q, cost, path, hstep, hacc, hroll⟩ := (plans_planned hc hexp hback).exists_acceptable
    hvalid hthreshold hsymm (hc.same.models.trans hmodels) (hc.gap_eq_zero hexp hflag) hpos
    (hdamping.equal ▸ hpos)
  exact ⟨q, cost, path, lineSearch_of_acceptable hvalid.steps hstep hacc, hroll⟩

/-- All steps of the run were full ones, and what comes of that. -/
structure IsFull (p : Problem ℝ s nus) (r : Run ℝ s nus) : Prop where
  flag : r.workspace.feasible = true → p.IsRollout r.workspace.path
  closed : r.tally.accepted ≠ 0 → r.workspace.feasible = true
  rejected : r.tally.rejected = 0
  stepLengths : ∀ a ∈ r.tally.stepLengths, a = 1 ∨ a = 0
  accepted : (r.tally.stepLengths.filter fun a => decide (0 < a)).length = r.tally.accepted

/-- What the run `r'` has done since `r` when it has not taken a step. -/
theorem IsFull.of_stays {r r' : Run ℝ s nus} {p : Problem ℝ s nus} (h : r.IsFull p)
    (hs : r.Stays r') (hrejected : r'.tally.rejected = r.tally.rejected)
    (hlengths : r'.tally.stepLengths = r.tally.stepLengths ∨
      r'.tally.stepLengths = r.tally.stepLengths ++ [0]) : r'.IsFull p := by
  refine ⟨?_, ?_, hrejected.trans h.rejected, ?_, ?_⟩
  · rw [hs.feasible, hs.path]
    exact h.flag
  · rw [hs.feasible, hs.accepted]
    exact h.closed
  · rcases hlengths with heq | heq <;> rw [heq]
    · exact h.stepLengths
    · intro a ha
      rcases List.mem_append.mp ha with hold | hnew
      · exact h.stepLengths a hold
      · exact .inr (List.mem_singleton.mp hnew)
  · rw [hs.accepted, ← h.accepted]
    rcases hlengths with heq | heq <;> rw [heq]
    rw [List.filter_append, List.length_append]
    simp

/-- What the run `r'` has done since `r` when it has taken a full step. -/
theorem IsFull.of_takes {r r' : Run ℝ s nus} {p : Problem ℝ s nus} {c : Config ℝ}
    {policy : Policy ℝ s.ndx nus} {f : Found ℝ s nus} (h : r.IsFull p) (hsame : r.problem.Same p)
    (ht : r.Takes c policy f r') (hone : f.length = 1)
    (hrejected : r'.tally.rejected = r.tally.rejected)
    (hlengths : r'.tally.stepLengths = r.tally.stepLengths ++ [1]) : r'.IsFull p := by
  have hup : (r.workspace.feasible || f.length == 1) = true := by simp [hone]
  refine ⟨fun _ => ?_, fun _ => ht.feasible.trans hup, hrejected.trans h.rejected, ?_, ?_⟩
  · rw [ht.path]
    exact (hsame.isRollout _).mp (ht.found.isRollout hup)
  · intro a ha
    rw [hlengths] at ha
    rcases List.mem_append.mp ha with hold | hnew
    · exact h.stepLengths a hold
    · exact .inl (List.mem_singleton.mp hnew)
  · rw [ht.accepted, ← h.accepted, hlengths, List.filter_append, List.length_append]
    simp

/-- **An iteration takes a full step or none.** -/
theorem IsFull.iterate (hvalid : c.IsValid) (hthreshold : 0 < c.gradientThreshold)
    (hsymm : ms.IsSymmetric) (hmodels : p.stages.models = ms.models) (h : r.IsFull p)
    (hc : r.Consistent p) (hdamping : r.workspace.damping.Within c) (i : ℕ) :
    (r.iterate c i).run.IsFull p := by
  have prepared {r₁ : Run ℝ (.euclidean nx) nus} (hprep : r.refresh i = .ok r₁) :
      r₁.IsFull p ∧ r₁.workspace.damping.Within c := by
    have hp := prepares_refresh hprep
    refine ⟨h.of_stays (stays_refresh hprep) hp.rejected (.inl hp.stepLengths), ?_⟩
    rw [hp.damping]
    exact hdamping
  have hcase := iterate_cases c r i
  generalize r.iterate c i = step at hcase ⊢
  cases hcase with
  | @invalid r' e hprep =>
    obtain ⟨r₁, hok⟩ := r.exists_refresh i
    cases hok.symm.trans hprep
  | @unplanned r₁ policy failure hprep hback =>
    have hkeeps := keeps_afterBackwardFailure c r₁ policy failure i
    rcases afterBackwardFailure_cases c (r₁.withdrawn policy failure) i with
      ⟨-, heq⟩ | ⟨-, heq⟩ <;> rw [heq] at hkeeps ⊢
    · exact (prepared hprep).1.of_stays hkeeps.toStays rfl (.inl rfl)
    · exact (prepared hprep).1.of_stays hkeeps.toStays rfl (.inr rfl)
  | @optimal r₁ policy status hprep hback hend =>
    exact (prepared hprep).1.of_stays (keeps_planned r₁ policy).toStays rfl (.inl rfl)
  | @stepped r₁ policy f hprep hback hgo hfound =>
    obtain ⟨hfull, hwithin⟩ := prepared hprep
    obtain ⟨hc₁, hexp⟩ := refresh_consistent hc hprep
    obtain ⟨q, cost, path, hsearch, -⟩ :=
      search_full hvalid hthreshold hsymm hmodels hc₁ hexp hwithin hfull.flag hback
    have htakes := takes_afterStep hfound i (r₁.planned policy).workspace.feasibility
    obtain rfl : f = ⟨1, cost, path⟩ := by
      rw [hsearch] at hfound
      exact (Option.some.inj hfound).symm
    exact hfull.of_takes hc₁.same htakes rfl rfl rfl
  | @rejected r₁ policy hprep hback hgo hfound =>
    obtain ⟨hfull, hwithin⟩ := prepared hprep
    obtain ⟨hc₁, hexp⟩ := refresh_consistent hc hprep
    obtain ⟨q, cost, path, hsearch, -⟩ :=
      search_full hvalid hthreshold hsymm hmodels hc₁ hexp hwithin hfull.flag hback
    rw [hsearch] at hfound
    cases hfound

end Run

namespace Solver

variable {ms : Lqrs nx nus} {p : Problem ℝ (.euclidean nx) nus}
  {sv : Solver ℝ (.euclidean nx) nus} {g : Guess ℝ} {clock : ℕ → ℕ} {budget : ℕ}
  {r₀ r : Run ℝ (.euclidean nx) nus}

/-- All steps of a solve of `p` are full ones. -/
structure StepsFully (sv : Solver ℝ s nus) (p : Problem ℝ s nus) (g : Guess ℝ) (clock : ℕ → ℕ)
    (budget : ℕ) : Prop where
  /-- A line search that is begun accepts its first candidate, of length one. -/
  search : ∀ {r₀ i r r₁ policy}, sv.Begins p g r₀ → r₀.Performs sv.config clock budget i r →
    r.refresh i = .ok r₁ → r₁.backward = (policy, none) →
      (r₁.planned policy).workspace.verdict sv.config = none →
        ∃ q cost path, (r₁.planned policy).search sv.config = ⟨q, 1, 1, some ⟨1, cost, path⟩⟩
  /-- An iteration that adds a zero has a backward pass that ends early. -/
  zero : ∀ {r₀ i r}, sv.Begins p g r₀ → r₀.Performs sv.config clock budget i r →
    (r.iterate sv.config i).run.tally.stepLengths = r.tally.stepLengths ++ [0] → r.PassFails i
  /-- From the first step on, the path is feasible and has no gaps. -/
  closed : ∀ {r₀ i r}, sv.Begins p g r₀ → r₀.Reaches sv.config clock budget i r →
    r.tally.accepted ≠ 0 → r.workspace.feasible = true ∧ p.IsRollout r.workspace.path ∧
      ∀ f ∈ p.gapsAlong r.workspace.path, f = 0
  stepLengths : ∀ {res}, (sv.solveWithin p g clock budget).outcome = .ok res →
    ∀ a ∈ res.stepLengths, a = 1 ∨ a = 0
  zeros : ∀ {r₀ res}, sv.Begins p g r₀ → (sv.solveWithin p g clock budget).outcome = .ok res →
    res.stepLengths.countP (· == 0) = r₀.passFailures sv.config clock budget res.iterations
  rejected : ∀ {res}, (sv.solveWithin p g clock budget).outcome = .ok res → res.info.rejected = 0
  gaps : ∀ {res}, (sv.solveWithin p g clock budget).outcome = .ok res →
    res.acceptedIterations ≠ 0 → ∀ gap ∈ res.gaps, gap = (0 : Vec ℝ s.ndx).toList

/-- The first run of a solve has taken no steps. -/
theorem Begins.isFull {p : Problem ℝ s nus} {sv : Solver ℝ s nus} {r₀ : Run ℝ s nus}
    (h : sv.Begins p g r₀) (hhonest : g.IsHonest p) : r₀.IsFull p := by
  have hflag : r₀.workspace.feasible = true → p.IsRollout r₀.workspace.path := by
    intro hup
    have hstarts := h.starts
    rw [hup] at hstarts
    exact hhonest hstarts
  refine ⟨hflag, fun hstep => absurd h.accepted hstep, ?_, ?_, ?_⟩ <;> obtain ⟨-, -⟩ := h
  · rfl
  · exact nofun
  · rfl

section

variable (hthreshold : 0 < sv.config.gradientThreshold) (hsymm : ms.IsSymmetric)
  (hmodels : p.stages.models = ms.models)

include hthreshold hsymm hmodels

/-- What a solve keeps in every iteration. -/
theorem Begins.iterate_isFull (h : sv.Begins p g r₀) {i : ℕ}
    (hperf : r₀.Performs sv.config clock budget i r) (hfull : r.IsFull p) :
    (r.iterate sv.config i).run.IsFull p :=
  hfull.iterate (Config.validate_ok_iff.mp h.validate) hthreshold hsymm hmodels
    (h.consistent_of_reaches hperf.reached) (h.bounded_of_reaches hperf.reached).within i

variable (hhonest : g.IsHonest p)

include hhonest

theorem Begins.isFull_of_reaches (h : sv.Begins p g r₀) {i : ℕ}
    (hr : r₀.Reaches sv.config clock budget i r) : r.IsFull p :=
  hr.induct (P := fun r => r.IsFull p) (h.isFull hhonest)
    (h.iterate_isFull hthreshold hsymm hmodels)

theorem Begins.isFull_of_ends (h : sv.Begins p g r₀) {status : Status} {n : ℕ}
    (hend : r₀.Ends sv.config clock budget r status n) : r.IsFull p :=
  hend.induct (P := fun r => r.IsFull p) (h.isFull hhonest)
    (h.iterate_isFull hthreshold hsymm hmodels)

/-- The line search of a solve accepts its first candidate. -/
theorem Begins.search_full (h : sv.Begins p g r₀) {i : ℕ}
    (hperf : r₀.Performs sv.config clock budget i r) {r₁ : Run ℝ (.euclidean nx) nus}
    {policy : Policy ℝ nx nus} (hprep : r.refresh i = .ok r₁)
    (hback : r₁.backward = (policy, none)) :
    ∃ q cost path, (r₁.planned policy).search sv.config = ⟨q, 1, 1, some ⟨1, cost, path⟩⟩ ∧
      r₁.workspace.path.displacementsTo path =
        Policy.roll 1 0 (ms.models.expansions r₁.workspace.path) r₁.workspace.gaps policy := by
  obtain ⟨hc, hexp, hwithin⟩ := h.prepared hperf.reached hprep
  have hstays := Run.stays_refresh hprep
  have hfull := h.isFull_of_reaches hthreshold hsymm hmodels hhonest hperf.reached
  refine Run.search_full (Config.validate_ok_iff.mp h.validate) hthreshold hsymm hmodels hc hexp
    hwithin ?_ hback
  rw [hstays.feasible, hstays.path]
  exact hfull.flag

/-- An iteration whose pass gets through adds no zero. -/
theorem Begins.passFails_of_zero (h : sv.Begins p g r₀) {i : ℕ}
    (hperf : r₀.Performs sv.config clock budget i r)
    (hzero : (r.iterate sv.config i).run.tally.stepLengths = r.tally.stepLengths ++ [0]) :
    r.PassFails i := by
  have hcase := Run.iterate_cases sv.config r i
  generalize r.iterate sv.config i = step at hcase hzero
  cases hcase with
  | @invalid r' e hprep =>
    obtain ⟨r₁, hok⟩ := r.exists_refresh i
    cases hok.symm.trans hprep
  | unplanned hprep hback => exact ⟨_, _, _, hprep, hback⟩
  | @optimal r₁ policy status hprep hback hend =>
    have hnothing : r₁.tally.stepLengths = r.tally.stepLengths ++ [0] := hzero
    rw [(Run.prepares_refresh hprep).stepLengths] at hnothing
    simp at hnothing
  | @stepped r₁ policy f hprep hback hgo hfound =>
    obtain ⟨q, cost, path, hsearch, -⟩ :=
      h.search_full hthreshold hsymm hmodels hhonest hperf hprep hback
    rw [hsearch] at hfound
    obtain rfl := Option.some.inj hfound
    have hone : r₁.tally.stepLengths ++ [1] = r.tally.stepLengths ++ [0] := hzero
    rw [(Run.prepares_refresh hprep).stepLengths] at hone
    simp at hone
  | @rejected r₁ policy hprep hback hgo hfound =>
    obtain ⟨q, cost, path, hsearch, -⟩ :=
      h.search_full hthreshold hsymm hmodels hhonest hperf hprep hback
    rw [hsearch] at hfound
    cases hfound

end

/-- **Linear-quadratic problems are solved by full steps.** Whatever the symmetric weights, convex
or not, and wherever the solve starts from, every line search accepts its first candidate, the full
step. So nothing is rejected, an entry of the step lengths is one or zero, zeros come from backward
passes that end early and from nothing else, and from the first step on there are no gaps. -/
theorem steps_fully (hthreshold : 0 < sv.config.gradientThreshold) (hsymm : ms.IsSymmetric)
    (hmodels : p.stages.models = ms.models) (hhonest : g.IsHonest p) (clock : ℕ → ℕ)
    (budget : ℕ) : sv.StepsFully p g clock budget := by
  have answer {res : SolveResult ℝ} (hout : (sv.solveWithin p g clock budget).outcome = .ok res) :
      ∃ r₀ r, sv.Begins p g r₀ ∧ r₀.Ends sv.config clock budget r res.status res.iterations ∧
        r.IsFull p ∧ r.Answers res.status res.iterations res ∧
        res.Describes p r.workspace.path := by
    obtain ⟨r₀, r, status, n, hbegin, hend, hfinish⟩ := solveWithin_ok hout
    rw [hfinish] at hout
    have hanswers := Run.answers_of_finish hout
    obtain ⟨rfl, rfl⟩ : res.status = status ∧ res.iterations = n :=
      ⟨hanswers.status, hanswers.iterations⟩
    exact ⟨r₀, r, hbegin, hend, hbegin.isFull_of_ends hthreshold hsymm hmodels hhonest hend,
      hanswers, ((hbegin.consistent_of_ends hend).describes hout).1⟩
  refine ⟨?_, ?_, ?_, ?_, ?_, ?_, ?_⟩
  · intro r₀ i r r₁ policy hbegin hperf hprep hback _
    obtain ⟨q, cost, path, hsearch, -⟩ :=
      hbegin.search_full hthreshold hsymm hmodels hhonest hperf hprep hback
    exact ⟨q, cost, path, hsearch⟩
  · intro r₀ i r hbegin hperf hzero
    exact hbegin.passFails_of_zero hthreshold hsymm hmodels hhonest hperf hzero
  · intro r₀ i r hbegin hreached hsteps
    have hfull := hbegin.isFull_of_reaches hthreshold hsymm hmodels hhonest hreached
    have hflag := hfull.closed hsteps
    exact ⟨hflag, hfull.flag hflag, (hfull.flag hflag).gap_eq_zero⟩
  · intro res hout
    obtain ⟨r₀, r, -, -, hfull, hanswers, -⟩ := answer hout
    rw [hanswers.stepLengths]
    exact hfull.stepLengths
  · intro r₀ res hbegin hout
    obtain ⟨r₀', r, hbegin', hend, hfull, hanswers, -⟩ := answer hout
    obtain rfl := hbegin.unique hbegin'
    obtain ⟨reports, hcloses⟩ := hend.closes (hbegin.ledger clock budget)
    have hcount := hcloses.withoutStep
    rw [hfull.rejected, Nat.zero_add] at hcount
    rw [hanswers.stepLengths, hcloses.stepLengths, hcount, List.countP_map]
    refine List.countP_congr fun report hreport => ?_
    -- a step that was accepted has a length
    show (report.metrics.entry == 0) = true ↔ (!report.metrics.accepted) = true
    unfold Metrics.entry
    cases haccepted : report.metrics.accepted with
    | false => simp
    | true =>
      obtain ⟨k, -, hlength⟩ := hcloses.stepLength report hreport haccepted
      have hpos : 0 < report.metrics.stepLength := by
        rw [hlength]
        exact stepLength_pos k
      simp [hpos.ne']
  · intro res hout
    obtain ⟨r₀, r, -, -, hfull, hanswers, -⟩ := answer hout
    exact hanswers.rejected.trans hfull.rejected
  · intro res hout hsteps gap hgap
    obtain ⟨r₀, r, -, -, hfull, hanswers, hdescribes⟩ := answer hout
    unfold SolveResult.acceptedIterations at hsteps
    rw [hanswers.stepLengths, hfull.accepted] at hsteps
    rw [hdescribes.gaps] at hgap
    obtain ⟨f, hf, rfl⟩ := List.mem_map.mp hgap
    rw [(hfull.flag (hfull.closed hsteps)).gap_eq_zero f hf]

/-- A push that earns more than it costs, from a path with gaps. -/
theorem steps_fully_rewarded :
    let luu : Mat ℝ 1 1 := .ofFn fun _ _ => -1 / 2
    let sv : Solver ℝ (.euclidean 1) [1] := .new .standard .none
    let g : Guess ℝ := ⟨some [[3], [5]], some [[1]], false, some 1⟩
    (∃ ms : Lqrs 1 [1], ms.IsSymmetric ∧ (Problem.pushFrom luu 1).stages.models = ms.models) ∧
      0 < sv.config.gradientThreshold ∧ g.IsHonest (.pushFrom luu 1) ∧
        sv.StepsFully (.pushFrom luu 1) g (fun _ => 0) 5 ∧
        ∃ res, (sv.solveWithin (.pushFrom luu 1) g (fun _ => 0) 5).outcome = .ok res := by
  intro luu sv g
  let m : Lqr ℝ 1 1 := .driftless (.identity 1) (.identity 1) (.identity 1) luu
  let ms : Lqrs 1 [1] := .stage m (.last ⟨1, m⟩)
  have hm : m.IsSymmetric := ⟨Mat.isSymmetric_one _, Mat.isSymmetric_one _⟩
  have hsymm : ms.IsSymmetric := ⟨hm, hm⟩
  have hmodels : (Problem.pushFrom luu 1).stages.models = ms.models := rfl
  have hthreshold : 0 < sv.config.gradientThreshold := by norm_num [sv, new, Config.standard]
  have hhonest : g.IsHonest (.pushFrom luu 1) := by
    intro path hstarts
    rcases hstarts.states with ⟨hnone, -⟩ | ⟨-, hflag⟩
    · cases hnone
    · cases hflag
  have hreg : (Config.standard : Config ℝ).initialRegularization (some 1) = .ok 1 := by
    show Except.ok (Scalar.clamp 1 1e-9 1e9) = _
    unfold Scalar.clamp
    norm_num
  let path : Path ℝ (.euclidean 1) [1] :=
    .stage ⟨.replicate 1 3, .replicate 1 1⟩ (.last (.replicate 1 5))
  have hbegin : sv.Begins (.pushFrom luu 1) g (sv.firstRun _ (.start path false 1)) :=
    begins_along (Config.validate_ok_iff.mpr Config.isValid_standard) path false hreg rfl
  exact ⟨⟨ms, hsymm, hmodels⟩, hthreshold, hhonest,
    steps_fully hthreshold hsymm hmodels hhonest _ _,
    answers_of_begins hbegin _ (by norm_num [Vec.sizeLimit])⟩

end Solver

end Shooting
