import Shooting.Proofs.Rollout
import Shooting.Proofs.Solver.AtOnce

/-!
# Paths without gaps

A solve treats a path in one of two ways, by a flag. If the flag is up, the backward pass and the
expected improvement leave out the gaps, and steps of all lengths close them. If it is down, gaps
shift value gradients, count in what a policy promises, and are closed as far as a step is long.

Where all gaps are zero and nothing is rounded, this makes no difference in a Euclidean space: the
two backward passes are one (`backward_gapFree`), so are the two promises (`ofPolicy_gapFree`) and
the two candidates of every length (`Workspace.tryStep_gapFree`). Paths without gaps are followed by
paths without gaps, so whole solves go the same way until the convergence test, which is not applied
while the flag is down, ends one of them (`Run.iterateFrom_flagged`).
-/

namespace Shooting

variable {s : StateSpace} {nus : List ℕ} {n : ℕ}

/-! ## One backward pass -/

theorem ValueModel.across_zero {ndx : ℕ} (gradient : Vec ℝ ndx) (hessian : Mat ℝ ndx ndx)
    (damping : ℝ) :
    across gradient hessian damping (some 0) = across gradient hessian damping none := by
  unfold across
  dsimp only
  rw [Mat.mul_zeroVec, Vec.add_zero]

/-- **Gaps that are zero do not shift the value function of any stage.** -/
theorem backwardFrom_gapFree (damping : Damping ℝ) : ∀ {nus : List ℕ} (t : ℕ)
    (stages : Stages ℝ s nus) {gaps : Gaps ℝ s nus} (old : Policy ℝ s.ndx nus),
    (∀ f ∈ gaps.toList id id, f = 0) →
      backwardFrom damping true t stages gaps old = backwardFrom damping false t stages gaps old
  | _, _, .last st, .last f, .last old, h => by
    obtain rfl : f = 0 := h f (.head _)
    unfold backwardFrom
    simp only [if_true, Bool.false_eq_true, if_false, ValueModel.across_zero]
  | _, t, .stage st rest, .stage f fs, .stage old olds, h => by
    obtain rfl : f = 0 := h f (.head _)
    have hrest := backwardFrom_gapFree damping (t + 1) rest olds fun f hf => h f (.tail _ hf)
    unfold backwardFrom ActionValue.value
    simp only [if_true, Bool.false_eq_true, if_false, ValueModel.across_zero, hrest]

theorem backward_gapFree (damping : Damping ℝ) (feasible : Bool) (stages : Stages ℝ s nus)
    {gaps : Gaps ℝ s nus} (old : Policy ℝ s.ndx nus) (h : ∀ f ∈ gaps.toList id id, f = 0) :
    backward damping true stages gaps old = backward damping feasible stages gaps old := by
  cases feasible with
  | true => rfl
  | false => exact backwardFrom_gapFree damping 0 stages old h

namespace ExpectedImprovement

theorem addGap_zero {ndx : ℕ} (e : ExpectedImprovement ℝ) (v : ValueModel ℝ ndx) :
    e.addGap v 0 = e := by
  unfold addGap
  rw [Vec.dot_real, Vec.dot_real, Vec.toFun_zero, dotProduct_zero, zero_dotProduct, sub_zero,
    add_zero]

theorem addGaps_gapFree : ∀ {nus : List ℕ} (e : ExpectedImprovement ℝ) (policy : Policy ℝ s.ndx nus)
    {gaps : Gaps ℝ s nus}, (∀ f ∈ gaps.toList id id, f = 0) → addGaps e policy gaps = e
  | _, e, .last v, .last f, h => by
    obtain rfl : f = 0 := h f (.head _)
    exact e.addGap_zero v
  | _, e, .stage p ps, .stage f fs, h => by
    obtain rfl : f = 0 := h f (.head _)
    show addGaps (e.addGap p.value 0) ps fs = e
    rw [addGap_zero]
    exact addGaps_gapFree e ps fun f hf => h f (.tail _ hf)

/-- **Gaps that are zero promise nothing.** -/
theorem ofPolicy_gapFree (policy : Policy ℝ s.ndx nus) {gaps : Gaps ℝ s nus} (feasible : Bool)
    (h : ∀ f ∈ gaps.toList id id, f = 0) :
    ofPolicy policy gaps true = ofPolicy policy gaps feasible := by
  cases feasible with
  | true => rfl
  | false => exact (addGaps_gapFree _ policy h).symm

end ExpectedImprovement

/-! ## One candidate -/

theorem trialState_zero (length : ℝ) (closing : Bool)
    (predicted : Vec ℝ (StateSpace.euclidean n).nx) :
    trialState length closing predicted 0 = predicted := by
  have hmoved : (StateSpace.euclidean n).integrate predicted ((0 : Vec ℝ n).scale (length - 1)) =
      predicted := by
    rw [Vec.zero_scale]
    exact Vec.add_zero predicted
  unfold trialState
  rw [hmoved, ite_self]

/-- **There is nothing to close in gaps that are zero.** -/
theorem tryStepFrom_gapFree (length : ℝ) (closing : Bool) : ∀ {nus : List ℕ}
    (predicted : Vec ℝ (StateSpace.euclidean n).nx) (cost : ℝ)
    (stages : Stages ℝ (.euclidean n) nus) (path : Path ℝ (.euclidean n) nus)
    {gaps : Gaps ℝ (.euclidean n) nus} (policy : Policy ℝ (StateSpace.euclidean n).ndx nus),
    (∀ f ∈ gaps.toList id id, f = 0) →
      tryStepFrom length true predicted cost stages path gaps policy =
        tryStepFrom length closing predicted cost stages path gaps policy
  | _, predicted, cost, .last st, .last x, .last f, .last v, h => by
    obtain rfl : f = 0 := h f (.head _)
    rw [tryStepFrom_last, tryStepFrom_last]
    dsimp only
    rw [trialState_zero length true, trialState_zero length closing]
  | _, predicted, cost, .stage st rest, .stage k ks, .stage f fs, .stage p ps, h => by
    obtain rfl : f = 0 := h f (.head _)
    have hrest (predicted : Vec ℝ (StateSpace.euclidean n).nx) (cost : ℝ) :=
      tryStepFrom_gapFree length closing predicted cost rest ks ps fun f hf => h f (.tail _ hf)
    rw [tryStepFrom_stage, tryStepFrom_stage]
    unfold trialKnot
    simp only [trialState_zero, hrest]

/-- The workspace with its flag up. -/
def Workspace.flagged (w : Workspace ℝ s nus) : Workspace ℝ s nus := { w with feasible := true }

/-- **Whether the flag is up makes no difference to a candidate of any length.** -/
theorem Workspace.tryStep_gapFree {w : Workspace ℝ (.euclidean n) nus}
    (h : ∀ f ∈ w.gaps.toList id id, f = 0) (p : Problem ℝ (.euclidean n) nus) (length : ℝ) :
    w.flagged.tryStep p length = w.tryStep p length := by
  have hfrom := tryStepFrom_gapFree length (w.feasible || length == 1) p.start 0 p.stages w.path
    w.policy h
  unfold tryStep
  dsimp only [flagged]
  rw [Bool.true_or, hfrom]

/-! ## One iteration -/

namespace Run

/-- The run with its flag up. -/
def flagged (r : Run ℝ s nus) : Run ℝ s nus := { r with workspace := r.workspace.flagged }

/-- A run in a solve of `p` whose path has no gaps. -/
structure GapFree (p : Problem ℝ s nus) (r : Run ℝ s nus) : Prop where
  consistent : r.Consistent p
  gaps : ∀ f ∈ p.gapsAlong r.workspace.path, f = 0

end Run

/-- The step with the flag of its run up. -/
def Step.flagged : Step ℝ s nus → Step ℝ s nus
  | next r => next r.flagged
  | stop r status iterations => stop r.flagged status iterations
  | fail r cause => fail r.flagged cause

/-- What a solve leaves behind, with the flag of its workspace up. -/
def Solved.flagged (sol : Solved ℝ s nus) : Solved ℝ s nus :=
  { sol with solver.workspace := sol.solver.workspace.map Workspace.flagged }

theorem Solved.flagged_flagged (sol : Solved ℝ s nus) : sol.flagged.flagged = sol.flagged := by
  obtain ⟨problem, ⟨config, workspace, observers⟩, log, outcome⟩ := sol
  cases workspace <;> rfl

namespace Run

variable {p : Problem ℝ s nus} {c : Config ℝ} {r r₁ : Run ℝ s nus} {i : ℕ}

/-- What is stored of the gaps once the run has been prepared. -/
theorem GapFree.refresh (h : r.GapFree p) (hprep : r.refresh i = .ok r₁) :
    ∀ f ∈ r₁.workspace.gaps.toList id id, f = 0 := by
  obtain ⟨hconsistent, hexpanded⟩ := refresh_consistent h.consistent hprep
  rw [hconsistent.gaps hexpanded, (stays_refresh hprep).path]
  exact h.gaps

/-- **No iteration opens a gap.** A step that it takes is one with the flag up, and so a rollout. -/
theorem GapFree.iterate {p : Problem ℝ (.euclidean n) nus} {r : Run ℝ (.euclidean n) nus}
    (h : r.GapFree p) (c : Config ℝ) (i : ℕ) : (r.iterate c i).run.GapFree p := by
  refine ⟨iterate_consistent h.consistent, ?_⟩
  rcases (iterate_cases c r i).stays_or_takes with hs | ⟨r₁, policy, f, hprep, -, -, ht⟩
  · rw [hs.path]
    exact h.gaps
  · have hgaps := h.refresh hprep
    obtain ⟨p', hp', htry⟩ := ht.found.candidate
    rw [← Workspace.tryStep_gapFree (w := (r₁.planned policy).workspace) hgaps] at htry
    have hsame : p'.Same p := hp'.toSame.trans (refresh_consistent h.consistent hprep).1.same
    have hrollout := (hsame.isRollout _).mp (Workspace.isRollout_tryStep htry rfl)
    rw [ht.path, hrollout.gapsAlong]
    intro gap hgap
    obtain ⟨x, -, rfl⟩ := List.mem_map.mp hgap
    exact StateSpace.diff_self _ x

/-! Nothing but the passes, the candidates and the verdict looks at the flag. -/

theorem refresh_flagged (r : Run ℝ s nus) (i : ℕ) :
    r.flagged.refresh i = match r.refresh i with
      | .ok r₁ => .ok r₁.flagged
      | .error (r', e) => .error (r'.flagged, e) := by
  unfold refresh
  show (if r.unexpanded = true then _ else _) = _
  by_cases hun : r.unexpanded = true
  · rw [if_pos hun, if_pos hun]
    show (if (r.problem.expand r.workspace.path).stages.isFinite = true then _ else _) = _
    dsimp only
    cases (r.problem.expand r.workspace.path).stages.isFinite <;> rfl
  · rw [if_neg hun, if_neg hun]

theorem afterBackwardFailure_flagged (r : Run ℝ s nus) :
    r.flagged.afterBackwardFailure c i = (r.afterBackwardFailure c i).flagged := by
  unfold afterBackwardFailure
  dsimp only
  show (if r.workspace.isSaturated c = true then _ else _) = _
  cases r.workspace.isSaturated c <;> rfl

theorem afterRejection_flagged (r : Run ℝ s nus) (length feasibility : ℝ) :
    r.flagged.afterRejection c i length feasibility =
      (r.afterRejection c i length feasibility).flagged := by
  unfold afterRejection
  dsimp only
  show (if r.workspace.isSaturated c = true then _ else _) = _
  cases r.workspace.isSaturated c <;> rfl

theorem afterStep_flagged (r : Run ℝ s nus) (f : Found ℝ s nus) (feasibility : ℝ) :
    r.flagged.afterStep c i f feasibility = (r.afterStep c i f feasibility).flagged := by
  unfold afterStep
  dsimp only
  by_cases hlower : c.shrinkAbove < f.length <;> by_cases hraise : f.length ≤ c.growUpTo <;>
    simp only [hlower, hraise, if_true, if_false] <;> rfl

theorem finish_flagged (r : Run ℝ s nus) (status : Status) (iterations : ℕ) :
    r.flagged.finish c status iterations = (r.finish c status iterations).flagged := by
  have hsettle : r.flagged.settle = r.settle.flagged := by
    unfold settle
    by_cases hstale : r.stale = true
    · rw [if_pos (show r.flagged.stale = true from hstale), if_pos hstale]
      rfl
    · rw [if_neg (show ¬ r.flagged.stale = true from hstale), if_neg hstale]
      rfl
  unfold finish
  dsimp only
  rw [hsettle]
  rfl

/-- A backward pass over gaps that are zero. -/
theorem backward_flagged {r : Run ℝ s nus} (h : ∀ f ∈ r.workspace.gaps.toList id id, f = 0) :
    r.flagged.backward = r.backward :=
  backward_gapFree _ _ _ _ h

theorem planned_flagged {r : Run ℝ s nus} (h : ∀ f ∈ r.workspace.gaps.toList id id, f = 0)
    (policy : Policy ℝ s.ndx nus) : r.flagged.planned policy = (r.planned policy).flagged := by
  have hpromise := ExpectedImprovement.ofPolicy_gapFree policy r.workspace.feasible h
  unfold planned
  dsimp only [flagged, Workspace.flagged]
  rw [hpromise]

end Run

/-- **So a line search tries the same candidates and finds the same step.** The induction is on the
step lengths that are left. -/
theorem lineSearchFrom_flagged (c : Config ℝ) {w : Workspace ℝ (.euclidean n) nus}
    (h : ∀ f ∈ w.gaps.toList id id, f = 0) : ∀ (left i : ℕ) (length : ℝ)
    (p : Problem ℝ (.euclidean n) nus),
    lineSearchFrom c w.flagged left i length p = lineSearchFrom c w left i length p
  | 0, i, length, p => rfl
  | left + 1, i, _, p => by
    have hrest := lineSearchFrom_flagged c h left (i + 1) (stepLength i)
    unfold lineSearchFrom
    dsimp only
    rw [Workspace.tryStep_gapFree h]
    rcases w.tryStep p (stepLength i) with ⟨p', _ | ⟨cost, path⟩⟩
    · exact hrest p'
    · dsimp only
      rw [hrest p']
      rfl

/-- Nothing but the flag can hold back a verdict. -/
theorem Workspace.verdict_flagged (w : Workspace ℝ s nus) (c : Config ℝ) :
    w.verdict c = w.flagged.verdict c ∨ w.feasible = false ∧ w.verdict c = none := by
  obtain ⟨path, gaps, policy, damping, expected, cost, feasible⟩ := w
  cases feasible with
  | true => exact .inl rfl
  | false => exact .inr ⟨rfl, rfl⟩

namespace Run

variable {p : Problem ℝ (.euclidean n) nus} {r r₁ : Run ℝ (.euclidean n) nus} {c : Config ℝ} {i : ℕ}
  {policy : Policy ℝ (StateSpace.euclidean n).ndx nus} {status : Status}

/-- Iteration number `i` from the run `r` finds a policy that promises nothing more, and goes on
because the flag is down. -/
structure Withholds (c : Config ℝ) (r : Run ℝ s nus) (i : ℕ) (r₁ : Run ℝ s nus)
    (policy : Policy ℝ s.ndx nus) (status : Status) : Prop where
  prepared : r.refresh i = .ok r₁
  planned : r₁.backward = (policy, none)
  down : r₁.workspace.feasible = false
  verdict : (r₁.planned policy).flagged.workspace.verdict c = some status

/-- **An iteration comes to the same with the flag up**, unless it withholds a verdict. -/
theorem iterate_flagged (h : r.GapFree p) (c : Config ℝ) (i : ℕ) :
    r.flagged.iterate c i = (r.iterate c i).flagged ∨
      ∃ r₁ policy status, r.Withholds c i r₁ policy status ∧
        r.flagged.iterate c i = .stop (r₁.planned policy).flagged status i := by
  have hprep' := r.refresh_flagged i
  cases hprep : r.refresh i with
  | error failed =>
    rw [hprep] at hprep'
    rw [iterate_of_invalid c hprep, iterate_of_invalid c hprep']
    exact .inl rfl
  | ok r₁ =>
    rw [hprep] at hprep'
    have hgaps := h.refresh hprep
    rcases hpass : r₁.backward with ⟨policy, failure⟩
    have hpass' : r₁.flagged.backward = (policy, failure) := (backward_flagged hgaps).trans hpass
    cases failure with
    | some failure =>
      rw [iterate_of_failure hprep hpass, iterate_of_failure hprep' hpass']
      exact .inl (afterBackwardFailure_flagged (r₁.withdrawn policy failure))
    | none =>
      have hplan := planned_flagged hgaps policy
      have hsearch : (r₁.flagged.planned policy).search c = (r₁.planned policy).search c := by
        rw [hplan]
        exact lineSearchFrom_flagged c (w := (r₁.planned policy).workspace) hgaps _ _ _ _
      cases hverdict' : (r₁.flagged.planned policy).workspace.verdict c with
      | some status =>
        -- with the flag up the iteration ends here, with the flag down it may go on
        rw [iterate_of_verdict hprep' hpass' hverdict']
        rw [hplan] at hverdict' ⊢
        rcases (r₁.planned policy).workspace.verdict_flagged c with hsame | ⟨hdown, -⟩
        · rw [iterate_of_verdict hprep hpass (hsame.trans hverdict')]
          exact .inl rfl
        · exact .inr ⟨r₁, policy, status, ⟨hprep, hpass, hdown, hverdict'⟩, rfl⟩
      | none =>
        -- what is not held back with the flag up is not with the flag down, so both search
        have hverdict : (r₁.planned policy).workspace.verdict c = none := by
          rcases (r₁.planned policy).workspace.verdict_flagged c with hsame | ⟨-, hnone⟩
          · rw [hplan] at hverdict'
            exact hsame.trans hverdict'
          · exact hnone
        left
        cases hfound : ((r₁.planned policy).search c).found with
        | some f =>
          rw [iterate_of_found hprep hpass hverdict hfound,
            iterate_of_found hprep' hpass' hverdict' (hsearch ▸ hfound)]
          unfold searched
          rw [hsearch, hplan]
          exact afterStep_flagged ((r₁.planned policy).searched c) f _
        | none =>
          rw [iterate_of_not_found hprep hpass hverdict hfound,
            iterate_of_not_found hprep' hpass' hverdict' (hsearch ▸ hfound)]
          unfold searched
          rw [hsearch, hplan]
          exact afterRejection_flagged ((r₁.planned policy).searched c) _ _

/-- **So do the iterations of a solve**, unless one that it performs withholds a verdict, with which
it ends if the flag is up. The induction is on the iterations that are left. -/
theorem iterateFrom_flagged (clock : ℕ → ℕ) {budget : ℕ} {r₀ : Run ℝ (.euclidean n) nus} :
    ∀ (left i : ℕ) {r : Run ℝ (.euclidean n) nus}, i + left = budget →
    r₀.Reaches c clock budget i r → r.GapFree p →
    r.flagged.iterateFrom c clock left i = (r.iterateFrom c clock left i).flagged ∨
      ∃ j r' r₁ policy status, r₀.Performs c clock budget j r' ∧
        r'.Withholds c j r₁ policy status ∧ r.flagged.iterateFrom c clock left i =
          (r₁.planned policy).flagged.finish c status j
  | 0, i, r, _, _, _ => .inl (finish_flagged r _ _)
  | left + 1, i, r, hi, hreached, h => by
    have hstep := iterate_flagged h c i
    have hkept := h.iterate c i
    unfold iterateFrom
    split
    next hlate => exact .inl (finish_flagged r _ _)
    next hlate =>
      have inTime : isTimedOut c clock i = false := by simpa using hlate
      have hperf : r₀.Performs c clock budget i r := ⟨hreached, by omega, inTime⟩
      rcases hstep with hsame | ⟨r₁, policy, status, hwithholds, hstop⟩
      · rw [hsame]
        cases hnext : r.iterate c i with
        | next r' =>
          rw [hnext] at hkept
          exact iterateFrom_flagged clock left (i + 1) (by omega)
            (hreached.next hperf.within inTime hnext) hkept
        | stop r' status m => exact .inl (finish_flagged r' _ _)
        | fail r' e => exact .inl rfl
      · rw [hstop]
        exact .inr ⟨i, r, r₁, policy, status, hperf, hwithholds, rfl⟩

end Run

/-! ## A solve -/

/-- The guess with its states declared to follow from its controls. -/
def Guess.declared (g : Guess ℝ) : Guess ℝ := { g with feasible := true }

namespace Solver

/-- Without given states the flag is up already. -/
theorem initialPath_declared (p : Problem ℝ s nus) (g : Guess ℝ) :
    initialPath p g.declared =
      (initialPath p g).map fun (p', path, _) => (p', path, true) := by
  obtain ⟨states, controls, feasible, regularization⟩ := g
  unfold initialPath
  dsimp only [Guess.declared]
  cases states with
  | some xs =>
    dsimp only
    cases p.path? xs (controls.getD (p.stages.running fun st => st.zeroControl.toList)) <;> rfl
  | none =>
    dsimp only
    cases p.rollout? (controls.getD (p.stages.running fun st => st.zeroControl.toList)) <;> rfl

/-- A declaration raises the flag, and that is all. -/
theorem initialize?_declared (sv : Solver ℝ s nus) (p : Problem ℝ s nus) (g : Guess ℝ) :
    sv.initialize? p g.declared =
      (sv.initialize? p g).map fun (p', w) => (p', w.flagged) := by
  unfold initialize?
  rw [initialPath_declared]
  dsimp only [Guess.declared]
  cases sv.config.validate >>= fun _ => sv.config.initialRegularization g.regularization with
  | error fault => rfl
  | ok regularization => cases initialPath p g <;> rfl

/-- What the flag of a solve can do that is given `g`. -/
def FlagOnlyStops (sv : Solver ℝ s nus) (p : Problem ℝ s nus) (g : Guess ℝ) (clock : ℕ → ℕ)
    (budget : ℕ) : Prop :=
  (sv.solveWithin p g.declared clock budget).flagged = (sv.solveWithin p g clock budget).flagged ∨
    ∃ r₀ j r r₁ policy status, sv.Begins p g r₀ ∧ r₀.Performs sv.config clock budget j r ∧
      r.Withholds sv.config j r₁ policy status ∧ sv.solveWithin p g.declared clock budget =
        (r₁.planned policy).flagged.finish sv.config status j

theorem flagOnlyStops {sv : Solver ℝ (.euclidean n) nus} {p : Problem ℝ (.euclidean n) nus}
    {g : Guess ℝ} (h : ∀ r₀, sv.Begins p g r₀ → ∀ f ∈ p.gapsAlong r₀.workspace.path, f = 0)
    (clock : ℕ → ℕ) (budget : ℕ) : sv.FlagOnlyStops p g clock budget := by
  have hdeclared := sv.initialize?_declared p g
  cases hinit : sv.initialize? p g with
  | error e =>
    rw [hinit] at hdeclared
    left
    unfold solveWithin
    rw [hdeclared, hinit]
    rfl
  | ok start =>
    obtain ⟨p', w⟩ := start
    rw [hinit] at hdeclared
    have hbegin : sv.Begins p g (sv.firstRun p' w) := .intro hinit rfl
    have hbegin' : sv.Begins p g.declared (sv.firstRun p' w).flagged := .intro hdeclared rfl
    by_cases hbudget : budget < Vec.sizeLimit
    · unfold FlagOnlyStops
      rw [solveWithin_of_begins hbegin hbudget, solveWithin_of_begins hbegin' hbudget]
      rcases Run.iterateFrom_flagged clock budget 0 (Nat.zero_add _) .start
        ⟨hbegin.consistent, h _ hbegin⟩ with hsame | ⟨j, r, r₁, policy, status, hends⟩
      · left
        rw [hsame, Solved.flagged_flagged]
      · exact .inr ⟨_, j, r, r₁, policy, status, hbegin, hends⟩
    · -- a budget out of range is refused before the first iteration
      left
      unfold solveWithin
      rw [hdeclared, hinit]
      dsimp only [Except.map]
      rw [if_neg hbudget, if_neg hbudget]
      rfl

end Solver

/-! ## The flag is idle -/

/-- Nothing that a solve of `p` does with `w` looks different if the flag of `w` is up: what a
backward pass finds, with any regularization, what it promises, and what a step of any length leads
to and leaves with the stages. -/
structure Workspace.FlagIdle (w : Workspace ℝ s nus) (p : Problem ℝ s nus) : Prop where
  pass : ∀ damping, backward damping true p.stages w.gaps w.policy =
    backward damping false p.stages w.gaps w.policy
  promise : ∀ policy, ExpectedImprovement.ofPolicy policy w.gaps true =
    .ofPolicy policy w.gaps false
  candidate : ∀ length, { w with feasible := true }.tryStep p length =
    { w with feasible := false }.tryStep p length

theorem Workspace.flagIdle {w : Workspace ℝ (.euclidean n) nus}
    (h : ∀ f ∈ w.gaps.toList id id, f = 0) (p : Problem ℝ (.euclidean n) nus) : w.FlagIdle p where
  pass damping := backward_gapFree damping false p.stages w.policy h
  promise policy := ExpectedImprovement.ofPolicy_gapFree policy false h
  candidate length := tryStep_gapFree (w := { w with feasible := false }) h p length

/-- **On a path without gaps the flag is idle**, if nothing is rounded: it decides nothing but
whether the convergence test is applied. -/
theorem flag_idle_without_gaps (p : Problem ℝ (.euclidean n) nus) :
    (∀ w : Workspace ℝ (.euclidean n) nus, (∀ f ∈ w.gaps.toList id id, f = 0) → w.FlagIdle p) ∧
    ∀ (sv : Solver ℝ (.euclidean n) nus) (g : Guess ℝ),
      (∀ r₀, sv.Begins p g r₀ → ∀ f ∈ p.gapsAlong r₀.workspace.path, f = 0) →
        ∀ clock budget, sv.FlagOnlyStops p g clock budget :=
  ⟨fun _ h => Workspace.flagIdle h p, fun _ _ => Solver.flagOnlyStops⟩

/-- The workspace and the solve of a push that is given a rollout without being told so. -/
theorem flag_idle_push :
    ∃ (path : Path ℝ (.euclidean 1) [1]) (g : Guess ℝ), g.feasible = false ∧
      g.states = some path.toTrajectory.states ∧
      (Workspace.start path false 1).FlagIdle (.push ℝ) ∧
      (∃ r₀, (Solver.new .standard .none).Begins (.push ℝ) g r₀) ∧
      (Solver.new .standard .none).FlagOnlyStops (.push ℝ) g (fun _ => 0) 3 := by
  obtain ⟨hidle, hstops⟩ := flag_idle_without_gaps (Problem.push ℝ)
  let path := ((Problem.push ℝ).rollout (.stage (.replicate 1 1) (.last ()))).2
  have hgaps : ∀ f ∈ (Problem.push ℝ).gapsAlong path, f = 0 := by
    intro f hf
    rw [((Problem.push ℝ).isRollout_rollout _).gapsAlong] at hf
    obtain ⟨x, -, rfl⟩ := List.mem_map.mp hf
    exact StateSpace.diff_self _ x
  have hbegin : (Solver.new .standard .none).Begins (.push ℝ)
      ⟨some path.toTrajectory.states, some path.toTrajectory.controls, false, none⟩ _ :=
    Solver.begins_along (Config.validate_ok_iff.mpr Config.isValid_standard) path false rfl rfl
  refine ⟨path, _, rfl, rfl, hidle _ ?_, ⟨_, hbegin⟩, hstops _ _ ?_ _ _⟩
  · intro f hf
    replace hf : f ∈ [(0 : Vec ℝ 1), 0] := hf
    simpa using hf
  · intro r₀ hbegin'
    obtain rfl := hbegin.unique hbegin'
    exact hgaps

end Shooting
