import Shooting.Proofs.Exact.ConvexPass
import Shooting.Proofs.Exact.FullStep
import Shooting.Proofs.Exact.Residual

/-!
# Convex linear-quadratic problems

A Newton step solves a convex linear-quadratic problem at once, but the steps of a solve are
regularized, and the regularization never reaches zero. What a full step leaves is in proportion to
the regularization and to how far the step went (`Run.gradients_of_step`). So a solve in the
standard configuration takes full steps until what they leave is below its thresholds
(`Run.advances`), be it after one of them or after many.

`Solver.converges_up_to_regularization` says when one step is enough. It need not be:
`Solver.full_steps_may_not_suffice` has a problem with one stage that is not solved by a hundred
steps.
-/

namespace Shooting

open Matrix

variable {s : StateSpace} {nx nu : ℕ} {nus : List ℕ}

/-! ## Convex problems -/

/-- A stage charges states and controls apart, states never less than nothing and controls always
more. -/
structure Lqr.IsConvex (m : Lqr ℝ nx nu) : Prop extends m.IsSymmetric where
  states : m.lxx.IsNonneg
  controls : m.luu.IsPositive
  cross : m.lxu = 0

/-- The cost of the stage bends by `bend` at least where the control changes. -/
def Lqr.Bends (bend : ℝ) (m : Lqr ℝ nx nu) : Prop :=
  ∀ u : Vec ℝ nu, bend * u.normSq ≤ u.dot (m.luu * u)

namespace Lqrs

/-- All stages are convex. -/
def IsConvex : {nus : List ℕ} → Lqrs nx nus → Prop
  | _, .last m => m.2.IsConvex
  | _, .stage m ms => m.IsConvex ∧ IsConvex ms

/-- All running stages bend by `bend` at least. -/
def Bends (bend : ℝ) : {nus : List ℕ} → Lqrs nx nus → Prop
  | _, .last _ => True
  | _, .stage m ms => m.Bends bend ∧ Bends bend ms

theorem IsConvex.isSymmetric : ∀ {nus : List ℕ} {ms : Lqrs nx nus}, IsConvex ms →
    Lqrs.IsSymmetric ms
  | _, .last _, h => h.toIsSymmetric
  | _, .stage _ _, h => ⟨h.1.toIsSymmetric, isSymmetric h.2⟩

/-- Convex costs do not bend downwards. -/
theorem IsConvex.bends_zero : ∀ {nus : List ℕ} {ms : Lqrs nx nus}, IsConvex ms → Bends 0 ms
  | _, .last _, _ => trivial
  | _, .stage m ms, h => by
    refine ⟨fun u => ?_, bends_zero h.2⟩
    rw [zero_mul]
    by_cases hu : u = 0
    · rw [hu, Vec.dot_real, Vec.toFun_zero, zero_dotProduct]
    · exact (h.1.controls u hu).le

/-- **The expansions of a convex problem are convex.** -/
theorem IsConvex.expansions {bend : ℝ} : ∀ {nus : List ℕ} {ms : Lqrs nx nus}, IsConvex ms →
    Bends bend ms → ∀ path : Path ℝ (.euclidean nx) nus,
      Expansions.IsConvex bend ((Lqrs.models ms).expansions path)
  | _, .last m, h, _, .last x =>
    ⟨(Model.isSymmetric_lqr m.2 h.lxx h.luu x none).lxx, h.states⟩
  | _, .stage m ms, h, hbends, .stage k ks => by
    refine ⟨⟨Model.isSymmetric_lqr m h.1.lxx h.1.luu k.state (some k.control), fun δ => ?_⟩,
      IsConvex.expansions h.2 hbends.2 ks⟩
    have hstate := h.1.states δ.state
    have hcontrol := hbends.1 δ.control
    have hcross : δ.state.dot (m.lxu * δ.control) = 0 := by
      rw [h.1.cross, Mat.zeroMat_mul, Vec.dot_real, Vec.toFun_zero, dotProduct_zero]
    show bend * δ.control.normSq ≤ δ.state.dot (m.lxx * δ.state) +
      2 * δ.state.dot (m.lxu * δ.control) + δ.control.dot (m.luu * δ.control)
    rw [hcross]
    linarith

/-- A point on a line, with a control that moves it by `fu` and is charged by the weight `luu`. -/
noncomputable def line (fu luu : Mat ℝ 1 1) : Lqrs 1 [1] :=
  let m : Lqr ℝ 1 1 := .driftless (.identity 1) fu (.identity 1) luu
  .stage m (.last ⟨1, m⟩)

theorem isConvex_line (fu : Mat ℝ 1 1) {luu : Mat ℝ 1 1} (hpos : 0 < luu.get 0 0) :
    (line fu luu).IsConvex := by
  have hstates : (Mat.identity 1 : Mat ℝ 1 1).IsNonneg := by
    intro v
    rw [Vec.dot_one, Mat.get_mulVec_one, Mat.get_identity, if_pos rfl, one_mul]
    exact mul_self_nonneg _
  have hstage : (Lqr.driftless (.identity 1) fu (.identity 1) luu).IsConvex :=
    ⟨⟨Mat.isSymmetric_one _, Mat.isSymmetric_one _⟩, hstates, Mat.isPositive_one_iff.mpr hpos, rfl⟩
  exact ⟨hstage, hstage⟩

end Lqrs

/-! ## One iteration -/

namespace Run

variable {ms : Lqrs nx nus} {p : Problem ℝ (.euclidean nx) nus} {c : Config ℝ}
  {r r₁ : Run ℝ (.euclidean nx) nus} {policy : Policy ℝ nx nus}

/-- How a full step of the policy displaces the path. -/
noncomputable def fullStep (ms : Lqrs nx nus) (r : Run ℝ (.euclidean nx) nus)
    (policy : Policy ℝ nx nus) : Displacements ℝ (.euclidean nx) nus :=
  Policy.roll 1 0 (ms.models.expansions r.workspace.path) r.workspace.gaps policy

/-- The derivatives, by the controls, of what the regularization charges for a full step. -/
noncomputable def residual (ms : Lqrs nx nus) (r : Run ℝ (.euclidean nx) nus)
    (policy : Policy ℝ nx nus) : Controls ℝ nus :=
  ((ms.models.expansions r.workspace.path).charged r.workspace.damping
    (r.fullStep ms policy)).gradients

/-- A backward pass over a convex problem gets through. -/
theorem exists_backward (hvalid : c.IsValid) (hconvex : ms.IsConvex)
    (hmodels : p.stages.models = ms.models) (hc : r₁.Consistent p) (hexp : r₁.unexpanded = false)
    (hdamping : r₁.workspace.damping.Within c) : ∃ policy, r₁.backward = (policy, none) := by
  refine exists_backward_of_convex le_rfl ?_ hc hexp hvalid hdamping
  rw [hmodels]
  exact hconvex.expansions hconvex.bends_zero _

/-- **What a full step leaves** of the gradients of the total cost is the opposite of its
residual. -/
theorem gradients_of_step {path : Path ℝ (.euclidean nx) nus} (hsymm : ms.IsSymmetric)
    (hmodels : p.stages.models = ms.models) (hc : r₁.Consistent p) (hexp : r₁.unexpanded = false)
    (hflag : r₁.workspace.feasible = true → p.IsRollout r₁.workspace.path)
    (hback : r₁.backward = (policy, none))
    (hdisplaced : r₁.workspace.path.displacementsTo path = r₁.fullStep ms policy) :
    (ms.models.expansions path).gradients = (r₁.residual ms policy).opposite := by
  have hsolves := (backward_solves hback).counted
  rw [Gaps.counted_eq (hc.gap_eq_zero hexp hflag), hc.expanded hexp, hmodels] at hsolves
  obtain ⟨hobeys, hfollows⟩ := (Displacements.obeys_and_follows_iff 1).mpr hdisplaced
  rw [Lqrs.expansions_moved ms r₁.workspace.path path,
    (hsolves.gradients_moved (hsymm.models.expansions _) hobeys hfollows).1, hdisplaced]
  rfl

/-- What iteration number `i` can come to in the standard configuration if the problem is convex: it
ends the solve as converged or takes a full step. -/
inductive Advances (ms : Lqrs nx nus) (r : Run ℝ (.euclidean nx) nus) (i : ℕ) :
    Step ℝ (.euclidean nx) nus → Prop where
  | optimal {r₁ : Run ℝ (.euclidean nx) nus} {policy : Policy ℝ nx nus} {status : Status}
      (hprep : r.refresh i = .ok r₁) (hback : r₁.backward = (policy, none))
      (hend : (r₁.planned policy).workspace.verdict .standard = some status) :
      Advances ms r i (.stop (r₁.planned policy) status i)
  | stepped {r₁ r' : Run ℝ (.euclidean nx) nus} {policy : Policy ℝ nx nus}
      (hprep : r.refresh i = .ok r₁) (hback : r₁.backward = (policy, none))
      (hgo : (r₁.planned policy).workspace.verdict .standard = none)
      (displaced : r.workspace.path.displacementsTo r'.workspace.path = r₁.fullStep ms policy)
      (feasible : r'.workspace.feasible = true)
      (damping : r'.workspace.damping = ⟨Config.standard.lower r.workspace.damping.state,
        Config.standard.lower r.workspace.damping.control⟩)
      (stepLengths : r'.tally.stepLengths = r.tally.stepLengths ++ [1]) :
      Advances ms r i (.next r')

/-- **An iteration of a convex problem ends the solve or takes a full step.** -/
theorem advances (hconvex : ms.IsConvex) (hmodels : p.stages.models = ms.models)
    (hfull : r.IsFull p) (hc : r.Consistent p) (hdamping : r.workspace.damping.Within .standard)
    (i : ℕ) : r.Advances ms i (r.iterate .standard i) := by
  have hvalid := Config.isValid_standard
  obtain ⟨r₁, hprep⟩ := r.exists_refresh i
  obtain ⟨hc₁, hexp⟩ := refresh_consistent hc hprep
  have hstays := stays_refresh hprep
  have hprepares := prepares_refresh hprep
  have hwithin : r₁.workspace.damping.Within .standard := by
    rw [hprepares.damping]
    exact hdamping
  obtain ⟨policy, hback⟩ := exists_backward hvalid hconvex hmodels hc₁ hexp hwithin
  cases hgo : (r₁.planned policy).workspace.verdict .standard with
  | some status =>
    rw [iterate_of_verdict hprep hback hgo]
    exact .optimal hprep hback hgo
  | none =>
    have hflag : r₁.workspace.feasible = true → p.IsRollout r₁.workspace.path := by
      rw [hstays.feasible, hstays.path]
      exact hfull.flag
    obtain ⟨q, cost, path, hsearch, hroll⟩ := search_full hvalid
      (by norm_num [Config.standard]) hconvex.isSymmetric hmodels hc₁ hexp hwithin hflag hback
    have hfound := congrArg LineSearch.found hsearch
    obtain ⟨r', hnext, hr'⟩ := afterStep_of_long (f := ⟨1, cost, path⟩) (c := .standard)
      (by norm_num [Config.standard]) (by norm_num [Config.standard])
      ((r₁.planned policy).searched .standard) i (r₁.planned policy).workspace.feasibility
    have hlengths : r'.tally.stepLengths = r₁.tally.stepLengths ++ [1] := by
      obtain rfl := Step.next.inj hnext
      rfl
    rw [iterate_of_found hprep hback hgo hfound, hnext]
    refine .stepped hprep hback hgo ?_ ?_ ?_ ?_
    · rw [hr', ← hstays.path]
      exact hroll
    · rw [hr']
      show (r₁.workspace.feasible || (1 : ℝ) == 1) = true
      simp
    · rw [hr', ← hprepares.damping]
      rfl
    · rw [hlengths, hprepares.stepLengths]

/-- **A pass along a feasible path finds an optimum if the gradients are small** there, the smaller,
the less the costs bend. -/
theorem exists_verdict_of_gradients {bend : ℝ} (hvalid : c.IsValid) (hconvex : ms.IsConvex)
    (hnonneg : 0 ≤ bend) (hbends : ms.Bends bend) (hmodels : p.stages.models = ms.models)
    (hc : r₁.Consistent p) (hexp : r₁.unexpanded = false) (hdamping : r₁.workspace.damping.Within c)
    (hflag : r₁.workspace.feasible = true) (hback : r₁.backward = (policy, none))
    (hsmall : (ms.models.expansions r₁.workspace.path).gradients.normSq <
      c.gradientThreshold * (bend + c.regularizationMin)) :
    ∃ status, (r₁.planned policy).workspace.verdict c = some status := by
  have hplanned : (r₁.planned policy).workspace.feasible = true := hflag
  have hstate := hdamping.allowed.pos hvalid
  have hcontrol : c.regularizationMin ≤ r₁.workspace.damping.control :=
    hdamping.equal ▸ hdamping.allowed.lower
  have hmin : 0 < c.regularizationMin := hvalid.lower.2
  have hsolves := backward_solves hback
  rw [hc.expanded hexp, hmodels, hflag] at hsolves
  have hexpansions := hconvex.expansions hbends r₁.workspace.path
  have hfirst := hsolves.first_le hstate.le (by linarith) hexpansions r₁.workspace.gaps
  have hbalanced := hsolves.isBalanced hexpansions.isSymmetric r₁.workspace.gaps
  refine (Workspace.exists_verdict_iff hplanned).mpr (.inr ?_)
  rw [expected_planned hflag, Scalar.abs_real, abs_of_nonneg hbalanced.first]
  refine lt_of_le_of_lt hfirst ?_
  have hthreshold : 0 < c.gradientThreshold :=
    (mul_pos_iff_of_pos_right (by linarith)).mp (lt_of_le_of_lt (Controls.normSq_nonneg _) hsmall)
  rw [div_lt_iff₀ (by linarith)]
  refine lt_of_lt_of_le hsmall (mul_le_mul_of_nonneg_left ?_ hthreshold.le)
  linarith

/-- **A pass along a feasible path finds an optimum if it sees small gradients.** -/
theorem exists_verdict_of_seen (hmodels : p.stages.models = ms.models) (hc : r₁.Consistent p)
    (hexp : r₁.unexpanded = false) (hflag : r₁.workspace.feasible = true)
    (hback : r₁.backward = (policy, none))
    (hsmall : (Policy.seen (s := .euclidean nx) policy (ms.models.expansions r₁.workspace.path)
      (ms.models.expansions r₁.workspace.path).gradients).1.normSq < c.stopThreshold) :
    ∃ status, (r₁.planned policy).workspace.verdict c = some status := by
  have hplanned : (r₁.planned policy).workspace.feasible = true := hflag
  have hsolves := backward_solves hback
  rw [hc.expanded hexp, hmodels, hflag] at hsolves
  refine (Workspace.exists_verdict_iff hplanned).mpr (.inl ?_)
  rw [expected_planned hflag, ExpectedImprovement.stop_ofPolicy, hsolves.controlGradients_eq.1]
  exact hsmall

/-- The pass after a first full step. It is along a rollout, with the regularization lowered, and
the gradients there are what the step has left. -/
structure Precedes (ms : Lqrs nx nus) (p : Problem ℝ (.euclidean nx) nus)
    (r₁ : Run ℝ (.euclidean nx) nus) (policy : Policy ℝ nx nus) (r₂ : Run ℝ (.euclidean nx) nus)
    (later : Policy ℝ nx nus) : Prop where
  consistent : r₂.Consistent p
  expanded : r₂.unexpanded = false
  within : r₂.workspace.damping.Within .standard
  feasible : r₂.workspace.feasible = true
  damping : r₂.workspace.damping = (r₁.workspace.lower .standard).damping
  backward : r₂.backward = (later, none)
  gradients : (ms.models.expansions r₂.workspace.path).gradients = (r₁.residual ms policy).opposite

/-- What a pass with the regularization of the second one sees of the gradients that the first full
step leaves. Which path `later` is found along does not matter. -/
def Foresees (ms : Lqrs nx nus) (r₁ : Run ℝ (.euclidean nx) nus) (policy : Policy ℝ nx nus)
    (seen : Controls ℝ nus) : Prop :=
  ∃ (feasible : Bool) (later : Policy ℝ (StateSpace.euclidean nx).ndx nus)
    (path : Path ℝ (.euclidean nx) nus) (gaps : Gaps ℝ (.euclidean nx) nus),
    Policy.Solves (r₁.workspace.lower .standard).damping feasible later (ms.models.expansions path)
      gaps ∧
      seen = (Policy.seen later (ms.models.expansions path) (r₁.residual ms policy).opposite).1

namespace Precedes

variable {r₂ : Run ℝ (.euclidean nx) nus} {later : Policy ℝ nx nus}

theorem exists_verdict_of_residual (h : Precedes ms p r₁ policy r₂ later)
    (hconvex : ms.IsConvex) (hmodels : p.stages.models = ms.models) {bend : ℝ}
    (hnonneg : 0 ≤ bend) (hbends : ms.Bends bend)
    (hsmall : (r₁.residual ms policy).normSq < 1e-12 * (bend + 1e-9)) :
    ∃ status, (r₂.planned later).workspace.verdict .standard = some status := by
  refine exists_verdict_of_gradients Config.isValid_standard hconvex hnonneg hbends hmodels
    h.consistent h.expanded h.within h.feasible h.backward ?_
  rw [h.gradients, Controls.normSq_opposite]
  exact hsmall

theorem exists_verdict_of_foresees (h : Precedes ms p r₁ policy r₂ later)
    (hmodels : p.stages.models = ms.models) {seen : Controls ℝ nus}
    (hforesees : r₁.Foresees ms policy seen) (hsmall : seen.normSq < 1e-9) :
    ∃ status, (r₂.planned later).workspace.verdict .standard = some status := by
  obtain ⟨feasible, foreseen, path, gaps, hforeseen, rfl⟩ := hforesees
  have hsolves := backward_solves h.backward
  rw [h.consistent.expanded h.expanded, hmodels, h.damping] at hsolves
  refine exists_verdict_of_seen hmodels h.consistent h.expanded h.feasible h.backward ?_
  rw [h.gradients, (hsolves.seen_eq hforeseen (ms.isAlike_expansions _ path)).2]
  exact hsmall

end Precedes

end Run

/-! ## A solve -/

/-- The answer of a solve that took full steps and nothing else, until it converged or had taken as
many as it may. -/
structure SolveResult.StepsOnly (res : SolveResult ℝ) (budget : ℕ) : Prop where
  stepLengths : res.stepLengths = List.replicate res.iterations 1
  accepted : res.acceptedIterations = res.iterations
  rejected : res.info.rejected = 0
  status : res.converged = true ∨ res.status = .maxIterationsReached ∧ res.iterations = budget

/-- All full steps count as accepted. -/
theorem SolveResult.acceptedIterations_of_replicate {res : SolveResult ℝ} {n : ℕ}
    (h : res.stepLengths = List.replicate n 1) : res.acceptedIterations = n := by
  have hfilter : (List.replicate n (1 : ℝ)).filter (fun a => decide (0 < a)) =
      List.replicate n 1 :=
    List.filter_eq_self.mpr fun a ha => by simp [List.eq_of_mem_replicate ha]
  unfold acceptedIterations
  rw [h, hfilter, List.length_replicate]

namespace Solver

variable {ms : Lqrs nx nus} {p : Problem ℝ (.euclidean nx) nus}
  {sv : Solver ℝ (.euclidean nx) nus} {g : Guess ℝ} {clock : ℕ → ℕ} {budget : ℕ}
  {r₀ r : Run ℝ (.euclidean nx) nus}

section

variable (hconfig : sv.config = .standard) (hconvex : ms.IsConvex)
  (hmodels : p.stages.models = ms.models) (hhonest : g.IsHonest p)

include hconfig hconvex hmodels hhonest

/-- All iterations of a solve of a convex problem end it or take full steps. -/
theorem Begins.advances (h : sv.Begins p g r₀) {i : ℕ}
    (hperf : r₀.Performs sv.config clock budget i r) :
    r.Advances ms i (r.iterate sv.config i) := by
  have hthreshold : 0 < sv.config.gradientThreshold := by
    rw [hconfig]
    norm_num [Config.standard]
  have hfull := h.isFull_of_reaches hthreshold hconvex.isSymmetric hmodels hhonest hperf.reached
  have hwithin := (h.bounded_of_reaches hperf.reached).within
  rw [hconfig] at hwithin ⊢
  exact Run.advances hconvex hmodels hfull (h.consistent_of_reaches hperf.reached) hwithin i

/-- Every iteration that a solve goes on from has taken a full step. -/
theorem Begins.stepLengths_of_reaches (h : sv.Begins p g r₀) {i : ℕ}
    (hr : r₀.Reaches sv.config clock budget i r) : r.tally.stepLengths = List.replicate i 1 := by
  induction hr with
  | start =>
    obtain ⟨-, -⟩ := h
    rfl
  | @next i r r' reached within inTime hnext ih =>
    have hadvances := h.advances hconfig hconvex hmodels hhonest ⟨reached, within, inTime⟩
    rw [hnext] at hadvances
    cases hadvances with
    | stepped _ _ _ _ _ _ stepLengths => rw [stepLengths, ih, List.replicate_succ']

/-- How a solve of a convex problem ends. -/
theorem Begins.stepsOnly (h : sv.Begins p g r₀) {status : Status} {n : ℕ}
    (hend : r₀.Ends sv.config clock budget r status n) :
    r.tally.stepLengths = List.replicate n 1 ∧
      (status.isConverged = true ∨ status = .maxIterationsReached ∧ n = budget) := by
  cases hend with
  | budget reached =>
    exact ⟨h.stepLengths_of_reaches hconfig hconvex hmodels hhonest reached, .inr ⟨rfl, rfl⟩⟩
  | @timeout i r reached within late =>
    rw [Run.isTimedOut_of_none (by rw [hconfig]; rfl)] at late
    cases late
  | @stop i n r r' status hperf hstop =>
    have hadvances := h.advances hconfig hconvex hmodels hhonest hperf
    rw [hstop] at hadvances
    cases hadvances with
    | optimal hprep hback hend =>
      have hlengths := h.stepLengths_of_reaches hconfig hconvex hmodels hhonest hperf.reached
      rw [← (Run.prepares_refresh hprep).stepLengths] at hlengths
      exact ⟨hlengths, .inl (Workspace.isConverged_of_verdict hend)⟩

omit hconfig hhonest in
/-- The first pass of a solve of a convex problem gets through. -/
theorem Begins.exists_firstPass (h : sv.Begins p g r₀) :
    ∃ r₁ policy, sv.FirstPass p g r₁ policy := by
  obtain ⟨r₁, hprep⟩ := r₀.exists_refresh 0
  obtain ⟨hc, hexp⟩ := Run.refresh_consistent h.consistent hprep
  have hwithin : r₁.workspace.damping.Within sv.config := by
    rw [(Run.prepares_refresh hprep).damping]
    exact h.bounded.within
  obtain ⟨policy, hback⟩ := Run.exists_backward (Config.validate_ok_iff.mp h.validate) hconvex
    hmodels hc hexp hwithin
  exact ⟨r₁, policy, ⟨r₀, h, hprep⟩, hback⟩

/-- A solve is over after its first full step if there is a verdict on the pass after that. -/
theorem Begins.stops_after_one (h : sv.Begins p g r₀) (clock : ℕ → ℕ) (hbudget : 1 < budget)
    {r₁ : Run ℝ (.euclidean nx) nus} {policy : Policy ℝ nx nus}
    (hpass : sv.FirstPass p g r₁ policy)
    (hverdict : ∀ {r₂ later}, Run.Precedes ms p r₁ policy r₂ later →
      ∃ status, (r₂.planned later).workspace.verdict .standard = some status) :
    ∃ i r r' status, i ≤ 1 ∧ r₀.Performs sv.config clock budget i r ∧
      r.iterate sv.config i = .stop r' status i ∧ status.isConverged = true := by
  have hinTime (i : ℕ) : Run.isTimedOut sv.config clock i = false :=
    Run.isTimedOut_of_none (by rw [hconfig]; rfl) clock i
  have hfirst : r₀.Performs sv.config clock budget 0 r₀ := ⟨.start, by omega, hinTime 0⟩
  have hadvances := h.advances hconfig hconvex hmodels hhonest hfirst
  generalize hstep : r₀.iterate sv.config 0 = step at hadvances
  cases hadvances with
  | optimal hprep hback hend =>
    exact ⟨0, r₀, _, _, by omega, hfirst, hstep, Workspace.isConverged_of_verdict hend⟩
  | @stepped r₂ r' policy' hprep hback hgo displaced feasible damping stepLengths =>
    obtain ⟨rfl, rfl⟩ := hpass.unique ⟨⟨r₀, h, hprep⟩, hback⟩
    have hreached : r₀.Reaches sv.config clock budget 1 r' :=
      .next .start hfirst.within (hinTime 0) hstep
    have hsecond : r₀.Performs sv.config clock budget 1 r' := ⟨hreached, hbudget, hinTime 1⟩
    -- what the step has left of the gradients
    obtain ⟨hc₁, hexp₁⟩ := Run.refresh_consistent h.consistent hprep
    have hstays := Run.stays_refresh hprep
    have hgradients := Run.gradients_of_step hconvex.isSymmetric hmodels hc₁ hexp₁
      (by rw [hstays.feasible, hstays.path]; exact (h.isFull hhonest).flag) hback
      (by rw [hstays.path]; exact displaced)
    have hadvances := h.advances hconfig hconvex hmodels hhonest hsecond
    generalize hstep' : r'.iterate sv.config 1 = step at hadvances
    cases hadvances with
    | optimal hprep hback hend =>
      exact ⟨1, r', _, _, le_rfl, hsecond, hstep', Workspace.isConverged_of_verdict hend⟩
    | @stepped r₂ _ later hprep' hback' hgo' =>
      obtain ⟨hc₂, hexp₂, hwithin⟩ := h.prepared hreached hprep'
      have hstays' := Run.stays_refresh hprep'
      rw [hconfig] at hwithin
      have hlowered : r₂.workspace.damping = (r₁.workspace.lower .standard).damping := by
        rw [(Run.prepares_refresh hprep').damping, damping,
          ← (Run.prepares_refresh hprep).damping]
        rfl
      obtain ⟨status, hverdict⟩ := hverdict ⟨hc₂, hexp₂, hwithin,
        hstays'.feasible.trans feasible, hlowered, hback', by rw [hstays'.path, hgradients]⟩
      rw [hgo'] at hverdict
      cases hverdict

/-- So its answer is that it converged, with one iteration at most. -/
theorem Begins.converged_after_one (h : sv.Begins p g r₀) {res : SolveResult ℝ}
    (hout : (sv.solve p g clock).outcome = .ok res) {r₁ : Run ℝ (.euclidean nx) nus}
    {policy : Policy ℝ nx nus} (hpass : sv.FirstPass p g r₁ policy)
    (hverdict : ∀ {r₂ later}, Run.Precedes ms p r₁ policy r₂ later →
      ∃ status, (r₂.planned later).workspace.verdict .standard = some status) :
    res.converged = true ∧ res.iterations ≤ 1 := by
  have hmax : sv.config.maxIterations = 100 := by
    rw [hconfig]
    rfl
  have hbudget : sv.config.maxIterations < Vec.sizeLimit := by
    rw [hmax]
    norm_num [Vec.sizeLimit]
  obtain ⟨i, r, r', status, hle, hperf, hstop, hconv⟩ := h.stops_after_one hconfig hconvex hmodels
    hhonest clock (by rw [hmax]; norm_num : 1 < sv.config.maxIterations) hpass hverdict
  have hsolve : (r'.finish sv.config status i).outcome = .ok res := by
    rw [← hperf.iterateFrom_of_stop hstop, ← solveWithin_of_begins h hbudget]
    exact hout
  have hanswers := Run.answers_of_finish hsolve
  refine ⟨?_, hanswers.iterations.trans_le hle⟩
  unfold SolveResult.converged
  rw [hanswers.status, hconv]

end

/-- A first full step leaves next to nothing of a push. -/
theorem FirstPass.residual_push {b : ℝ} (hpush : 0 < b) {r₁ : Run ℝ (.euclidean 1) [1]}
    {policy : Policy ℝ 1 [1]}
    (hpass : (Solver.new .standard .none).FirstPass (.pushFrom (.identity 1) b)
      ((Path.resting b).guess 1e-9) r₁ policy) (hpath : r₁.workspace.path = .resting b)
    (hflag : r₁.workspace.feasible = true) (hdamping : r₁.workspace.damping = ⟨1e-9, 1e-9⟩) :
    (r₁.residual (.line (.identity 1) (.identity 1)) policy).normSq ≤ (1e-9 * b) ^ 2 := by
  obtain ⟨r₀, hbegin, hprep⟩ := hpass.prepared
  obtain ⟨hc, hexp⟩ := Run.refresh_consistent hbegin.consistent hprep
  have hgaps := Gaps.eq_zero (hc.gap_eq_zero hexp
    (fun _ => hpath ▸ Problem.isRollout_resting _ _) hflag)
  have hsolves := hpass.solves
  rw [hflag, hpath, hdamping] at hsolves
  unfold Run.residual Run.fullStep
  rw [hpath, hdamping, hgaps]
  cases policy with | stage stage ps =>
  cases ps with | last v =>
  obtain ⟨hv, hquu, -, hk⟩ := Models.figures_line hsolves
  have hqu : stage.q.qu.get 0 = b := by simpa using Models.gradient_line hsolves
  let m : Lqr ℝ 1 1 := .driftless (.identity 1) (.identity 1) (.identity 1) (.identity 1)
  let k := stage.gains.feedforward
  let dx : Vec ℝ 1 := 0 + (0 : Vec ℝ 1).scale 1
  let du := -k.scale 1 - stage.gains.feedback * dx
  let dx' := m.fx * dx + m.fu * du + (0 : Vec ℝ 1).scale 1
  have hdu : du.get 0 = -k.get 0 := by simp [du, dx]
  have hdx' : dx'.get 0 = -k.get 0 := by simp [dx', dx, m, Lqr.driftless, hdu]
  show (du.scale 1e-9 + m.fu.transpose * dx'.scale 1e-9).normSq + 0 ≤ _
  have hfigure : (2 + 2e-9) * k.get 0 = b := by
    rw [← hqu, ← hk, hquu, hv, Mat.get_identity, if_pos rfl]
    show _ = (1 + (1 + (1e-9 : ℝ)) + 1e-9) * k.get 0
    ring
  have hsum : (du.scale 1e-9 + m.fu.transpose * dx'.scale 1e-9).normSq = (2e-9 * k.get 0) ^ 2 := by
    simp [Vec.normSq, m, Lqr.driftless, hdu, hdx']
    ring
  have hpos : 0 < k.get 0 := by
    refine (mul_pos_iff_of_pos_left (by norm_num : (0 : ℝ) < 2 + 2e-9)).mp ?_
    rw [hfigure]
    exact hpush
  rw [hsum, add_zero]
  exact pow_le_pow_left₀ (by linarith) (by linarith) 2

/-- **Convex linear-quadratic problems are solved up to the regularization.** In the standard
configuration, every iteration takes a full step, until the solve converges or has taken as many as
it may, and from the first one on there are no gaps. One step is enough if what it leaves is small,
be it the residual of the first pass against the bend of the costs, or what the next pass would see
of it. -/
theorem converges_up_to_regularization (hconfig : sv.config = .standard) (hconvex : ms.IsConvex)
    (hmodels : p.stages.models = ms.models) (hhonest : g.IsHonest p) (hbegin : sv.Begins p g r₀)
    (clock : ℕ → ℕ) :
    ∃ r₁ policy res, sv.FirstPass p g r₁ policy ∧ (sv.solve p g clock).outcome = .ok res ∧
      res.StepsOnly 100 ∧
      (res.iterations ≠ 0 → ∀ gap ∈ res.gaps, gap = (0 : Vec ℝ nx).toList) ∧
      (∀ bend, 0 ≤ bend → ms.Bends bend →
        (r₁.residual ms policy).normSq < 1e-12 * (bend + 1e-9) →
          res.converged = true ∧ res.acceptedIterations ≤ 1) ∧
      ∀ seen, r₁.Foresees ms policy seen → seen.normSq < 1e-9 →
        res.converged = true ∧ res.acceptedIterations ≤ 1 := by
  have hmax : sv.config.maxIterations = 100 := by rw [hconfig]; rfl
  have hbudget : sv.config.maxIterations < Vec.sizeLimit := by rw [hmax]; norm_num [Vec.sizeLimit]
  have hthreshold : 0 < sv.config.gradientThreshold := by rw [hconfig]; norm_num [Config.standard]
  obtain ⟨res, hout⟩ := answers_of_begins hbegin clock hbudget
  obtain ⟨r₁, policy, hpass⟩ := hbegin.exists_firstPass hconvex hmodels
  obtain ⟨r₀', r, status, n, hbegin', hend, hfinish⟩ := solveWithin_ok hout
  obtain rfl := hbegin.unique hbegin'
  have hanswers : r.Answers status n res := by
    rw [hfinish] at hout
    exact Run.answers_of_finish hout
  have hfull := hbegin.isFull_of_ends hthreshold hconvex.isSymmetric hmodels hhonest hend
  obtain ⟨hlengths, hstatus⟩ := hbegin.stepsOnly hconfig hconvex hmodels hhonest hend
  rw [← hanswers.stepLengths, ← hanswers.iterations] at hlengths
  have haccepted := SolveResult.acceptedIterations_of_replicate hlengths
  have hone (hverdict : ∀ {r₂ later}, Run.Precedes ms p r₁ policy r₂ later →
      ∃ status, (r₂.planned later).workspace.verdict .standard = some status) :
      res.converged = true ∧ res.acceptedIterations ≤ 1 := by
    rw [haccepted]
    exact hbegin.converged_after_one hconfig hconvex hmodels hhonest hout hpass hverdict
  refine ⟨r₁, policy, res, hpass, hout,
    ⟨hlengths, haccepted, hanswers.rejected.trans hfull.rejected, ?_⟩, ?_, ?_, ?_⟩
  · unfold SolveResult.converged
    rw [hanswers.status, hanswers.iterations, ← hmax]
    exact hstatus
  · rw [← haccepted]
    exact (steps_fully hthreshold hconvex.isSymmetric hmodels hhonest clock _).gaps hout
  · exact fun bend hnonneg hbends hsmall =>
      hone fun h => h.exists_verdict_of_residual hconvex hmodels hnonneg hbends hsmall
  · exact fun seen hforesees hsmall =>
      hone fun h => h.exists_verdict_of_foresees hmodels hforesees hsmall

/-- With one stage, the next pass sees what the first full step leaves. -/
theorem FirstPass.foresees_push {b : ℝ} {r₁ : Run ℝ (.euclidean 1) [1]} {policy : Policy ℝ 1 [1]}
    (hpass : (Solver.new .standard .none).FirstPass (.pushFrom (.identity 1) b)
      ((Path.resting b).guess 1e-9) r₁ policy)
    (hdamping : r₁.workspace.damping = ⟨1e-9, 1e-9⟩) :
    ∃ seen, r₁.Foresees (.line (.identity 1) (.identity 1)) policy seen ∧
      seen.normSq = (r₁.residual (.line (.identity 1) (.identity 1)) policy).normSq := by
  let ms := Lqrs.line (.identity 1) (.identity 1)
  have hlowered : (r₁.workspace.lower .standard).damping = r₁.workspace.damping := by
    show Damping.mk (Config.standard.lower r₁.workspace.damping.state)
      (Config.standard.lower r₁.workspace.damping.control) = _
    rw [hdamping]
    norm_num [Config.standard, Config.lower, Scalar.max]
  refine ⟨_, ⟨_, policy, r₁.workspace.path, _, hlowered ▸ hpass.solves, rfl⟩, ?_⟩
  rw [← Controls.normSq_opposite (r₁.residual ms policy)]
  generalize (r₁.residual ms policy).opposite = left
  cases left with | stage g gs =>
  cases gs with | last =>
  cases policy with | stage stage ps =>
  cases ps with | last v =>
  cases r₁.workspace.path with | stage k ks =>
  cases ks with | last x =>
  show (g + _ * (0 : Vec ℝ 1)).normSq + 0 = g.normSq + 0
  rw [Mat.mul_zeroVec, Vec.add_zero]

/-- One step is enough for a push. For one from near, what it leaves is small against the bend of
the costs; for one from far, the next pass sees little of it. -/
theorem converges_up_to_regularization_push :
    let sv : Solver ℝ (.euclidean 1) [1] := .new .standard .none
    let p := fun b => Problem.pushFrom (.identity 1) b
    let g := fun b => (Path.resting b).guess 1e-9
    let ms := Lqrs.line (.identity 1) (.identity 1)
    sv.config = .standard ∧ ms.IsConvex ∧
      (∀ b, (p b).stages.models = ms.models ∧ (g b).IsHonest (p b) ∧
        ∃ r₀, sv.Begins (p b) (g b) r₀) ∧
      (∃ r₁ policy res, sv.FirstPass (p 1) (g 1) r₁ policy ∧
        (sv.solve (p 1) (g 1) fun _ => 0).outcome = .ok res ∧
        (r₁.residual ms policy).normSq < 1e-12 * (1 + 1e-9) ∧ res.converged = true ∧
        res.acceptedIterations ≤ 1) ∧
      ∃ r₁ policy seen res, sv.FirstPass (p 1e4) (g 1e4) r₁ policy ∧
        (sv.solve (p 1e4) (g 1e4) fun _ => 0).outcome = .ok res ∧
        r₁.Foresees ms policy seen ∧ seen.normSq < 1e-9 ∧ res.converged = true ∧
        res.acceptedIterations ≤ 1 := by
  intro sv p g ms
  have hconvex : ms.IsConvex := Lqrs.isConvex_line _ (by simp)
  have hbends : ms.Bends 1 := by
    refine ⟨fun v => ?_, trivial⟩
    show 1 * v.normSq ≤ v.dot ((Mat.identity 1 : Mat ℝ 1 1) * v)
    rw [Vec.normSq]
    simp
  have hmodels (b : ℝ) : (p b).stages.models = ms.models := rfl
  have hhonest (b : ℝ) : (g b).IsHonest (p b) :=
    Path.isHonest_guess (Problem.isRollout_resting _ _) _
  have hfirst (b : ℝ) := exists_firstPass_resting (.identity 1) b (r := 1e-9) (by norm_num)
    (by norm_num) (by norm_num)
  refine ⟨rfl, hconvex, fun b => ⟨hmodels b, hhonest b, ?_⟩, ?_, ?_⟩
  · obtain ⟨r₁, policy, hpass, -⟩ := hfirst b
    obtain ⟨r₀, hbegin, -⟩ := hpass.prepared
    exact ⟨r₀, hbegin⟩
  · obtain ⟨r₁, policy, hpass, hpath, hflag, hdamping⟩ := hfirst 1
    obtain ⟨r₀, hbegin, -⟩ := hpass.prepared
    obtain ⟨r₁', policy', res, hpass', hout, -, -, hone, -⟩ :=
      converges_up_to_regularization rfl hconvex (hmodels 1) (hhonest 1) hbegin fun _ => 0
    obtain ⟨rfl, rfl⟩ := hpass.unique hpass'
    have hsmall : (r₁.residual ms policy).normSq < 1e-12 * (1 + 1e-9) :=
      (hpass.residual_push one_pos hpath hflag hdamping).trans_lt (by norm_num)
    exact ⟨r₁, policy, res, hpass, hout, hsmall, hone 1 zero_le_one hbends hsmall⟩
  · obtain ⟨r₁, policy, hpass, hpath, hflag, hdamping⟩ := hfirst 1e4
    obtain ⟨r₀, hbegin, -⟩ := hpass.prepared
    obtain ⟨r₁', policy', res, hpass', hout, -, -, -, hseen⟩ :=
      converges_up_to_regularization rfl hconvex (hmodels 1e4) (hhonest 1e4) hbegin fun _ => 0
    obtain ⟨rfl, rfl⟩ := hpass.unique hpass'
    obtain ⟨seen, hforesees, hnorm⟩ := hpass.foresees_push hdamping
    have hsmall : seen.normSq < 1e-9 := by
      rw [hnorm]
      exact (hpass.residual_push (by norm_num) hpath hflag hdamping).trans_lt (by norm_num)
    exact ⟨r₁, policy, seen, res, hpass, hout, hforesees, hsmall, hseen seen hforesees hsmall⟩

end Solver

/-! ## Where one step is not enough -/

/-- A point at the origin with a control that does not move it and costs half of `luu` times its
square. -/
noncomputable def Problem.idle (luu : Mat ℝ 1 1) : Problem ℝ (.euclidean 1) [1] :=
  let m : Model ℝ (.euclidean 1) 1 := .lqr (.driftless (.identity 1) 0 (.identity 1) luu)
  ⟨0, .stage ⟨m, .zero⟩ (.last ⟨1, m, .zero⟩)⟩

namespace Lqrs

variable {luu : Mat ℝ 1 1}

/-- The policy for an idle control, in numbers. -/
theorem figures_idle {d : Damping ℝ} {feasible : Bool}
    {p : StagePolicy ℝ (StateSpace.euclidean 1).ndx 1}
    {v : ValueModel ℝ (StateSpace.euclidean 1).ndx} {k : Knot ℝ (.euclidean 1) 1} {x : Vec ℝ 1}
    {gaps : Gaps ℝ (.euclidean 1) [1]} (h : Policy.Solves d feasible (.stage p (.last v))
      ((line 0 luu).models.expansions (.stage k (.last x))) gaps) :
    p.q.qu.get 0 = luu.get 0 0 * k.control.get 0 ∧
      (luu.get 0 0 + d.control) * p.gains.feedforward.get 0 = p.q.qu.get 0 := by
  cases gaps with | stage f fs =>
  cases fs with | last f' =>
  obtain ⟨hstage, hlast⟩ := h
  have hsymm : v.hessian.IsSymmetric := Mat.isSymmetric_one _
  let m : Lqr ℝ 1 1 := .driftless (.identity 1) 0 (.identity 1) luu
  have hq : p.q = .ofExpansion (m.expand k.state (some k.control)) v d.control := hstage.q
  have hk := (hstage.feedforward (Mat.isSymmetric_one _) hsymm).1
  refine ⟨?_, ?_⟩
  · simp [hq, ActionValue.ofExpansion, m, Lqr.expand, Lqr.driftless]
  · rw [← hk, Mat.get_mulVec_one, hq]
    simp [ActionValue.ofExpansion, m, Lqr.expand, Lqr.driftless]

/-- What a full step leaves of an idle control. -/
theorem gradient_idle {d : Damping ℝ} {k k' : Knot ℝ (.euclidean 1) 1} {x x' : Vec ℝ 1}
    (h : ((line 0 luu).models.expansions (.stage k' (.last x'))).gradients =
      (((line 0 luu).models.expansions (.stage k (.last x))).charged d
        (Path.displacementsTo (.stage k (.last x)) (.stage k' (.last x')))).gradients.opposite) :
    (luu.get 0 0 + d.control) * k'.control.get 0 = d.control * k.control.get 0 := by
  let m : Lqr ℝ 1 1 := .driftless (.identity 1) 0 (.identity 1) luu
  obtain ⟨hstage, -⟩ := Horizon.stage.inj h
  replace hstage : (m.expand k'.state (some k'.control)).lu + m.fu.transpose * (m.expand x' none).lx =
    -((k'.control - k.control).scale d.control + m.fu.transpose * (x' - x).scale d.state) := hstage
  have hentry := congrArg (fun v : Vec ℝ 1 => v.get 0) hstage
  simp [m, Lqr.expand, Lqr.driftless] at hentry
  linarith

end Lqrs

namespace Run

/-- The run has taken `i` steps and has still almost all of a huge control left. -/
structure Idles (i : ℕ) (r : Run ℝ (.euclidean 1) [1]) : Prop where
  feasible : r.workspace.feasible = true
  damping : r.workspace.damping = ⟨1e-9, 1e-9⟩
  control : ∃ k x, r.workspace.path = .stage k (.last x) ∧
    1e10 * (1 - i / 1000) ≤ k.control.get 0 ∧ k.control.get 0 ≤ 1e10

/-- A pass over an idle control of small weight promises much as long as the control is huge. -/
theorem Idles.verdict_eq_none {r₁ : Run ℝ (.euclidean 1) [1]} {policy : Policy ℝ 1 [1]} {i : ℕ}
    {p : Problem ℝ (.euclidean 1) [1]} {luu : Mat ℝ 1 1} (hluu : luu.get 0 0 = 1e-12)
    (h : r₁.Idles i) (hi : i ≤ 100) (hmodels : p.stages.models = (Lqrs.line 0 luu).models)
    (hc : r₁.Consistent p) (hexp : r₁.unexpanded = false) (hback : r₁.backward = (policy, none)) :
    (r₁.planned policy).workspace.verdict .standard = none := by
  obtain ⟨hflag, hdamping, k, x, hpath, hlow, hhigh⟩ := h
  have hsolves := backward_solves hback
  rw [hc.expanded hexp, hmodels, hpath, hdamping, hflag] at hsolves
  have hplanned : (r₁.planned policy).workspace.feasible = true := hflag
  rw [Workspace.verdict_eq_none_iff hplanned, expected_planned hflag]
  cases policy with | stage stage ps =>
  cases ps with | last v =>
  obtain ⟨hqu, hk⟩ := Lqrs.figures_idle hsolves
  obtain ⟨hstop, hexpected⟩ := Models.expected_line stage v true r₁.workspace.gaps
  have hfirst := (hexpected rfl).1
  rw [hluu] at hqu hk
  have hi' : (i : ℝ) ≤ 100 := by exact_mod_cast hi
  have hlarge : 9e-3 ≤ stage.q.qu.get 0 := by
    rw [hqu]
    linarith
  have hsquare : 8.1e-5 ≤ stage.q.qu.get 0 * stage.q.qu.get 0 := by nlinarith
  refine ⟨?_, ?_⟩
  · rw [hstop]
    refine not_lt.mpr (le_trans ?_ hsquare)
    norm_num [Config.standard]
  · have hpush : 1 ≤ stage.gains.feedforward.get 0 := by
      replace hk : (1e-12 + 1e-9) * stage.gains.feedforward.get 0 = stage.q.qu.get 0 := hk
      linarith
    rw [hfirst, Scalar.abs_real]
    refine not_lt.mpr (le_trans ?_ (le_abs_self _))
    have hproduct : 9e-3 ≤ stage.q.qu.get 0 * stage.gains.feedforward.get 0 := by nlinarith
    refine le_trans ?_ hproduct
    norm_num [Config.standard]

/-- **A full step takes little of a huge idle control.** -/
theorem Idles.next {r r' : Run ℝ (.euclidean 1) [1]} {i : ℕ} {luu : Mat ℝ 1 1}
    {p : Problem ℝ (.euclidean 1) [1]} (hluu : luu.get 0 0 = 1e-12) (h : r.Idles i)
    (hi : i < 100) (hmodels : p.stages.models = (Lqrs.line 0 luu).models) (hc : r.Consistent p)
    (hflag : p.IsRollout r.workspace.path)
    (hadvances : r.Advances (.line 0 luu) i (.next r')) : r'.Idles (i + 1) := by
  obtain ⟨-, hdamping, k, x, hpath, hlow, hhigh⟩ := h
  cases hadvances with
  | @stepped r₁ _ policy hprep hback hgo displaced feasible damping stepLengths =>
    obtain ⟨hc₁, hexp⟩ := refresh_consistent hc hprep
    have hstays := stays_refresh hprep
    have hgradients := gradients_of_step (Lqrs.isConvex_line 0 (hluu ▸ by norm_num)).isSymmetric
      hmodels hc₁ hexp (fun _ => hstays.path ▸ hflag) hback (hstays.path ▸ displaced)
    unfold residual at hgradients
    rw [← displaced, hstays.path, (prepares_refresh hprep).damping, hdamping, hpath] at hgradients
    obtain ⟨k', x', hpath'⟩ : ∃ k' x', r'.workspace.path = .stage k' (.last x') := by
      cases r'.workspace.path with | stage k' ks =>
      cases ks with | last x' => exact ⟨k', x', rfl⟩
    rw [hpath'] at hgradients
    have hcontrol := Lqrs.gradient_idle hgradients
    rw [hluu] at hcontrol
    replace hcontrol : (1e-12 + 1e-9) * k'.control.get 0 = 1e-9 * k.control.get 0 := hcontrol
    refine ⟨feasible, ?_, k', x', hpath', ?_, ?_⟩
    · rw [damping, hdamping]
      norm_num [Config.standard, Config.lower, Scalar.max]
    · push_cast
      linarith
    · have hi' : (i : ℝ) ≤ 100 := by exact_mod_cast hi.le
      linarith

end Run

namespace Solver

variable {sv : Solver ℝ (.euclidean 1) [1]} {g : Guess ℝ} {clock : ℕ → ℕ}
  {r₀ : Run ℝ (.euclidean 1) [1]}

/-- A solve that starts with a huge idle control takes all steps it may. -/
theorem Begins.reaches_idle {luu : Mat ℝ 1 1} (hluu : luu.get 0 0 = 1e-12)
    (hconfig : sv.config = .standard) (hhonest : g.IsHonest (.idle luu))
    (h : sv.Begins (.idle luu) g r₀) (hidles : r₀.Idles 0) (clock : ℕ → ℕ) :
    ∀ i ≤ 100, ∃ r, r₀.Reaches sv.config clock 100 i r ∧ r.Idles i
  | 0, _ => ⟨r₀, .start, hidles⟩
  | i + 1, hi => by
    obtain ⟨r, hreached, hr⟩ := reaches_idle hluu hconfig hhonest h hidles clock i (by omega)
    have hconvex : (Lqrs.line 0 luu).IsConvex := Lqrs.isConvex_line 0 (hluu ▸ by norm_num)
    have hinTime : Run.isTimedOut sv.config clock i = false :=
      Run.isTimedOut_of_none (by rw [hconfig]; rfl) clock i
    have hperf : r₀.Performs sv.config clock 100 i r := ⟨hreached, by omega, hinTime⟩
    have hc := h.consistent_of_reaches hreached
    have hadvances := h.advances hconfig hconvex rfl hhonest hperf
    have hflag : (Problem.idle luu).IsRollout r.workspace.path :=
      (h.isFull_of_reaches (by rw [hconfig]; norm_num [Config.standard]) hconvex.isSymmetric rfl
        hhonest hreached).flag hr.feasible
    generalize hstep : r.iterate sv.config i = step at hadvances
    cases step with
    | next r' =>
      exact ⟨r', .next hreached hperf.within hinTime hstep,
        hr.next hluu (by omega) rfl hc hflag hadvances⟩
    | fail r' e => cases hadvances
    | stop r' status n =>
      cases hadvances with
      | @optimal r₁ policy status hprep hback hend =>
        obtain ⟨hc₁, hexp⟩ := Run.refresh_consistent hc hprep
        have hstays := Run.stays_refresh hprep
        have hr₁ : r₁.Idles i := by
          refine ⟨hstays.feasible.trans hr.feasible, ?_, ?_⟩
          · rw [(Run.prepares_refresh hprep).damping, hr.damping]
          · rw [hstays.path]
            exact hr.control
        rw [hr₁.verdict_eq_none hluu (by omega) rfl hc₁ hexp hback] at hend
        cases hend

/-- Where the point starts is charged along every rollout. -/
theorem half_start_le_costAlong {b : ℝ} {path : Path ℝ (.euclidean 1) [1]}
    (h : (Problem.pushFrom (.identity 1) b).IsRollout path) :
    b * b / 2 ≤ (Problem.pushFrom (.identity 1) b).costAlong path := by
  cases path with | stage k ks =>
  cases ks with | last x =>
  have hstart : k.state = .replicate 1 b := (List.cons.inj h).1
  have hcost := Problem.costAlong_line (p := .pushFrom (.identity 1) b) rfl k x
  rw [hstart, Vec.get_replicate, Mat.get_identity, if_pos rfl, one_mul] at hcost
  rw [hcost]
  have hcontrol := mul_self_nonneg (k.control.get 0)
  have hend := mul_self_nonneg (x.get 0)
  linarith

/-- A solve that is told of a path that costs less than any rollout rejects its first step. -/
theorem exists_rejection :
    ∃ res, ((Solver.new .standard .none).solve (.pushFrom (.identity 1) 1)
      ((Path.resting (1 / 100)).guess 1e-9) fun _ => 0).outcome = .ok res ∧ 0 ∈ res.stepLengths := by
  obtain ⟨r₁, policy, hpass, hpath, hflag, hstop, hfirst⟩ :=
    exists_firstPass_promising (1 / 100) 1 (r := 1e-9) (by norm_num) (by norm_num)
  obtain ⟨⟨r₀, hbegin, hprep⟩, hback⟩ := hpass
  obtain ⟨hc, hexp⟩ := Run.refresh_consistent hbegin.consistent hprep
  have hlarge : ¬ Scalar.abs (r₁.planned policy).workspace.expected.first <
      (Config.standard : Config ℝ).gradientThreshold := by
    rw [Scalar.abs_real]
    refine not_lt.mpr (le_trans ?_ (le_abs_self _))
    norm_num [Config.standard] at hfirst ⊢
    linarith
  have hgo : (r₁.planned policy).workspace.verdict .standard = none := by
    rw [Workspace.verdict_eq_none_iff hflag, hstop]
    refine ⟨?_, hlarge⟩
    norm_num [Config.standard]
  have hfound : ((r₁.planned policy).search .standard).found = none := by
    cases hsearch : ((r₁.planned policy).search .standard).found with
    | none => rfl
    | some f =>
      have hf := lineSearch_found hsearch
      obtain ⟨hpos, hle⟩ := hf.length_mem (by decide)
      have hbalanced := Run.isBalanced_planned hc hexp (Models.isSymmetric_line _) hflag hback
      have hlower := Workspace.cost_lt_of_acceptable Config.isValid_standard hbalanced hlarge
        hpos.le hle hf.acceptable
      have hrollout := (hc.same.isRollout _).mp (hf.isRollout (by rw [hflag]; rfl))
      have hatLeast := half_start_le_costAlong hrollout
      rw [hf.cost.trans (hc.same.costAlong _)] at hlower
      -- the path that was declared feasible costs next to nothing
      have hdeclared : r₁.workspace.cost = 1 / 10000 := by
        rw [hc.cost, hpath]
        refine (Problem.costAlong_line rfl _ _).trans ?_
        norm_num
      replace hlower : (Problem.pushFrom (.identity 1) 1).costAlong f.path < r₁.workspace.cost :=
        hlower
      linarith
  have hzero : 0 ∈ (r₀.iterate .standard 0).run.tally.stepLengths := by
    rw [Run.iterate_of_not_found hprep hback hgo hfound]
    rcases Run.afterRejection_cases .standard ((r₁.planned policy).searched .standard) 0 _ _ with
      ⟨-, heq⟩ | ⟨-, heq⟩ <;> rw [heq] <;>
        exact List.mem_append_right _ (List.mem_singleton_self _)
  have hbudget : 100 < Vec.sizeLimit := by norm_num [Vec.sizeLimit]
  obtain ⟨res, hout⟩ := answers_of_begins hbegin (fun _ => 0) hbudget
  obtain ⟨r₀', r, status, n, hbegin', hend, hfinish⟩ := solveWithin_ok hout
  obtain rfl := hbegin.unique hbegin'
  refine ⟨res, hout, ?_⟩
  rw [hfinish] at hout
  rw [(Run.answers_of_finish hout).stepLengths]
  exact hend.mem_stepLengths ⟨.start, by norm_num, rfl⟩ hzero

/-- **Full steps may not suffice, and the path has to be a rollout if it is declared feasible.** A
control that moves nothing and weighs little against the regularization is not brought down by a
hundred full steps. And where a path is declared feasible that is not, steps of other lengths are
tried. -/
theorem full_steps_may_not_suffice :
    let sv : Solver ℝ (.euclidean 1) [1] := .new .standard .none
    let luu : Mat ℝ 1 1 := .ofFn fun _ _ => 1e-12
    let g : Guess ℝ := ⟨some [[0], [0]], some [[1e10]], true, none⟩
    ((Lqrs.line 0 luu).IsConvex ∧ (Problem.idle luu).stages.models = (Lqrs.line 0 luu).models ∧
      g.IsHonest (.idle luu) ∧ ∃ res, (sv.solve (.idle luu) g fun _ => 0).outcome = .ok res ∧
        res.converged = false ∧ res.acceptedIterations = 100) ∧
    (Lqrs.line (.identity 1) (.identity 1)).IsConvex ∧
      (Problem.pushFrom (.identity 1) 1).stages.models =
        (Lqrs.line (.identity 1) (.identity 1)).models ∧
      ∃ res, (sv.solve (.pushFrom (.identity 1) 1) ((Path.resting (1 / 100)).guess 1e-9)
        fun _ => 0).outcome = .ok res ∧ 0 ∈ res.stepLengths := by
  intro sv luu g
  refine ⟨?_, Lqrs.isConvex_line _ (by simp), rfl, exists_rejection⟩
  have hluu : luu.get 0 0 = 1e-12 := Mat.get_ofFn _ _ _
  have hconvex : (Lqrs.line 0 luu).IsConvex := Lqrs.isConvex_line 0 (hluu ▸ by norm_num)
  let path : Path ℝ (.euclidean 1) [1] := .stage ⟨0, .replicate 1 1e10⟩ (.last 0)
  have hrollout : (Problem.idle luu).IsRollout path := by
    have hrests : (Mat.identity 1 : Mat ℝ 1 1) * (0 : Vec ℝ 1) +
        (0 : Mat ℝ 1 1) * (.replicate 1 1e10 : Vec ℝ 1) + 0 = 0 := by
      rw [Mat.mul_zeroVec, Mat.zeroMat_mul, Vec.add_zero, Vec.add_zero]
    exact congrArg (fun x => [(0 : Vec ℝ 1), x]) hrests.symm
  have hhonest : g.IsHonest (.idle luu) := Path.isHonest_guess hrollout none
  have hbegin : sv.Begins (.idle luu) g (sv.firstRun _ (.start path true 1e-9)) :=
    begins_along (Config.validate_ok_iff.mpr Config.isValid_standard) path true rfl rfl
  have hidles : (sv.firstRun (.idle luu) (.start path true 1e-9)).Idles 0 := by
    refine ⟨rfl, rfl, ⟨0, .replicate 1 1e10⟩, 0, rfl, ?_, ?_⟩ <;> simp
  obtain ⟨r, hreached, -⟩ := hbegin.reaches_idle hluu rfl hhonest hidles (fun _ => 0) 100 le_rfl
  have hlengths := hbegin.stepLengths_of_reaches rfl hconvex rfl hhonest hreached
  have hbudget : 100 < Vec.sizeLimit := by norm_num [Vec.sizeLimit]
  have hsolve : (sv.solve (.idle luu) g fun _ => 0) = r.finish .standard .maxIterationsReached 100 :=
    (solveWithin_of_begins hbegin hbudget).trans hreached.iterateFrom_eq
  obtain ⟨res, hout⟩ : ∃ res, (sv.solve (.idle luu) g fun _ => 0).outcome = .ok res :=
    answers_of_begins hbegin _ hbudget
  have hanswers : r.Answers .maxIterationsReached 100 res := by
    rw [hsolve] at hout
    exact Run.answers_of_finish hout
  refine ⟨hconvex, rfl, hhonest, res, hout, ?_, ?_⟩
  · unfold SolveResult.converged
    rw [hanswers.status]
    rfl
  · exact SolveResult.acceptedIterations_of_replicate (hanswers.stepLengths.trans hlengths)

end Solver

end Shooting
