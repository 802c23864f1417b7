import Shooting.Proofs.Exact.Convex
import Shooting.Proofs.Exact.Line
import Shooting.Proofs.Solver.Regularization

/-!
# Convex problems have no failed passes

The costs of a stage are convex if their second derivatives bend nowhere downwards, in state and
control together. Then no backward pass fails, whatever the dynamics are, singular ones included, and
however long the horizon is: going backwards, the Hessian of every value function is symmetric and
bends by the regularization of the states at least (`Policy.Solves.bendsBy`), and so the next `Quu`
is positive once the controls are regularized.

A solve of a problem with such costs counts no failed pass. It can still run out of regularization,
but only in a line search (`Solver.AlwaysPlans`).
-/

namespace Shooting

open Matrix

variable {s : StateSpace} {n ndx nu : ℕ} {nus : List ℕ}

/-! ## Value functions -/

/-- The matrix is symmetric and bends by `c` at least in every direction: with `c` taken off its
diagonal it is still nowhere negative. -/
structure Mat.BendsBy (c : ℝ) (a : Mat ℝ n n) : Prop where
  symmetric : a.IsSymmetric
  nonneg : (a.addDiagonal (-c)).IsNonneg

/-- What is added to the diagonal can be taken off again. -/
theorem Mat.IsNonneg.bendsBy {a : Mat ℝ n n} (h : a.IsNonneg) (hsymm : a.IsSymmetric) (c : ℝ) :
    (a.addDiagonal c).BendsBy c := by
  refine ⟨hsymm.addDiagonal c, ?_⟩
  intro v
  have hv := h v
  rw [Mat.dot_addDiagonal, Mat.dot_addDiagonal]
  linarith

/-- The value functions of a policy, from the first stage to the end. -/
def Policy.values (ps : Policy ℝ ndx nus) : List (ValueModel ℝ ndx) :=
  ps.toList StagePolicy.value id

/-- **All value functions of convex stages bend by the regularization of the states.** The induction
is along the horizon, from the end: what the feedback of a stage leaves is a value of the form of its
cost and of the value function after it. -/
theorem Policy.Solves.bendsBy {m : ℝ} {d : Damping ℝ} {feasible : Bool} (hm : 0 ≤ m)
    (hstate : 0 ≤ d.state) (hcontrol : 0 ≤ d.control) : ∀ {nus : List ℕ} {ps : Policy ℝ s.ndx nus}
    {es : Expansions ℝ s nus} {fs : Gaps ℝ s nus}, Policy.Solves d feasible ps es fs →
    Expansions.IsConvex m es → ∀ v ∈ Policy.values ps, v.hessian.BendsBy d.state
  | _, .last v, .last e, .last f, h, hconvex => by
    refine List.forall_mem_singleton.mpr ?_
    show v.hessian.BendsBy d.state
    rw [h.value, ValueModel.hessian_across]
    exact hconvex.2.bendsBy hconvex.1 d.state
  | _, .stage p ps, .stage e es, .stage f fs, h, hconvex => by
    obtain ⟨hhere, hrest⟩ := h
    refine List.forall_mem_cons.mpr ⟨?_, bendsBy hm hstate hcontrol hrest hconvex.2⟩
    have hsymm := Policy.Solves.isSymmetric_head hrest hconvex.2.isSymmetric
    have hnonneg := hrest.isNonneg_head hm hstate hcontrol hconvex.2
    show p.value.hessian.BendsBy d.state
    rw [hhere.hessian_value]
    exact (hhere.isNonneg_unregularized hconvex.1 hsymm hnonneg hm hcontrol).bendsBy
      (Mat.isSymmetric_symmetrized _) d.state

/-! ## Iterations -/

/-- Along every path the costs are convex, as far as second derivatives tell. -/
def Models.IsConvex (ms : Models ℝ s nus) : Prop :=
  ∀ path, Expansions.IsConvex 0 (ms.expansions path)

namespace Run

variable {p : Problem ℝ s nus} {c : Config ℝ} {r₁ : Run ℝ s nus}

/-- A backward pass along a path of convex costs gets through. -/
theorem exists_backward_of_convex {m : ℝ} (hm : 0 ≤ m)
    (hconvex : (p.stages.models.expansions r₁.workspace.path).IsConvex m) (hc : r₁.Consistent p)
    (hexp : r₁.unexpanded = false) (hvalid : c.IsValid)
    (hdamping : r₁.workspace.damping.Within c) : ∃ policy, r₁.backward = (policy, none) := by
  have hstate := hdamping.allowed.pos hvalid
  have hcontrol : 0 < r₁.workspace.damping.control := hdamping.equal ▸ hstate
  obtain ⟨policy, hsolves⟩ : ∃ policy, Policy.Solves r₁.workspace.damping r₁.workspace.feasible
      policy (p.stages.models.expansions r₁.workspace.path) r₁.workspace.gaps :=
    hconvex.exists_solves hm hstate.le hcontrol.le (add_pos_of_nonneg_of_pos hm hcontrol) _
  refine ⟨policy, backward_of_solves _ ?_⟩
  rw [hc.expanded hexp]
  exact hsolves

end Run

/-! ## Solves -/

namespace Solver

variable {sv : Solver ℝ s nus} {p : Problem ℝ s nus} {g : Guess ℝ} {clock : ℕ → ℕ} {budget : ℕ}
  {r₀ : Run ℝ s nus}

/-- **Every iteration of a convex problem has a policy.** -/
theorem Begins.exists_backward (h : sv.Begins p g r₀) (hconvex : p.stages.models.IsConvex) {i : ℕ}
    {r : Run ℝ s nus} (hr : r₀.Reaches sv.config clock budget i r) :
    ∃ r₁ policy, r.refresh i = .ok r₁ ∧ r₁.backward = (policy, none) := by
  obtain ⟨r₁, hprep⟩ := r.exists_refresh i
  obtain ⟨hc, hexp, hwithin⟩ := h.prepared hr hprep
  obtain ⟨policy, hback⟩ := Run.exists_backward_of_convex le_rfl (hconvex _) hc hexp
    (Config.isValid_of_validate h.validate) hwithin
  exact ⟨r₁, policy, hprep, hback⟩

theorem Begins.not_passFails (h : sv.Begins p g r₀) (hconvex : p.stages.models.IsConvex) {i : ℕ}
    {r : Run ℝ s nus} (hr : r₀.Reaches sv.config clock budget i r) : ¬ r.PassFails i := by
  obtain ⟨r₁, policy, hprep, hback⟩ := h.exists_backward hconvex hr
  exact Run.not_passFails hprep hback

/-- An iteration of a convex problem leaves the count of failed passes. -/
theorem Begins.backwardFailures_iterate (h : sv.Begins p g r₀)
    (hconvex : p.stages.models.IsConvex) {i : ℕ} {r : Run ℝ s nus}
    (hperf : r₀.Performs sv.config clock budget i r) (hzero : r.tally.backwardFailures = 0) :
    (r.iterate sv.config i).run.tally.backwardFailures = 0 := by
  rw [Run.backwardFailures_iterate, hzero, if_neg (h.not_passFails hconvex hperf.reached)]

theorem Begins.backwardFailures (h : sv.Begins p g r₀) : r₀.tally.backwardFailures = 0 := by
  obtain ⟨-, -⟩ := h
  rfl

/-- What is promised of a solve that has a policy in every iteration. -/
structure AlwaysPlans (sv : Solver ℝ s nus) (p : Problem ℝ s nus) (g : Guess ℝ) (clock : ℕ → ℕ)
    (budget : ℕ) : Prop where
  /-- Every iteration gets to its backward pass, and through it. -/
  passes : ∀ {r₀ i r}, sv.Begins p g r₀ → r₀.Performs sv.config clock budget i r →
    ∃ r₁ policy, r.refresh i = .ok r₁ ∧ r₁.backward = (policy, none)
  /-- No failed pass is counted, while the solve goes on and at its end. -/
  reached : ∀ {r₀ i r}, sv.Begins p g r₀ → r₀.Reaches sv.config clock budget i r →
    r.tally.backwardFailures = 0
  ended : ∀ {r₀ r status n}, sv.Begins p g r₀ → r₀.Ends sv.config clock budget r status n →
    r.tally.backwardFailures = 0
  /-- A solve that is out of regularization rejected all steps of its last line search. -/
  saturated : ∀ {res}, (sv.solveWithin p g clock budget).outcome = .ok res →
    res.status = .regularizationSaturated →
      ∃ r₀ i r r₁ policy, sv.Begins p g r₀ ∧ r₀.Performs sv.config clock budget i r ∧
        r.refresh i = .ok r₁ ∧ r₁.backward = (policy, none) ∧
        ((r₁.planned policy).search sv.config).found = none ∧
        r.workspace.damping.state = sv.config.regularizationMax ∧ res.iterations = i + 1

theorem alwaysPlans (hconvex : p.stages.models.IsConvex) : sv.AlwaysPlans p g clock budget := by
  refine ⟨fun hbegin hperf => hbegin.exists_backward hconvex hperf.reached, ?_, ?_, ?_⟩
  · intro r₀ i r hbegin hreached
    exact hreached.induct hbegin.backwardFailures fun hperf =>
      hbegin.backwardFailures_iterate hconvex hperf
  · intro r₀ r status n hbegin hend
    exact hend.induct hbegin.backwardFailures fun hperf =>
      hbegin.backwardFailures_iterate hconvex hperf
  · intro res hout hstatus
    obtain ⟨i, r, hiterates, hvain, hbound⟩ := exists_iterates_of_saturated hout hstatus
    have hwithin := hiterates.within.1
    obtain ⟨hroom, r₀, hbegin, hperf⟩ := hiterates
    have hvalid := Config.isValid_of_validate hbegin.validate
    cases hvain with
    | unplanned hprep hback =>
      exact absurd ⟨_, _, _, hprep, hback⟩ (hbegin.not_passFails hconvex hperf.reached)
    | @rejected r₁ policy hprep hback hgo hfound =>
      refine ⟨r₀, i, r, r₁, policy, hbegin, hperf, hprep, hback, hfound, hbound, ?_⟩
      have hdamping := (Run.prepares_refresh hprep).damping
      rw [← hdamping] at hwithin hbound
      have hsaturated : ((r₁.planned policy).searched sv.config).workspace.isSaturated sv.config =
          true := (Workspace.isSaturated_iff (w := r₁.workspace) hwithin hvalid).mpr hbound
      obtain ⟨r', hstop, -⟩ := Run.afterRejection_of_saturated hsaturated i
        ((r₁.planned policy).search sv.config).length (r₁.planned policy).workspace.feasibility
      rw [solveWithin_of_begins hbegin hroom, hperf.iterateFrom_of_stop
        ((Run.iterate_of_not_found hprep hback hgo hfound).trans hstop)] at hout
      exact (Run.answers_of_finish hout).iterations

/-- **Convex costs make no backward pass fail**, whatever the dynamics, the gaps and the horizon
are, and all value functions bend by the regularization of the states. So a solve of a problem with
such costs counts no failed pass, and runs out of regularization in a line search only. -/
theorem convex_passes_succeed :
    (∀ {s : StateSpace} {nus : List ℕ} (d : Damping ℝ) (feasible : Bool) (stages : Stages ℝ s nus)
      (gaps : Gaps ℝ s nus) (old : Policy ℝ s.ndx nus), 0 < d.state → 0 < d.control →
        Expansions.IsConvex 0 stages.storedExpansions →
          ∃ policy, backward d feasible stages gaps old = (policy, none) ∧
            ∀ v ∈ Policy.values policy, v.hessian.BendsBy d.state) ∧
      ∀ {s : StateSpace} {nus : List ℕ} (sv : Solver ℝ s nus) (p : Problem ℝ s nus) (g : Guess ℝ)
        (clock : ℕ → ℕ) (budget : ℕ), p.stages.models.IsConvex →
          sv.AlwaysPlans p g clock budget := by
  refine ⟨?_, fun sv p g clock budget hconvex => alwaysPlans hconvex⟩
  intro s nus d feasible stages gaps old hstate hcontrol hconvex
  obtain ⟨policy, hsolves⟩ : ∃ policy,
      Policy.Solves d feasible policy stages.storedExpansions gaps :=
    hconvex.exists_solves le_rfl hstate.le hcontrol.le (by rwa [zero_add]) gaps
  exact ⟨policy, backward_of_solves old hsolves,
    hsolves.bendsBy le_rfl hstate.le hcontrol.le hconvex⟩

end Solver

/-! ## An example -/

/-- A stage of a point on a line that drifts along, with a lever that does not move it. Half the
square of the sum of both is charged, so that the cost is flat where they cancel out. -/
noncomputable def Lqr.drifting : Lqr ℝ 1 1 :=
  ⟨.identity 1, 0, 0, .identity 1, .identity 1, .identity 1, 0, 0⟩

theorem Lqr.form_drifting (x u : Vec ℝ 1) (δ : Displacement ℝ 1 1) :
    (drifting.expand x (some u)).form δ = (δ.state.get 0 + δ.control.get 0) ^ 2 := by
  simp [Expansion.form, Lqr.expand, drifting]
  ring

/-- A point that drifts, and then waits without any control. -/
noncomputable def Problem.drifting : Problem ℝ (.euclidean 1) [1, 0] :=
  let rest : Model ℝ (.euclidean 1) 0 := .lqr (.terminal 0)
  ⟨.replicate 1 1,
    .stage ⟨.lqr .drifting, .zero⟩ (.stage ⟨rest, .zero⟩ (.last ⟨0, rest, .zero⟩))⟩

theorem Problem.isConvex_drifting : drifting.stages.models.IsConvex := by
  rintro (_ | ⟨k, _ | ⟨k', _ | _⟩⟩)
  have hflat {nu : ℕ} (x : Vec ℝ 1) (u : Vec ℝ nu) : x.dot ((0 : Mat ℝ 1 nu) * u) = 0 := by
    rw [Mat.zeroMat_mul, Vec.dot_real, Vec.toFun_zero, dotProduct_zero]
  have hzero : (0 : Mat ℝ 1 1).IsSymmetric := Mat.isSymmetric_zero
  refine ⟨⟨⟨Mat.isSymmetric_identity, Mat.isSymmetric_identity⟩, ?_⟩,
    ⟨⟨hzero, Mat.isSymmetric_zero⟩, ?_⟩, hzero, ?_⟩
  · intro δ
    rw [zero_mul]
    exact (Lqr.form_drifting k.state k.control δ).ge.trans' (sq_nonneg _)
  · intro δ
    have hnone : δ.control.dot ((0 : Mat ℝ 0 0) * δ.control) = 0 := by
      rw [Vec.dot_real, dotProduct_of_isEmpty]
    show 0 * _ ≤ δ.state.dot ((0 : Mat ℝ 1 1) * δ.state) +
      2 * δ.state.dot ((0 : Mat ℝ 1 0) * δ.control) + δ.control.dot ((0 : Mat ℝ 0 0) * δ.control)
    rw [hflat, hflat, hnone]
    norm_num
  · intro v
    exact (hflat v v).ge

namespace Solver

/-- Passes and a solve over costs that are flat in places. -/
theorem convex_passes_succeed_drifting :
    Problem.drifting.stages.models.IsConvex ∧
      (∀ path gaps old, ∃ policy,
        backward ⟨1e-9, 1e-9⟩ false (Problem.drifting.expand path).stages gaps old =
            (policy, none) ∧
          ∀ v ∈ Policy.values policy, v.hessian.BendsBy 1e-9) ∧
      ∃ r₀, (Solver.new .standard .none).Begins Problem.drifting .none r₀ ∧
        ∃ r₁ policy, r₀.refresh 0 = .ok r₁ ∧ r₁.backward = (policy, none) := by
  refine ⟨Problem.isConvex_drifting, ?_, ?_⟩
  · intro path gaps old
    refine convex_passes_succeed.1 ⟨1e-9, 1e-9⟩ false _ gaps old (by norm_num) (by norm_num) ?_
    rw [show (Problem.drifting.expand path).stages.storedExpansions = _ from
      Stages.storedExpansions_expand _ _]
    exact Problem.isConvex_drifting path
  · obtain ⟨r₀, hbegin⟩ : ∃ r₀, (Solver.new .standard .none).Begins Problem.drifting .none r₀ :=
      exists_begins Config.isValid_standard _
    have hperf : r₀.Performs .standard (fun _ => 0) 3 0 r₀ := ⟨.start, by decide, rfl⟩
    exact ⟨r₀, hbegin, (convex_passes_succeed.2 _ _ .none _ 3 Problem.isConvex_drifting).passes
      hbegin hperf⟩

end Solver

end Shooting
