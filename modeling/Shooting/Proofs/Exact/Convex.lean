import Shooting.Proofs.Exact.Costate
import Shooting.Proofs.Exact.Reduction

/-!
# Convex stages

Where the second derivatives of the costs bend nowhere downwards, in states and controls together,
no value function of a backward pass does (`Policy.Solves.isNonneg_head`). Hence every `Quu` is
positive as soon as the controls are regularized, and the pass does not end early
(`Expansions.IsConvex.exists_solves`). What is left of a quadratic form when the control is chosen
for the state is a value of that form, namely the one at the policy's own answer
(`StagePolicy.Solves.form_feedback`).

If the costs bend upwards in the controls, by `m` at least, then a pass along a feasible path
expects no more than the squared gradients of the total cost over `m`, the regularization added
(`Policy.Solves.first_le`).
-/

namespace Shooting

open Matrix

variable {s : StateSpace} {n ndx nu : ℕ} {nus : List ℕ}

/-! ## Forms that are not negative -/

/-- The quadratic form of the matrix is nowhere negative. -/
def Mat.IsNonneg (a : Mat ℝ n n) : Prop := ∀ v : Vec ℝ n, 0 ≤ v.dot (a * v)

namespace Mat

theorem dot_addDiagonal (a : Mat ℝ n n) (c : ℝ) (v : Vec ℝ n) :
    v.dot (a.addDiagonal c * v) = v.dot (a * v) + c * v.normSq := by
  simp only [Vec.dot_real, Vec.normSq_real, get_mulVec_real, toMatrix_addDiagonal, add_mulVec,
    smul_mulVec, one_mulVec, dotProduct_add, dotProduct_smul, smul_eq_mul]

theorem IsNonneg.addDiagonal {a : Mat ℝ n n} (h : a.IsNonneg) {c : ℝ} (hc : 0 ≤ c) :
    (a.addDiagonal c).IsNonneg := by
  intro v
  rw [dot_addDiagonal]
  exact add_nonneg (h v) (mul_nonneg hc v.normSq_nonneg)

theorem dot_symmetrized (a : Mat ℝ n n) (v : Vec ℝ n) :
    v.dot (a.symmetrized * v) = v.dot (a * v) := by
  rw [Vec.dot_real, Vec.dot_real, get_mulVec_real, get_mulVec_real, dotProduct_symmetrized]

end Mat

/-! ## Convex expansions -/

/-- The cost of a stage is convex in state and control together, and bends by `m` at least where the
control changes. -/
structure Expansion.IsConvex (m : ℝ) (e : Expansion ℝ ndx nu) : Prop extends e.IsSymmetric where
  bends : ∀ δ : Displacement ℝ ndx nu, m * δ.control.normSq ≤ e.form δ

/-- All stages are convex, and so is the cost at the end. -/
def Expansions.IsConvex (m : ℝ) : {nus : List ℕ} → Expansions ℝ s nus → Prop
  | _, .last e => e.2.lxx.IsSymmetric ∧ e.2.lxx.IsNonneg
  | _, .stage e es => e.IsConvex m ∧ IsConvex m es

theorem Expansions.IsConvex.isSymmetric {m : ℝ} : ∀ {nus : List ℕ} {es : Expansions ℝ s nus},
    Expansions.IsConvex m es → Expansions.IsSymmetric es
  | _, .last _, h => h.1
  | _, .stage _ _, h => ⟨h.1.toIsSymmetric, Expansions.IsConvex.isSymmetric h.2⟩

theorem Expansion.change_eq (e : Expansion ℝ ndx nu) (δ : Displacement ℝ ndx nu) :
    e.change δ = e.lx.dot δ.state + e.lu.dot δ.control + e.form δ / 2 := by
  unfold change form
  ring

/-- **The form of an action value** is that of the stage's cost with the regularization and that of
the value function after it. -/
theorem ActionValue.form_ofExpansion (e : Expansion ℝ ndx nu) {next : ValueModel ℝ ndx}
    (hnext : next.hessian.IsSymmetric) (damping : ℝ) (δ : Displacement ℝ ndx nu) :
    let q := ofExpansion e next damping
    let y := e.fx * δ.state + e.fu * δ.control
    δ.state.dot (q.qxx * δ.state) + 2 * δ.state.dot (q.qxu * δ.control) +
        δ.control.dot (q.quu * δ.control) =
      e.form δ + damping * δ.control.normSq + y.dot (next.hessian * y) := by
  have hswap := hnext.form_comm (e.fu.toMatrix *ᵥ δ.control.get) (e.fx.toMatrix *ᵥ δ.state.get)
  unfold ofExpansion Expansion.form
  simp only [Vec.dot_real, Vec.normSq_real, Vec.toFun_add, Mat.get_mulVec_real, Mat.toMatrix_add,
    Mat.toMatrix_mul, Mat.toMatrix_transpose, Mat.toMatrix_addDiagonal, add_mulVec, mulVec_add,
    ← mulVec_mulVec, smul_mulVec, one_mulVec, dotProduct_add, add_dotProduct, dotProduct_smul,
    smul_eq_mul, Mat.dotProduct_transpose_mulVec, hswap]
  ring

/-- **`Quu` is positive** where cost and regularization bend upwards together. -/
theorem Expansion.IsConvex.isPositive_quu {m : ℝ} {e : Expansion ℝ ndx nu} (he : e.IsConvex m)
    {next : ValueModel ℝ ndx} (hsymm : next.hessian.IsSymmetric) (hnext : next.hessian.IsNonneg)
    {damping : ℝ} (hpos : 0 < m + damping) :
    (ActionValue.ofExpansion e next damping).quu.IsPositive := by
  intro v hv
  have hform := ActionValue.form_ofExpansion e hsymm damping ⟨0, v⟩
  have hbends := he.bends ⟨0, v⟩
  have hvalue := hnext (e.fx * (0 : Vec ℝ ndx) + e.fu * v)
  have hnorm : 0 < v.normSq :=
    lt_of_le_of_ne v.normSq_nonneg fun hzero => hv (Vec.normSq_eq_zero_iff.mp hzero.symm)
  have hpart := mul_pos hpos hnorm
  have hzero (w : Vec ℝ ndx) : (0 : Vec ℝ ndx).dot w = 0 := by
    rw [Vec.dot_real, Vec.toFun_zero, zero_dotProduct]
  dsimp only at hform hbends
  rw [hzero, hzero] at hform
  linarith

namespace StagePolicy.Solves

variable {p : StagePolicy ℝ ndx nu} {d : Damping ℝ} {feasible : Bool} {e : Expansion ℝ ndx nu}
  {gap : Vec ℝ ndx} {next : ValueModel ℝ ndx}

/-- **What the feedback leaves of the form of an action value** is its value where the control
follows the feedback. -/
theorem form_feedback (h : p.Solves d feasible e gap next) (he : e.luu.IsSymmetric)
    (hnext : next.hessian.IsSymmetric) (x : Vec ℝ ndx) :
    let u := -(p.gains.feedback * x)
    x.dot ((p.q.qxx - p.q.qxu * p.gains.feedback) * x) =
      x.dot (p.q.qxx * x) + 2 * x.dot (p.q.qxu * u) + u.dot (p.q.quu * u) := by
  have hK : p.q.quu.toMatrix *ᵥ p.gains.feedback.toMatrix *ᵥ x.get =
      p.q.qxu.toMatrixᵀ *ᵥ x.get := by
    rw [mulVec_mulVec, ← Mat.toMatrix_mul, h.feedback he hnext, Mat.toMatrix_transpose]
  have hneg (v : Vec ℝ nu) : (-v).get = -v.get := funext v.get_neg
  simp only [Vec.dot_real, hneg, Mat.get_mulVec_real, Mat.toMatrix_sub, Mat.toMatrix_mul,
    sub_mulVec, ← mulVec_mulVec, mulVec_neg, dotProduct_neg, neg_dotProduct, neg_neg,
    dotProduct_sub, hK, Mat.dotProduct_transpose_mulVec]
  rw [dotProduct_comm (p.q.qxu.toMatrix *ᵥ _)]
  ring

theorem hessian_value (h : p.Solves d feasible e gap next) : p.value.hessian =
    (p.q.qxx - p.q.qxu * p.gains.feedback).symmetrized.addDiagonal d.state := by
  rw [h.value]
  exact ValueModel.hessian_across _ _ _ _

/-- What the feedback of a convex stage leaves is nowhere negative if the value function after it is
not, without any regularization of the states. -/
theorem isNonneg_unregularized {m : ℝ} (h : p.Solves d feasible e gap next) (he : e.IsConvex m)
    (hsymm : next.hessian.IsSymmetric) (hnext : next.hessian.IsNonneg) (hm : 0 ≤ m)
    (hcontrol : 0 ≤ d.control) : (p.q.qxx - p.q.qxu * p.gains.feedback).symmetrized.IsNonneg := by
  intro x
  let δ : Displacement ℝ ndx nu := ⟨x, -(p.gains.feedback * x)⟩
  have hbends := he.bends δ
  have hcost := mul_nonneg hm δ.control.normSq_nonneg
  have hcharge := mul_nonneg hcontrol δ.control.normSq_nonneg
  have hvalue := hnext (e.fx * δ.state + e.fu * δ.control)
  rw [Mat.dot_symmetrized, h.form_feedback he.luu hsymm, h.q,
    ActionValue.form_ofExpansion e hsymm d.control δ]
  linarith

/-- The value function of a convex stage is nowhere negative if the one after it is not. -/
theorem isNonneg_value {m : ℝ} (h : p.Solves d feasible e gap next) (he : e.IsConvex m)
    (hsymm : next.hessian.IsSymmetric) (hnext : next.hessian.IsNonneg) (hm : 0 ≤ m)
    (hstate : 0 ≤ d.state) (hcontrol : 0 ≤ d.control) : p.value.hessian.IsNonneg := by
  rw [h.hessian_value]
  exact (h.isNonneg_unregularized he hsymm hnext hm hcontrol).addDiagonal hstate

end StagePolicy.Solves

/-! ## Backward passes -/

section

variable {m : ℝ} {d : Damping ℝ} {feasible : Bool} (hm : 0 ≤ m) (hstate : 0 ≤ d.state)
  (hcontrol : 0 ≤ d.control)

include hm hstate hcontrol

/-- **No value function of convex stages is negative anywhere.** -/
theorem Policy.Solves.isNonneg_head : ∀ {nus : List ℕ} {ps : Policy ℝ s.ndx nus}
    {es : Expansions ℝ s nus} {fs : Gaps ℝ s nus}, Policy.Solves d feasible ps es fs →
    Expansions.IsConvex m es → (Policy.head ps).hessian.IsNonneg
  | _, .last v, .last e, .last f, h, hconvex => by
    show v.hessian.IsNonneg
    rw [h.value, ValueModel.hessian_across]
    exact hconvex.2.addDiagonal hstate
  | _, .stage p ps, .stage e es, .stage f fs, h, hconvex =>
    h.1.isNonneg_value hconvex.1 (Policy.Solves.isSymmetric_head h.2 hconvex.2.isSymmetric)
      (isNonneg_head h.2 hconvex.2) hm hstate hcontrol

/-- **A backward pass over convex stages finds a policy**, if the controls are regularized or the
costs bend upwards in them. -/
theorem Expansions.IsConvex.exists_solves (hpos : 0 < m + d.control) : ∀ {nus : List ℕ}
    {es : Expansions ℝ s nus}, Expansions.IsConvex m es → ∀ fs : Gaps ℝ s nus,
    ∃ ps, Policy.Solves d feasible ps es fs
  | _, .last e, _, .last f =>
    ⟨.last (.across e.2.lx e.2.lxx d.state (effectiveGap feasible f)), rfl, Vec.isFinite_real _⟩
  | _, .stage e es, hconvex, .stage f fs => by
    obtain ⟨ps, hps⟩ := exists_solves hpos hconvex.2 fs
    have hsymm := Policy.Solves.isSymmetric_head hps hconvex.2.isSymmetric
    have hnonneg := hps.isNonneg_head hm hstate hcontrol hconvex.2
    obtain ⟨p, hp⟩ := StagePolicy.exists_solves hconvex.1.luu hsymm
      (hconvex.1.isPositive_quu hsymm hnonneg hpos) feasible f
    exact ⟨.stage p ps, hp, hps⟩

end

/-! ## What is expected along a feasible path -/

/-- The sum of the squared lengths. -/
noncomputable def Controls.normSq : {nus : List ℕ} → Controls ℝ nus → ℝ
  | _, .last () => 0
  | _, .stage u us => u.normSq + normSq us

theorem Controls.normSq_nonneg : ∀ {nus : List ℕ} (us : Controls ℝ nus), 0 ≤ us.normSq
  | _, .last () => le_rfl
  | _, .stage u us => add_nonneg u.normSq_nonneg (normSq_nonneg us)

/-- **The measure of convergence** along a feasible path is the squared length of the control
gradients of the model. -/
theorem ExpectedImprovement.stop_ofPolicy (ps : Policy ℝ s.ndx nus) (gaps : Gaps ℝ s nus) :
    (ofPolicy ps gaps true).stop = ps.controlGradients.normSq := by
  have hfold : ∀ {nus : List ℕ} (ps : Policy ℝ s.ndx nus) (i : ExpectedImprovement ℝ),
      (ps.foldl addStage i).stop = i.stop + ps.controlGradients.normSq := by
    intro nus ps
    induction ps with
    | last => exact fun i => (add_zero i.stop).symm
    | stage p ps ih => exact fun i => (ih (i.addStage p)).trans (add_assoc _ _ _)
  exact (hfold ps ⟨0, 0, 0⟩).trans (zero_add _)

namespace Displacements

/-- The displacements of the controls. -/
def controls (ds : Displacements ℝ s nus) : Controls ℝ nus :=
  ds.map (fun δ => δ.control) fun _ => ()

/-- Convex costs change by more than their slope. -/
theorem slope_add_le {m : ℝ} : ∀ {nus : List ℕ} {es : Expansions ℝ s nus}
    (ds : Displacements ℝ s nus), Expansions.IsConvex m es →
    ds.slope es + m / 2 * ds.controls.normSq ≤ ds.change es
  | _, .last e, .last dx, h => by
    have hform := h.2 dx
    show e.2.lx.dot dx + m / 2 * 0 ≤ e.2.lx.dot dx + dx.dot (e.2.lxx * dx) / 2
    linarith
  | _, .stage e es, .stage δ ds, h => by
    have hrest := slope_add_le ds h.2
    have hbends := h.1.bends δ
    show e.lx.dot δ.state + e.lu.dot δ.control + slope ds es +
      m / 2 * (δ.control.normSq + Controls.normSq (controls ds)) ≤ e.change δ + change ds es
    rw [e.change_eq]
    linarith

/-- The regularization charges for the controls at least. -/
theorem controls_le_penalty {d : Damping ℝ} (hstate : 0 ≤ d.state) : ∀ {nus : List ℕ}
    (ds : Displacements ℝ s nus), d.control / 2 * ds.controls.normSq ≤ ds.penalty d
  | _, .last dx => by
    have hx := mul_nonneg (div_nonneg hstate zero_le_two) dx.normSq_nonneg
    show d.control / 2 * 0 ≤ d.state / 2 * dx.normSq
    linarith
  | _, .stage δ ds => by
    have hx := mul_nonneg (div_nonneg hstate zero_le_two) δ.state.normSq_nonneg
    have hrest := controls_le_penalty hstate ds
    show d.control / 2 * (δ.control.normSq + Controls.normSq (controls ds)) ≤
      d.state / 2 * δ.state.normSq + d.control / 2 * δ.control.normSq + penalty d ds
    linarith

/-- A slope is made up for by the squares of what goes down it. -/
theorem neg_le_along {c : ℝ} (hc : 0 < c) : ∀ {nus : List ℕ} (ds : Displacements ℝ s nus)
    (gs : Controls ℝ nus),
    -(gs.normSq / (2 * c)) ≤ ds.along gs + c / 2 * ds.controls.normSq
  | _, .last _, .last () => by
    show -((0 : ℝ) / (2 * c)) ≤ 0 + c / 2 * 0
    simp
  | _, .stage δ ds, .stage g gs => by
    have hrest := neg_le_along hc ds gs
    -- complete the square in the control
    have hsquare := (g + δ.control.scale c).normSq_nonneg
    have hstage : -(g.normSq / (2 * c)) ≤ g.dot δ.control + c / 2 * δ.control.normSq := by
      have hexpand : (g + δ.control.scale c).normSq =
          g.normSq + 2 * c * g.dot δ.control + c * c * δ.control.normSq := by
        simp only [Vec.normSq_real, Vec.dot_real, Vec.toFun_add, Vec.toFun_scale, add_dotProduct,
          dotProduct_add, smul_dotProduct, dotProduct_smul, smul_eq_mul,
          dotProduct_comm δ.control.get]
        ring
      rw [hexpand] at hsquare
      have htwice : 2 * c * (g.normSq / (2 * c)) = g.normSq := by field_simp
      nlinarith
    show -((g.normSq + Controls.normSq gs) / (2 * c)) ≤
      g.dot δ.control + along ds gs + c / 2 * (δ.control.normSq + Controls.normSq (controls ds))
    rw [add_div]
    linarith

end Displacements

/-- **What is expected along a feasible path is bounded by the gradients of the total cost**, the
closer the more the costs bend. -/
theorem Policy.Solves.first_le {m : ℝ} {d : Damping ℝ} (hstate : 0 ≤ d.state)
    (hpos : 0 < m + d.control) {ps : Policy ℝ s.ndx nus} {es : Expansions ℝ s nus}
    {fs : Gaps ℝ s nus} (h : Policy.Solves d true ps es fs) (hconvex : es.IsConvex m)
    (gaps : Gaps ℝ s nus) :
    (ExpectedImprovement.ofPolicy ps gaps true).first ≤ es.gradients.normSq / (m + d.control) := by
  let e := ExpectedImprovement.ofPolicy ps gaps true
  let zeros : Gaps ℝ s nus := .replicate (fun _ => 0) 0 nus
  have hsymm := hconvex.isSymmetric
  -- the step that the policy itself takes
  obtain ⟨ds, hds⟩ : ∃ ds, ds = Policy.roll 1 0 es zeros ps := ⟨_, rfl⟩
  obtain ⟨hobeys, hfollows⟩ := (Displacements.obeys_and_follows_iff 1).mpr hds
  have hcounted : Policy.Solves d false ps es zeros := h.counted
  have hmodel := hcounted.change_eq 1 hsymm hobeys
  have hpromise : ps.promise 1 zeros = e.first / 2 := by
    have hreduction := ExpectedImprovement.reduction_ofPolicy 1 ps gaps true
    have hbalanced := (h.isBalanced hsymm gaps).second
    unfold ExpectedImprovement.reduction at hreduction
    rw [hbalanced] at hreduction
    have hzeros : gaps.counted true = zeros := rfl
    rw [← hzeros, ← hreduction]
    ring
  rw [ValueModel.at_zero, Policy.excess_of_follows 1 hfollows, hpromise] at hmodel
  have hslope := ds.slope_add_le hconvex
  have hcharge := ds.controls_le_penalty hstate
  have halong := ds.neg_le_along hpos es.gradients
  rw [ds.slope_eq hobeys, Vec.dot_real, Vec.toFun_zero, dotProduct_zero] at hslope
  have hhalf : e.first / 2 ≤ es.gradients.normSq / (2 * (m + d.control)) := by linarith
  have hdouble : es.gradients.normSq / (2 * (m + d.control)) =
      es.gradients.normSq / (m + d.control) / 2 := by
    rw [mul_comm, div_mul_eq_div_div]
  rw [hdouble] at hhalf
  linarith

end Shooting
