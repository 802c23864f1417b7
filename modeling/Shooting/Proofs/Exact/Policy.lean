import Shooting.Proofs.Exact.PositiveDefinite
import Shooting.Proofs.Solver.Backward

/-!
# Exact policies

Without rounding, a backward pass over symmetric second derivatives keeps the Hessians of all value
functions symmetric. The feedforward of each stage then solves `Quu k = Qu`, and that is why the
policy promises what it does: along a feasible path, the first-order part of the expected
improvement is not negative and the second-order part is its opposite
(`Policy.Solves.isBalanced`), so that no step of a length between zero and one is expected to cost
anything (`ExpectedImprovement.IsBalanced.reduction_nonneg`).
-/

namespace Shooting

open Matrix

variable {s : StateSpace} {ndx nu : ℕ} {nus : List ℕ}

/-! ## Symmetric second derivatives -/

/-- The second derivatives in the state and in the control are symmetric. -/
structure Expansion.IsSymmetric (e : Expansion ℝ ndx nu) : Prop where
  lxx : e.lxx.IsSymmetric
  luu : e.luu.IsSymmetric

/-- All expansions are symmetric, at the end in the state. -/
def Expansions.IsSymmetric : {nus : List ℕ} → Expansions ℝ s nus → Prop
  | _, .last e => e.2.lxx.IsSymmetric
  | _, .stage e es => e.IsSymmetric ∧ IsSymmetric es

/-- Wherever a stage can be, its model gives symmetric second derivatives. -/
def Models.IsSymmetric : {nus : List ℕ} → Models ℝ s nus → Prop
  | _, .last m => ∀ x, (m.2.expand x none).lxx.IsSymmetric
  | _, .stage m ms => (∀ x u, (m.expand x (some u)).IsSymmetric) ∧ IsSymmetric ms

theorem Models.IsSymmetric.expansions : ∀ {nus : List ℕ} {ms : Models ℝ s nus},
    Models.IsSymmetric ms →
      ∀ path : Path ℝ s nus, Expansions.IsSymmetric (Models.expansions ms path)
  | _, .last _, h, .last x => h x
  | _, .stage _ _, h, .stage k ks => ⟨h.1 k.state k.control, Models.IsSymmetric.expansions h.2 ks⟩

/-- Stages with a quadratic cost are as symmetric as their weights. -/
theorem Model.isSymmetric_lqr {nx : ℕ} (p : Lqr ℝ nx nu) (hxx : p.lxx.IsSymmetric)
    (huu : p.luu.IsSymmetric) (x : Vec ℝ nx) :
    ∀ u : Option (Vec ℝ nu), ((Model.lqr p).expand x u).IsSymmetric
  | some _ => ⟨hxx, huu⟩
  | none => ⟨hxx, Mat.isSymmetric_zero⟩

theorem ValueModel.hessian_across (gradient : Vec ℝ ndx) (hessian : Mat ℝ ndx ndx) (damping : ℝ)
    (gap : Option (Vec ℝ ndx)) :
    (across gradient hessian damping gap).hessian = hessian.addDiagonal damping := by
  cases gap <;> rfl

theorem ActionValue.isSymmetric_quu {e : Expansion ℝ ndx nu} (he : e.luu.IsSymmetric)
    {next : ValueModel ℝ ndx} (hnext : next.hessian.IsSymmetric) (damping : ℝ) :
    (ofExpansion e next damping).quu.IsSymmetric := by
  refine Mat.IsSymmetric.addDiagonal ?_ damping
  unfold Mat.IsSymmetric at he hnext ⊢
  rw [Mat.toMatrix_add, Mat.toMatrix_mul, Mat.toMatrix_mul, Mat.toMatrix_transpose]
  refine he.add ?_
  unfold Matrix.IsSymm at hnext ⊢
  rw [transpose_mul, transpose_mul, transpose_transpose, hnext, Matrix.mul_assoc]

/-- A backward pass that gets through makes the Hessian of every value function symmetric. -/
theorem Policy.Solves.isSymmetric_head {d : Damping ℝ} {feasible : Bool} : ∀ {nus : List ℕ}
    {ps : Policy ℝ s.ndx nus} {es : Expansions ℝ s nus} {fs : Gaps ℝ s nus},
    Policy.Solves d feasible ps es fs → Expansions.IsSymmetric es →
    (Policy.head ps).hessian.IsSymmetric
  | _, .last v, .last e, .last f, h, hsymm => by
    show v.hessian.IsSymmetric
    rw [h.value, ValueModel.hessian_across]
    exact Mat.IsSymmetric.addDiagonal hsymm d.state
  | _, .stage p ps, .stage e es, .stage f fs, h, _ => by
    show p.value.hessian.IsSymmetric
    rw [h.1.value]
    unfold ActionValue.value
    rw [ValueModel.hessian_across]
    exact (Mat.isSymmetric_symmetrized _).addDiagonal d.state

/-! ## Gains -/

/-- Gains come from a Cholesky factor of `Quu`. -/
theorem ActionValue.cholesky_of_gains? {q : ActionValue ℝ ndx nu} {g : Gains ℝ ndx nu}
    (h : q.gains? = some g) :
    ∃ l, cholesky q.quu = .ok l ∧ g = ⟨l.solveVec q.qu, l.solve q.qxu.transpose⟩ := by
  unfold gains? at h
  split at h
  next =>
    split at h
    next l hl => exact ⟨l, hl, (Option.some.inj h).symm⟩
    next => cases h
  next => cases h

/-- Where `Quu` is not positive there are no gains. -/
theorem ActionValue.gains?_eq_none {q : ActionValue ℝ ndx nu} (hsymm : q.quu.IsSymmetric)
    (hpositive : ¬ q.quu.IsPositive) : q.gains? = none := by
  cases hgains : q.gains? with
  | none => rfl
  | some g =>
    obtain ⟨l, hl, -⟩ := cholesky_of_gains? hgains
    exact absurd ((cholesky_real hl).isPositive hsymm) hpositive

namespace StagePolicy.Solves

variable {p : StagePolicy ℝ ndx nu} {d : Damping ℝ} {feasible : Bool} {e : Expansion ℝ ndx nu}
  {gap : Vec ℝ ndx} {next : ValueModel ℝ ndx}

theorem isSymmetric_quu (h : p.Solves d feasible e gap next) (he : e.luu.IsSymmetric)
    (hnext : next.hessian.IsSymmetric) : p.q.quu.IsSymmetric := by
  rw [h.q]
  exact ActionValue.isSymmetric_quu he hnext d.control

/-- **The feedforward solves `Quu k = Qu`, and does not point away from the gradient.** -/
theorem feedforward (h : p.Solves d feasible e gap next) (he : e.luu.IsSymmetric)
    (hnext : next.hessian.IsSymmetric) :
    p.q.quu * p.gains.feedforward = p.q.qu ∧ 0 ≤ p.q.qu.dot p.gains.feedforward := by
  have hsymm := h.isSymmetric_quu he hnext
  obtain ⟨l, hl, hg⟩ := ActionValue.cholesky_of_gains? h.gains
  rw [hg]
  have hfactor := cholesky_real hl
  exact ⟨hfactor.mul_solveVec hsymm _, hfactor.dot_solveVec_nonneg _⟩

/-- **The feedback solves `Quu K = Qxuᵀ`.** -/
theorem feedback (h : p.Solves d feasible e gap next) (he : e.luu.IsSymmetric)
    (hnext : next.hessian.IsSymmetric) : p.q.quu * p.gains.feedback = p.q.qxu.transpose := by
  obtain ⟨l, hl, hg⟩ := ActionValue.cholesky_of_gains? h.gains
  rw [hg]
  exact (cholesky_real hl).mul_solve (h.isSymmetric_quu he hnext) _

theorem isPositive_quu (h : p.Solves d feasible e gap next) (he : e.luu.IsSymmetric)
    (hnext : next.hessian.IsSymmetric) : p.q.quu.IsPositive := by
  obtain ⟨l, hl, -⟩ := ActionValue.cholesky_of_gains? h.gains
  exact (cholesky_real hl).isPositive (h.isSymmetric_quu he hnext)

end StagePolicy.Solves

/-- **Where `Quu` is positive, a stage has a policy.** -/
theorem StagePolicy.exists_solves {d : Damping ℝ} {e : Expansion ℝ ndx nu} {next : ValueModel ℝ ndx}
    (he : e.luu.IsSymmetric) (hnext : next.hessian.IsSymmetric)
    (hpositive : (ActionValue.ofExpansion e next d.control).quu.IsPositive) (feasible : Bool)
    (gap : Vec ℝ ndx) : ∃ p : StagePolicy ℝ ndx nu, p.Solves d feasible e gap next := by
  obtain ⟨l, hl⟩ :=
    cholesky_of_isPositive (ActionValue.isSymmetric_quu he hnext d.control) hpositive
  let q := ActionValue.ofExpansion e next d.control
  let g : Gains ℝ ndx nu := ⟨l.solveVec q.qu, l.solve q.qxu.transpose⟩
  have hgains : q.gains? = some g := by
    unfold ActionValue.gains?
    rw [if_pos q.quu.isFinite_real, hl]
  exact ⟨⟨q, g, q.value g d.state (effectiveGap feasible gap)⟩, rfl, hgains, rfl,
    Vec.isFinite_real _⟩

/-! ## Expected improvement -/

namespace ExpectedImprovement

/-- The first-order part is not negative, and the second-order part is its opposite. -/
structure IsBalanced (e : ExpectedImprovement ℝ) : Prop where
  first : 0 ≤ e.first
  second : e.second = -e.first

theorem IsBalanced.addStage {e : ExpectedImprovement ℝ} (h : e.IsBalanced)
    {p : StagePolicy ℝ ndx nu} (hk : p.q.quu * p.gains.feedforward = p.q.qu)
    (hdot : 0 ≤ p.q.qu.dot p.gains.feedforward) : (e.addStage p).IsBalanced := by
  unfold ExpectedImprovement.addStage
  refine ⟨add_nonneg h.first hdot, ?_⟩
  have hcomm : p.gains.feedforward.dot p.q.qu = p.q.qu.dot p.gains.feedforward := by
    rw [Vec.dot_real, Vec.dot_real, dotProduct_comm]
  dsimp only
  rw [hk, hcomm, h.second]
  ring

/-- **Steps of a length between zero and one promise no increase.** -/
theorem IsBalanced.reduction_nonneg {e : ExpectedImprovement ℝ} (h : e.IsBalanced) {length : ℝ}
    (hpos : 0 ≤ length) (hle : length ≤ 1) : 0 ≤ e.reduction length := by
  have hreduction : e.reduction length = length * (e.first * (1 - length / 2)) := by
    unfold reduction
    rw [h.second]
    ring
  rw [hreduction]
  exact mul_nonneg hpos (mul_nonneg h.first (by linarith))

end ExpectedImprovement

/-- What a policy adds to a balanced improvement leaves it balanced. -/
theorem Policy.Solves.isBalanced_foldl {d : Damping ℝ} {feasible : Bool} : ∀ {nus : List ℕ}
    {ps : Policy ℝ s.ndx nus} {es : Expansions ℝ s nus} {fs : Gaps ℝ s nus},
    Policy.Solves d feasible ps es fs → Expansions.IsSymmetric es →
    ∀ {i : ExpectedImprovement ℝ}, i.IsBalanced →
      (ps.foldl ExpectedImprovement.addStage i).IsBalanced
  | _, .last _, .last _, .last _, _, _, _, hi => hi
  | _, .stage _ _, .stage _ _, .stage _ _, h, hsymm, _, hi => by
    obtain ⟨hk, hdot⟩ := h.1.feedforward hsymm.1.luu (Policy.Solves.isSymmetric_head h.2 hsymm.2)
    exact Policy.Solves.isBalanced_foldl h.2 hsymm.2 (hi.addStage hk hdot)

/-- **What a policy promises along a feasible path is balanced.** -/
theorem Policy.Solves.isBalanced {d : Damping ℝ} {ps : Policy ℝ s.ndx nus}
    {es : Expansions ℝ s nus} {fs : Gaps ℝ s nus} (h : Policy.Solves d true ps es fs)
    (hsymm : Expansions.IsSymmetric es) (gaps : Gaps ℝ s nus) :
    (ExpectedImprovement.ofPolicy ps gaps true).IsBalanced :=
  Policy.Solves.isBalanced_foldl h hsymm ⟨le_rfl, neg_zero.symm⟩

end Shooting
