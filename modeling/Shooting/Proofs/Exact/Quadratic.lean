import Shooting.Proofs.Exact.Policy

/-!
# The quadratic model along a path

Around a path, states and controls are displaced. To first order the displacements follow the linear
dynamics, of which a step of length `a` closes the part `a` of every gap (`Displacements.Obeys`); to
second order they change the cost (`Displacements.change`), and the regularization charges for their
lengths (`Displacements.penalty`).

What the model charges for displacements is known in closed form from the policy of a backward pass
and the controls' deviations from that policy. `Policy.Solves.change_eq` says so for steps of every
length and controls of every kind. It is one induction from the end of the horizon. At each stage

* cost and value after it are the quadratic form of the action value (`ActionValue.at_ofExpansion`);
* the square in the control is completed (`ActionValue.at_eq`);
* the value function is moved across the gap (`ValueModel.at_across`).

A feasible path is one whose gaps are all zero, so there is no case of its own
(`Policy.Solves.counted`).
-/

namespace Shooting

open Matrix

variable {s : StateSpace} {ndx nu : ℕ} {nus : List ℕ}

/-! ## Displacements -/

/-- How far a state and a control are from those of a path. -/
structure Displacement (α : Type) (ndx nu : ℕ) where
  state : Vec α ndx
  control : Vec α nu

/-- A displacement at every running stage, and one of the state at the end. -/
abbrev Displacements (α : Type) (s : StateSpace) (nus : List ℕ) : Type :=
  Horizon (Displacement α s.ndx) (Vec α s.ndx) nus

/-- The second-order change of a stage's cost. -/
noncomputable def Expansion.change (e : Expansion ℝ ndx nu) (δ : Displacement ℝ ndx nu) : ℝ :=
  e.lx.dot δ.state + e.lu.dot δ.control + δ.state.dot (e.lxx * δ.state) / 2 +
    δ.state.dot (e.lxu * δ.control) + δ.control.dot (e.luu * δ.control) / 2

/-- The second-order part of a stage's cost, twice. -/
noncomputable def Expansion.form (e : Expansion ℝ ndx nu) (δ : Displacement ℝ ndx nu) : ℝ :=
  δ.state.dot (e.lxx * δ.state) + 2 * δ.state.dot (e.lxu * δ.control) +
    δ.control.dot (e.luu * δ.control)

/-- The second-order part of a stage's cost that belongs to two displacements at a time. -/
noncomputable def Expansion.mixed (e : Expansion ℝ ndx nu) (δ δ' : Displacement ℝ ndx nu) : ℝ :=
  δ.state.dot (e.lxx * δ'.state) + δ.state.dot (e.lxu * δ'.control) +
    δ'.state.dot (e.lxu * δ.control) + δ.control.dot (e.luu * δ'.control)

theorem Expansion.change_state (e : Expansion ℝ ndx nu) (dx : Vec ℝ ndx) :
    e.change ⟨dx, 0⟩ = e.lx.dot dx + dx.dot (e.lxx * dx) / 2 := by
  unfold change
  simp only [Mat.mul_zeroVec, Vec.dot_zero]
  ring

theorem Expansion.change_control (e : Expansion ℝ ndx nu) (du : Vec ℝ nu) :
    e.change ⟨0, du⟩ = e.lu.dot du + du.dot (e.luu * du) / 2 := by
  unfold change
  simp only [Vec.dot_zero, Vec.zero_dot]
  ring

/-- Two displacements together change the cost by what each of them does and by what is mixed. -/
theorem Expansion.change_add {e : Expansion ℝ ndx nu} (h : e.IsSymmetric)
    (δ δ' : Displacement ℝ ndx nu) :
    e.change ⟨δ.state + δ'.state, δ.control + δ'.control⟩ =
      e.change δ + e.change δ' + e.mixed δ δ' := by
  have hxx := h.lxx.form_comm δ.state.get δ'.state.get
  have huu := h.luu.form_comm δ.control.get δ'.control.get
  unfold change mixed
  simp only [Vec.dot_real, Vec.toFun_add, Mat.get_mulVec_real, mulVec_add, dotProduct_add,
    add_dotProduct, hxx, huu]
  ring

/-- The second-order change of the cost at the end, where there is no control. -/
noncomputable def Expansion.finalChange (e : Expansion ℝ ndx nu) (dx : Vec ℝ ndx) : ℝ :=
  e.lx.dot dx + dx.dot (e.lxx * dx) / 2

/-- How far the knots of one path are from those of another. -/
noncomputable def Path.displacementsTo (path path' : Path ℝ s nus) : Displacements ℝ s nus :=
  path.zipWith (fun k k' => ⟨s.diff k.state k'.state, k'.control - k.control⟩) s.diff path'

namespace Displacements

/-- The displacements follow the linear dynamics when `predicted` is predicted for the first state
and the part `a` of every gap is closed. -/
def Obeys (a : ℝ) : {nus : List ℕ} → (predicted : Vec ℝ s.ndx) → Expansions ℝ s nus →
    Gaps ℝ s nus → Displacements ℝ s nus → Prop
  | _, predicted, .last _, .last f, .last dx => dx = predicted + f.scale a
  | _, predicted, .stage e es, .stage f fs, .stage δ ds =>
    δ.state = predicted + f.scale a ∧ Obeys a (e.fx * δ.state + e.fu * δ.control) es fs ds

/-- The second-order change of the cost. -/
noncomputable def change : {nus : List ℕ} → Displacements ℝ s nus → Expansions ℝ s nus → ℝ
  | _, .last dx, .last e => e.2.finalChange dx
  | _, .stage δ ds, .stage e es => e.change δ + change ds es

/-- What the regularization charges: half the square of every displacement, weighted. -/
noncomputable def penalty (d : Damping ℝ) : {nus : List ℕ} → Displacements ℝ s nus → ℝ
  | _, .last dx => d.state / 2 * dx.normSq
  | _, .stage δ ds =>
    d.state / 2 * δ.state.normSq + d.control / 2 * δ.control.normSq + penalty d ds

end Displacements

/-- The gaps that count: none along a feasible path. -/
noncomputable def Gaps.counted (feasible : Bool) (fs : Gaps ℝ s nus) : Gaps ℝ s nus :=
  if feasible then .replicate (fun _ => 0) 0 nus else fs

theorem Gaps.eq_zero : ∀ {nus : List ℕ} {fs : Gaps ℝ s nus}, (∀ f ∈ fs.toList id id, f = 0) →
    fs = .replicate (fun _ => 0) 0 nus
  | _, .last f, h => congrArg Horizon.last (h f (List.mem_singleton_self f))
  | _, .stage f fs, h => by
    obtain rfl : f = 0 := h f List.mem_cons_self
    have hrest := Gaps.eq_zero fun g hg => h g (List.mem_cons_of_mem _ hg)
    exact congrArg (Horizon.stage _) hrest

/-- Gaps that are zero where they do not count may be counted. -/
theorem Gaps.counted_eq {feasible : Bool} {fs : Gaps ℝ s nus}
    (h : feasible = true → ∀ f ∈ fs.toList id id, f = 0) : fs.counted feasible = fs := by
  cases feasible with
  | false => rfl
  | true => exact (Gaps.eq_zero (h rfl)).symm

/-! ## The policy and deviations from it -/

/-- How far a control is from the one that the policy has for a step of length `a`. -/
noncomputable def StagePolicy.deviation (p : StagePolicy ℝ ndx nu) (a : ℝ)
    (δ : Displacement ℝ ndx nu) : Vec ℝ nu :=
  δ.control + p.gains.feedforward.scale a + p.gains.feedback * δ.state

/-- Every control is the one that the policy has for a step of length `a`. -/
def Displacements.Follows (a : ℝ) : {nus : List ℕ} → Displacements ℝ s nus →
    Policy ℝ s.ndx nus → Prop
  | _, .last _, .last _ => True
  | _, .stage δ ds, .stage p ps =>
    δ.control = -p.gains.feedforward.scale a - p.gains.feedback * δ.state ∧ Follows a ds ps

theorem StagePolicy.deviation_eq_zero_iff {p : StagePolicy ℝ ndx nu} {a : ℝ}
    {δ : Displacement ℝ ndx nu} : p.deviation a δ = 0 ↔
      δ.control = -p.gains.feedforward.scale a - p.gains.feedback * δ.state := by
  unfold deviation
  simp only [Vec.ext_iff, Vec.get_add, Vec.get_sub, Vec.get_neg, Vec.get_zero]
  refine forall_congr' fun i => ?_
  constructor <;> intro h <;> linarith

/-- The value that a quadratic value function has for a displacement, up to a constant. -/
noncomputable def ValueModel.at (v : ValueModel ℝ ndx) (dx : Vec ℝ ndx) : ℝ :=
  v.gradient.dot dx + dx.dot (v.hessian * dx) / 2

theorem ValueModel.at_zero (v : ValueModel ℝ ndx) : v.at 0 = 0 := by
  unfold ValueModel.at
  rw [Vec.dot_real, Vec.dot_real, Vec.toFun_zero, dotProduct_zero, zero_dotProduct]
  norm_num

/-- The value that a quadratic action value has for a displacement, up to a constant. -/
noncomputable def ActionValue.at (q : ActionValue ℝ ndx nu) (δ : Displacement ℝ ndx nu) : ℝ :=
  q.qx.dot δ.state + q.qu.dot δ.control + δ.state.dot (q.qxx * δ.state) / 2 +
    δ.state.dot (q.qxu * δ.control) + δ.control.dot (q.quu * δ.control) / 2

/-- What a stage promises for a step of length `a`. -/
noncomputable def StagePolicy.promise (p : StagePolicy ℝ ndx nu) (a : ℝ) : ℝ :=
  a * (p.q.qu.dot p.gains.feedforward -
    a / 2 * p.gains.feedforward.dot (p.q.quu * p.gains.feedforward))

/-- What is promised for closing the part `a` of a gap. -/
noncomputable def ValueModel.promise (v : ValueModel ℝ ndx) (a : ℝ) (f : Vec ℝ ndx) : ℝ :=
  a * (-v.gradient.dot f + a / 2 * f.dot (v.hessian * f))

theorem ValueModel.promise_zero (v : ValueModel ℝ ndx) (a : ℝ) : v.promise a 0 = 0 := by
  unfold promise
  rw [Vec.dot_real, Vec.dot_real, Vec.toFun_zero, dotProduct_zero, zero_dotProduct]
  ring

/-- What a policy promises for a step of length `a`, stage by stage. -/
noncomputable def Policy.promise (a : ℝ) : {nus : List ℕ} → Policy ℝ s.ndx nus → Gaps ℝ s nus → ℝ
  | _, .last v, .last f => v.promise a f
  | _, .stage p ps, .stage f fs => p.promise a + p.value.promise a f + promise a ps fs

/-- What displacements cost beyond what the policy promises for a step of length `a`: for a step
that is not full, the gaps that stay open matter; and so does every deviation of a control. -/
noncomputable def Policy.excess (a : ℝ) : {nus : List ℕ} → Policy ℝ s.ndx nus → Gaps ℝ s nus →
    Displacements ℝ s nus → ℝ
  | _, .last v, .last f, .last dx => -(1 - a) * f.dot (v.hessian * dx)
  | _, .stage p ps, .stage f fs, .stage δ ds =>
    (1 - a) * (p.q.qu.dot (p.deviation a δ) - f.dot (p.value.hessian * δ.state)) +
      (p.deviation a δ).dot (p.q.quu * p.deviation a δ) / 2 + excess a ps fs ds

/-! ## One stage -/

/-- **A stage's cost and the value after it are the action value.** -/
theorem ActionValue.at_ofExpansion (e : Expansion ℝ ndx nu) {next : ValueModel ℝ ndx}
    (hnext : next.hessian.IsSymmetric) (damping : ℝ) (δ : Displacement ℝ ndx nu) :
    (ofExpansion e next damping).at δ =
      e.change δ + damping / 2 * δ.control.normSq +
        next.at (e.fx * δ.state + e.fu * δ.control) := by
  unfold ActionValue.at ofExpansion Expansion.change ValueModel.at
  have hswap := hnext.form_comm (e.fu.toMatrix *ᵥ δ.control.get)
    (e.fx.toMatrix *ᵥ δ.state.get)
  simp only [Vec.dot_real, Vec.normSq_real, Vec.toFun_add, Mat.get_mulVec_real, Mat.toMatrix_add,
    Mat.toMatrix_mul, Mat.toMatrix_transpose, Mat.toMatrix_addDiagonal, add_mulVec, mulVec_add,
    ← mulVec_mulVec, smul_mulVec, one_mulVec, dotProduct_add, add_dotProduct, dotProduct_smul,
    smul_eq_mul, Mat.dotProduct_transpose_mulVec, Mat.transpose_mulVec_dotProduct, hswap]
  ring

/-- **Completing the square.** What is left of an action value under its policy is a quadratic form
of the state; a control that deviates from the policy adds a positive form of its deviation, and for
a step that is not full a linear term. -/
theorem ActionValue.at_eq {p : StagePolicy ℝ ndx nu} (hsymm : p.q.quu.IsSymmetric)
    (hk : p.q.quu * p.gains.feedforward = p.q.qu)
    (hK : p.q.quu * p.gains.feedback = p.q.qxu.transpose) (a : ℝ) (δ : Displacement ℝ ndx nu) :
    p.q.at δ =
      (p.q.qx - p.gains.feedback.transpose * p.q.qu).dot δ.state +
        δ.state.dot ((p.q.qxx - p.q.qxu * p.gains.feedback).symmetrized * δ.state) / 2 -
        p.promise a + (1 - a) * p.q.qu.dot (p.deviation a δ) +
          (p.deviation a δ).dot (p.q.quu * p.deviation a δ) / 2 := by
  have hcontrol : δ.control.get = (p.deviation a δ).get - a • p.gains.feedforward.get -
      p.gains.feedback.toMatrix *ᵥ δ.state.get := by
    unfold StagePolicy.deviation
    rw [Vec.toFun_add, Vec.toFun_add, Vec.toFun_scale, Mat.get_mulVec_real]
    abel
  generalize p.deviation a δ = dev at hcontrol ⊢
  have hkv : p.q.quu.toMatrix *ᵥ p.gains.feedforward.get = p.q.qu.get := by
    rw [← Mat.get_mulVec_real, hk]
  have hKv : p.q.quu.toMatrix *ᵥ p.gains.feedback.toMatrix *ᵥ δ.state.get =
      p.q.qxu.toMatrixᵀ *ᵥ δ.state.get := by
    rw [mulVec_mulVec, ← Mat.toMatrix_mul, hK, Mat.toMatrix_transpose]
  have hcross (v : Fin nu → ℝ) :
      δ.state.get ⬝ᵥ p.q.qxu.toMatrix *ᵥ v = v ⬝ᵥ p.q.qxu.toMatrixᵀ *ᵥ δ.state.get := by
    rw [← Mat.transpose_mulVec_dotProduct, dotProduct_comm]
  -- the three mixed terms, in which `Quu` meets a gain
  have hforward := hsymm.form_comm p.gains.feedforward.get dev.get
  have hback := hsymm.form_comm (p.gains.feedback.toMatrix *ᵥ δ.state.get) dev.get
  have hboth := hsymm.form_comm p.gains.feedforward.get (p.gains.feedback.toMatrix *ᵥ δ.state.get)
  rw [hkv] at hforward
  rw [hKv] at hback
  rw [hKv, hkv] at hboth
  unfold ActionValue.at StagePolicy.promise
  simp only [Vec.dot_real, Vec.toFun_sub, Mat.get_mulVec_real, Mat.dotProduct_symmetrized,
    Mat.toMatrix_sub, Mat.toMatrix_mul, Mat.toMatrix_transpose, sub_mulVec, ← mulVec_mulVec,
    dotProduct_sub, sub_dotProduct, Mat.transpose_mulVec_dotProduct, hcontrol]
  generalize p.gains.feedback.toMatrix *ᵥ δ.state.get = w at *
  simp only [mulVec_sub, mulVec_smul, dotProduct_comm p.q.qu.get, dotProduct_sub, dotProduct_smul,
    smul_dotProduct, smul_eq_mul, hkv, hKv, hcross, hforward, hback, hboth]
  ring

/-- **Crossing a gap.** A displacement that has closed the part `a` of a gap has the value that is
predicted on the far side, less what the policy promises for the gap; for a step that is not full,
the part that stays open matters. -/
theorem ValueModel.at_across {v : ValueModel ℝ ndx} {gradient : Vec ℝ ndx} {hessian : Mat ℝ ndx ndx}
    {damping a : ℝ} {predicted f dx : Vec ℝ ndx}
    (hv : v = across gradient hessian damping (some f)) (hsymm : hessian.IsSymmetric)
    (hdx : dx = predicted + f.scale a) :
    (⟨gradient, hessian⟩ : ValueModel ℝ ndx).at dx + damping / 2 * dx.normSq =
      v.at predicted - v.promise a f - (1 - a) * f.dot (v.hessian * dx) := by
  subst hv hdx
  have hswap := hsymm.form_comm predicted.get f.get
  unfold across promise ValueModel.at
  simp only [Vec.dot_real, Vec.normSq_real, Vec.toFun_add, Vec.toFun_scale, Mat.get_mulVec_real,
    Mat.toMatrix_addDiagonal, add_mulVec, mulVec_add, smul_mulVec, mulVec_smul, one_mulVec,
    dotProduct_add, add_dotProduct, dotProduct_smul, smul_dotProduct, smul_eq_mul, hswap,
    dotProduct_comm predicted.get f.get, dotProduct_comm (_ *ᵥ f.get)]
  ring

/-! ## All stages -/

namespace ExpectedImprovement

theorem reduction_addStage (e : ExpectedImprovement ℝ) (p : StagePolicy ℝ ndx nu) (a : ℝ) :
    (e.addStage p).reduction a = e.reduction a + p.promise a := by
  unfold reduction addStage StagePolicy.promise
  ring

theorem reduction_addGap (e : ExpectedImprovement ℝ) (v : ValueModel ℝ ndx) (f : Vec ℝ ndx)
    (a : ℝ) : (e.addGap v f).reduction a = e.reduction a + v.promise a f := by
  unfold reduction addGap ValueModel.promise
  ring

/-- Stages and gaps are added one after the other; together they add what the policy promises. -/
theorem reduction_addGaps (a : ℝ) : ∀ {nus : List ℕ} (ps : Policy ℝ s.ndx nus) (fs : Gaps ℝ s nus)
    (e i : ExpectedImprovement ℝ),
    (addGaps e ps fs).reduction a + (ps.foldl addStage i).reduction a =
      e.reduction a + i.reduction a + Policy.promise a ps fs
  | _, .last v, .last f, e, i => by
    show (e.addGap v f).reduction a + i.reduction a = _ + v.promise a f
    rw [reduction_addGap]
    ring
  | _, .stage p ps, .stage f fs, e, i => by
    show (addGaps (e.addGap p.value f) ps fs).reduction a +
      (ps.foldl addStage (i.addStage p)).reduction a = _ + (_ + _ + Policy.promise a ps fs)
    rw [reduction_addGaps a ps fs, reduction_addGap, reduction_addStage]
    ring

/-- Gaps that are all zero add nothing. -/
theorem reduction_addGaps_zero (a : ℝ) : ∀ {nus : List ℕ} (ps : Policy ℝ s.ndx nus)
    (e : ExpectedImprovement ℝ),
    (addGaps e ps (.replicate (fun _ => 0) 0 nus : Gaps ℝ s nus)).reduction a = e.reduction a
  | _, .last v, e => (reduction_addGap e v 0 a).trans (by rw [v.promise_zero, add_zero])
  | _, .stage p ps, e => by
    show (addGaps (e.addGap p.value 0) ps (.replicate _ _ _ : Gaps ℝ s _)).reduction a = _
    rw [reduction_addGaps_zero a ps, reduction_addGap, p.value.promise_zero, add_zero]

/-- **What a policy is expected to reduce the cost by is what its stages promise.** -/
theorem reduction_ofPolicy (a : ℝ) (ps : Policy ℝ s.ndx nus) (fs : Gaps ℝ s nus)
    (feasible : Bool) :
    (ofPolicy ps fs feasible).reduction a = Policy.promise a ps (fs.counted feasible) := by
  have hcounted : (ofPolicy ps fs feasible).reduction a =
      (addGaps (ps.foldl addStage ⟨0, 0, 0⟩) ps (fs.counted feasible)).reduction a := by
    cases feasible with
    | false => rfl
    | true => exact (reduction_addGaps_zero a ps _).symm
  have hsum := reduction_addGaps a ps (fs.counted feasible) (ps.foldl addStage ⟨0, 0, 0⟩) ⟨0, 0, 0⟩
  have hzero : (⟨0, 0, 0⟩ : ExpectedImprovement ℝ).reduction a = 0 := by simp [reduction]
  rw [hcounted]
  linarith

end ExpectedImprovement

/-- A pass along a feasible path finds what one finds along a path whose gaps are zero. -/
theorem ValueModel.across_counted (gradient : Vec ℝ ndx) (hessian : Mat ℝ ndx ndx) (damping : ℝ) :
    across gradient hessian damping (some 0) = across gradient hessian damping none := by
  have hnone : gradient + hessian.addDiagonal damping * (0 : Vec ℝ ndx) = gradient := by
    rw [Mat.mul_zeroVec]
    ext i
    rw [Vec.get_add, Vec.get_zero, add_zero]
  unfold across
  dsimp only
  rw [hnone]

namespace Policy.Solves

variable {d : Damping ℝ}

theorem counted_of_feasible : ∀ {nus : List ℕ} {ps : Policy ℝ s.ndx nus}
    {es : Expansions ℝ s nus} {fs : Gaps ℝ s nus}, Policy.Solves d true ps es fs →
    Policy.Solves d false ps es (.replicate (fun _ => 0) 0 nus : Gaps ℝ s nus)
  | _, .last _, .last _, .last _, h =>
    ⟨h.value.trans (ValueModel.across_counted _ _ _).symm, h.finite⟩
  | _, .stage _ _, .stage _ _, .stage _ _, h =>
    ⟨⟨h.1.q, h.1.gains, h.1.value.trans (ValueModel.across_counted _ _ _).symm, h.1.finite⟩,
      counted_of_feasible h.2⟩

/-- **A pass finds the policy for the gaps that count.** -/
theorem counted {feasible : Bool} {ps : Policy ℝ s.ndx nus} {es : Expansions ℝ s nus}
    {fs : Gaps ℝ s nus} (h : Policy.Solves d feasible ps es fs) :
    Policy.Solves d false ps es (fs.counted feasible) := by
  cases feasible with
  | false => exact h
  | true => exact h.counted_of_feasible

/-- **What displacements cost.** Displacements that close the part `a` of every gap change the cost,
together with what the regularization charges, by what is predicted at the first state, less what
the policy promises for a step of length `a`, plus their excess. -/
theorem change_eq (a : ℝ) : ∀ {nus : List ℕ} {ps : Policy ℝ s.ndx nus} {es : Expansions ℝ s nus}
    {fs : Gaps ℝ s nus} {ds : Displacements ℝ s nus} {predicted : Vec ℝ s.ndx},
    Policy.Solves d false ps es fs → Expansions.IsSymmetric es → ds.Obeys a predicted es fs →
    ds.change es + ds.penalty d =
      (Policy.head ps).at predicted - Policy.promise a ps fs + Policy.excess a ps fs ds
  | _, .last v, .last e, .last f, .last dx, predicted, h, hsymm, hobeys => by
    have hcross := ValueModel.at_across h.value hsymm hobeys
    show e.2.finalChange dx + d.state / 2 * dx.normSq =
      v.at predicted - v.promise a f + -(1 - a) * f.dot (v.hessian * dx)
    rw [neg_mul, ← sub_eq_add_neg]
    exact hcross
  | _, .stage p ps, .stage e es, .stage f fs, .stage δ ds, predicted, h, hsymm, hobeys => by
    have hnext := Policy.Solves.isSymmetric_head h.2 hsymm.2
    have hrest := change_eq a h.2 hsymm.2 hobeys.2
    have hstage := ActionValue.at_ofExpansion e hnext d.control δ
    have hsquare := ActionValue.at_eq (h.1.isSymmetric_quu hsymm.1.luu hnext)
      (h.1.feedforward hsymm.1.luu hnext).1 (h.1.feedback hsymm.1.luu hnext) a δ
    have hcross := ValueModel.at_across h.1.value (Mat.isSymmetric_symmetrized _) hobeys.1
    rw [← h.1.q] at hstage
    unfold ValueModel.at at hcross
    show e.change δ + Displacements.change ds es + (d.state / 2 * δ.state.normSq +
        d.control / 2 * δ.control.normSq + Displacements.penalty d ds) =
      p.value.at predicted - (p.promise a + p.value.promise a f + Policy.promise a ps fs) +
        ((1 - a) * (p.q.qu.dot (p.deviation a δ) - f.dot (p.value.hessian * δ.state)) +
          (p.deviation a δ).dot (p.q.quu * p.deviation a δ) / 2 + Policy.excess a ps fs ds)
    unfold ValueModel.at
    linarith

end Policy.Solves

end Shooting
