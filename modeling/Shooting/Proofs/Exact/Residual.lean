import Shooting.Proofs.Exact.Convex

/-!
# What the regularization leaves of a full step

A full step goes where the quadratic model, together with what the regularization charges for the
step, is least. There the gradient of the model does not vanish: it is the opposite of the gradient
of the charge (`Policy.Solves.gradients_moved`). Both are had by going backwards along the same
linear dynamics, the one from the derivatives of the costs at the displaced path
(`Expansions.moved`), the other from the displacements, scaled by the regularization
(`Expansions.charged`).

On a linear-quadratic problem the model at the displaced path is the problem there
(`Lqrs.expansions_moved`). So a full step leaves control gradients that are in proportion to the
regularization and to how far the step went, and to nothing else. What the next pass sees of them
depends on the regularization and on second derivatives alone (`Policy.Solves.seen_eq`).
-/

namespace Shooting

open Matrix

variable {s : StateSpace} {n ndx nu nx : ℕ} {nus : List ℕ}

/-! ## The two gradients -/

/-- The derivatives of the quadratic model of a stage at a displacement. -/
noncomputable def Expansion.moved (e : Expansion ℝ ndx nu) (δ : Displacement ℝ ndx nu) :
    Expansion ℝ ndx nu :=
  { e with
    lx := e.lx + e.lxx * δ.state + e.lxu * δ.control
    lu := e.lu + e.luu * δ.control + e.lxu.transpose * δ.state }

/-- Those at the end, where there is no control. -/
noncomputable def Expansion.finalMoved (e : Expansion ℝ ndx nu) (dx : Vec ℝ ndx) :
    Expansion ℝ ndx nu :=
  { e with lx := e.lx + e.lxx * dx }

namespace Expansions

/-- The derivatives of the quadratic model along the displaced path. -/
noncomputable def moved : {nus : List ℕ} → Expansions ℝ s nus → Displacements ℝ s nus →
    Expansions ℝ s nus
  | _, .last e, .last dx => .last ⟨e.1, e.2.finalMoved dx⟩
  | _, .stage e es, .stage δ ds => .stage (e.moved δ) (moved es ds)

/-- The linear dynamics with the derivatives of what the regularization charges for
displacements. -/
noncomputable def charged (d : Damping ℝ) : {nus : List ℕ} → Expansions ℝ s nus →
    Displacements ℝ s nus → Expansions ℝ s nus
  | _, .last e, .last dx => .last ⟨e.1, { e.2 with lx := dx.scale d.state }⟩
  | _, .stage e es, .stage δ ds =>
    .stage { e with lx := δ.state.scale d.state, lu := δ.control.scale d.control }
      (charged d es ds)

end Expansions

/-- The controls with their signs changed. -/
noncomputable def Controls.opposite (us : Controls ℝ nus) : Controls ℝ nus :=
  us.map (fun u => -u) fun _ => ()

theorem Controls.normSq_opposite : ∀ {nus : List ℕ} (us : Controls ℝ nus),
    us.opposite.normSq = us.normSq
  | _, .last () => rfl
  | _, .stage u us => by
    have hneg : (-u).get = -u.get := funext u.get_neg
    show (-u).normSq + Controls.normSq (opposite us) = u.normSq + Controls.normSq us
    rw [normSq_opposite us, Vec.normSq_real, Vec.normSq_real, hneg, neg_dotProduct, dotProduct_neg,
      neg_neg]

/-! ## One stage -/

namespace ActionValue

variable (e : Expansion ℝ ndx nu) {next : ValueModel ℝ ndx} (damping : ℝ)
  (δ : Displacement ℝ ndx nu)

/-- The gradient of the action value in the control, at a displacement: that of the stage's cost
there and of the charge, and that of the value function where the dynamics lead. -/
theorem gradient_control (hnext : next.hessian.IsSymmetric) {q : ActionValue ℝ ndx nu}
    (hq : q = ofExpansion e next damping) :
    q.qu + q.quu * δ.control + q.qxu.transpose * δ.state =
      (e.moved δ).lu + δ.control.scale damping +
        e.fu.transpose * (next.gradient + next.hessian * (e.fx * δ.state + e.fu * δ.control)) := by
  have hsymm : next.hessian.toMatrixᵀ = next.hessian.toMatrix := hnext
  subst hq
  refine Vec.ext fun i => congrFun (?_ : Vec.get _ = Vec.get _) i
  unfold ofExpansion Expansion.moved
  simp only [Vec.toFun_add, Vec.toFun_scale, Mat.get_mulVec_real, Mat.toMatrix_add,
    Mat.toMatrix_mul, Mat.toMatrix_transpose, Mat.toMatrix_addDiagonal, transpose_add,
    transpose_mul, transpose_transpose, hsymm, add_mulVec, mulVec_add, ← mulVec_mulVec, smul_mulVec,
    one_mulVec]
  abel

/-- The gradient of the action value in the state, likewise. -/
theorem gradient_state {q : ActionValue ℝ ndx nu} (hq : q = ofExpansion e next damping) :
    q.qx + q.qxx * δ.state + q.qxu * δ.control =
      (e.moved δ).lx +
        e.fx.transpose * (next.gradient + next.hessian * (e.fx * δ.state + e.fu * δ.control)) := by
  subst hq
  refine Vec.ext fun i => congrFun (?_ : Vec.get _ = Vec.get _) i
  unfold ofExpansion Expansion.moved
  simp only [Vec.toFun_add, Mat.get_mulVec_real, Mat.toMatrix_add, Mat.toMatrix_mul,
    Mat.toMatrix_transpose, add_mulVec, mulVec_add, ← mulVec_mulVec]
  abel

end ActionValue

namespace StagePolicy.Solves

variable {p : StagePolicy ℝ ndx nu} {d : Damping ℝ} {e : Expansion ℝ ndx nu} {f : Vec ℝ ndx}
  {next : ValueModel ℝ ndx} {δ : Displacement ℝ ndx nu}

/-- **Where the policy leads, the gradient of the action value in the control vanishes.** -/
theorem gradient_control_eq_zero {feasible : Bool} {gap : Vec ℝ ndx}
    (h : p.Solves d feasible e gap next) (he : e.luu.IsSymmetric) (hnext : next.hessian.IsSymmetric)
    (hfollows : δ.control = -p.gains.feedforward.scale 1 - p.gains.feedback * δ.state) :
    p.q.qu + p.q.quu * δ.control + p.q.qxu.transpose * δ.state = 0 := by
  have hk : p.q.quu.toMatrix *ᵥ p.gains.feedforward.get = p.q.qu.get := by
    rw [← Mat.get_mulVec_real, (h.feedforward he hnext).1]
  have hK : p.q.quu.toMatrix *ᵥ p.gains.feedback.toMatrix *ᵥ δ.state.get =
      p.q.qxu.toMatrixᵀ *ᵥ δ.state.get := by
    rw [mulVec_mulVec, ← Mat.toMatrix_mul, h.feedback he hnext, Mat.toMatrix_transpose]
  have hneg : (-p.gains.feedforward).get = -p.gains.feedforward.get :=
    funext p.gains.feedforward.get_neg
  refine Vec.ext fun i => congrFun (?_ : Vec.get _ = Vec.get _) i
  rw [hfollows]
  simp only [Vec.toFun_add, Vec.toFun_sub, Vec.scale_one, hneg, Mat.get_mulVec_real,
    Mat.toMatrix_transpose, mulVec_sub, mulVec_neg, hk, hK, Vec.toFun_zero]
  abel

/-- What the feedback leaves of the form of a symmetric action value is symmetric. -/
theorem isSymmetric_left {feasible : Bool} {gap : Vec ℝ ndx} (h : p.Solves d feasible e gap next)
    (he : e.IsSymmetric) (hnext : next.hessian.IsSymmetric) :
    (p.q.qxx - p.q.qxu * p.gains.feedback).IsSymmetric := by
  have hquu := h.isSymmetric_quu he.luu hnext
  have hK := congrArg Mat.toMatrix (h.feedback he.luu hnext)
  rw [Mat.toMatrix_mul, Mat.toMatrix_transpose] at hK
  have hqxx : p.q.qxx.toMatrixᵀ = p.q.qxx.toMatrix := by
    have hlxx : e.lxx.toMatrixᵀ = e.lxx.toMatrix := he.lxx
    have hhessian : next.hessian.toMatrixᵀ = next.hessian.toMatrix := hnext
    rw [h.q]
    unfold ActionValue.ofExpansion
    simp only [Mat.toMatrix_add, Mat.toMatrix_mul, Mat.toMatrix_transpose, transpose_add,
      transpose_mul, transpose_transpose, hlxx, hhessian, Matrix.mul_assoc]
  -- `Qxu K` is `Kᵀ Quu K`
  have hqxu : p.q.qxu.toMatrix = p.gains.feedback.toMatrixᵀ * p.q.quu.toMatrix := by
    rw [← transpose_transpose p.q.qxu.toMatrix, ← hK, transpose_mul, hquu]
  show (p.q.qxx - p.q.qxu * p.gains.feedback).toMatrixᵀ = _
  rw [Mat.toMatrix_sub, Mat.toMatrix_mul, transpose_sub, hqxx, hqxu, transpose_mul, transpose_mul,
    transpose_transpose, hquu, Matrix.mul_assoc]

/-- **Where the policy leads, the gradient of the action value in the state is that of the value
function**, what the regularization charges for the state included. -/
theorem gradient_state_eq (h : p.Solves d false e f next) (he : e.IsSymmetric)
    (hnext : next.hessian.IsSymmetric) {predicted : Vec ℝ ndx}
    (hstate : δ.state = predicted + f.scale 1)
    (hfollows : δ.control = -p.gains.feedforward.scale 1 - p.gains.feedback * δ.state) :
    p.q.qx + p.q.qxx * δ.state + p.q.qxu * δ.control + δ.state.scale d.state =
      p.value.gradient + p.value.hessian * predicted := by
  have hquu : p.q.quu.toMatrixᵀ = p.q.quu.toMatrix := h.isSymmetric_quu he.luu hnext
  have hleft := (h.isSymmetric_left he hnext).symmetrized
  have hK := congrArg Mat.toMatrix (h.feedback he.luu hnext)
  rw [Mat.toMatrix_mul, Mat.toMatrix_transpose] at hK
  -- both are what the feedback and the feedforward have in common
  have hcross : p.q.qxu.toMatrix *ᵥ p.gains.feedforward.get =
      p.gains.feedback.toMatrixᵀ *ᵥ p.q.qu.get := by
    rw [← (h.feedforward he.luu hnext).1, Mat.get_mulVec_real, mulVec_mulVec,
      ← transpose_transpose p.q.qxu.toMatrix, ← hK, transpose_mul, hquu]
  have hneg : (-p.gains.feedforward).get = -p.gains.feedforward.get :=
    funext p.gains.feedforward.get_neg
  refine Vec.ext fun i => congrFun (?_ : Vec.get _ = Vec.get _) i
  rw [h.value, hfollows, hstate]
  unfold ActionValue.value ValueModel.across effectiveGap
  simp only [Vec.toFun_add, Vec.toFun_sub, Vec.toFun_scale, Vec.scale_one, hneg,
    Mat.get_mulVec_real, Mat.toMatrix_addDiagonal, hleft, Mat.toMatrix_sub, Mat.toMatrix_mul,
    Mat.toMatrix_transpose, Bool.false_eq_true, if_false, mulVec_sub, mulVec_neg, sub_mulVec,
    add_mulVec, mulVec_add, ← mulVec_mulVec, smul_mulVec, one_mulVec, smul_add, hcross]
  abel

end StagePolicy.Solves

/-! ## All stages -/

/-- **What a full step leaves is the opposite of what it is charged.** The gradients of the quadratic
model at the displaced path are the opposite of those of the charge for the displacements. Costates
of the two add up to the gradient of the value function, at what is predicted for the first state:
that is what is carried from stage to stage. -/
theorem Policy.Solves.gradients_moved {d : Damping ℝ} : ∀ {nus : List ℕ} {ps : Policy ℝ s.ndx nus}
    {es : Expansions ℝ s nus} {fs : Gaps ℝ s nus} {ds : Displacements ℝ s nus}
    {predicted : Vec ℝ s.ndx}, Policy.Solves d false ps es fs → Expansions.IsSymmetric es →
    ds.Obeys 1 predicted es fs → ds.Follows 1 ps →
    (es.moved ds).gradients = (es.charged d ds).gradients.opposite ∧
      (es.moved ds).costate + (es.charged d ds).costate =
        (Policy.head ps).gradient + (Policy.head ps).hessian * predicted
  | _, .last v, .last e, .last f, .last dx, predicted, h, _, hobeys, _ => by
    refine ⟨rfl, ?_⟩
    have hdx : dx = predicted + f := (Vec.scale_one f ▸ hobeys : dx = predicted + f)
    show e.2.lx + e.2.lxx * dx + dx.scale d.state = v.gradient + v.hessian * predicted
    refine Vec.ext fun i => congrFun (?_ : Vec.get _ = Vec.get _) i
    rw [h.value, hdx]
    unfold ValueModel.across effectiveGap
    simp only [Vec.toFun_add, Vec.toFun_scale, Mat.get_mulVec_real, Mat.toMatrix_addDiagonal,
      Bool.false_eq_true, if_false, add_mulVec, mulVec_add, smul_mulVec, one_mulVec, smul_add]
    abel
  | _, .stage p ps, .stage e es, .stage f fs, .stage δ ds, predicted, h, hsymm, hobeys, hfollows => by
    have hnext := Policy.Solves.isSymmetric_head h.2 hsymm.2
    obtain ⟨hgradients, hcostate⟩ := gradients_moved h.2 hsymm.2 hobeys.2 hfollows.2
    let moved := Expansions.costate (Expansions.moved es ds)
    let charged := Expansions.costate (Expansions.charged d es ds)
    have hcontrol := ActionValue.gradient_control e d.control δ hnext h.1.q
    rw [h.1.gradient_control_eq_zero hsymm.1.luu hnext hfollows.1, ← hcostate] at hcontrol
    have hvalue := h.1.gradient_state_eq hsymm.1 hnext hobeys.1 hfollows.1
    rw [ActionValue.gradient_state e d.control δ h.1.q, ← hcostate] at hvalue
    constructor
    · show Horizon.stage ((e.moved δ).lu + e.fu.transpose * moved)
          (Expansions.gradients (Expansions.moved es ds)) =
        Horizon.stage (-(δ.control.scale d.control + e.fu.transpose * charged))
          (Controls.opposite (Expansions.gradients (Expansions.charged d es ds)))
      rw [hgradients]
      refine congrArg (Horizon.stage · _) (Vec.ext fun i => ?_)
      have hi := congrArg (fun v => v.get i) hcontrol
      simp only [Mat.mul_add, Vec.get_add, Vec.get_neg, Vec.get_zero] at hi ⊢
      linarith
    · show (e.moved δ).lx + e.fx.transpose * moved +
          (δ.state.scale d.state + e.fx.transpose * charged) =
        p.value.gradient + p.value.hessian * predicted
      rw [← hvalue, Mat.mul_add]
      ext i
      simp only [Vec.get_add]
      ring

/-! ## What later passes see -/

/-- The same linear dynamics and the same second derivatives. -/
structure Expansion.IsAlike (e e' : Expansion ℝ ndx nu) : Prop where
  fx : e.fx = e'.fx
  fu : e.fu = e'.fu
  lxx : e.lxx = e'.lxx
  lxu : e.lxu = e'.lxu
  luu : e.luu = e'.luu

/-- All expansions are alike. -/
def Expansions.IsAlike : {nus : List ℕ} → Expansions ℝ s nus → Expansions ℝ s nus → Prop
  | _, .last e, .last e' => e.2.lxx = e'.2.lxx
  | _, .stage e es, .stage e' es' => e.IsAlike e' ∧ IsAlike es es'

/-- Gains come from one factor, which second derivatives decide about. -/
theorem StagePolicy.Solves.feedback_eq {p p' : StagePolicy ℝ ndx nu} {d : Damping ℝ}
    {feasible feasible' : Bool} {e e' : Expansion ℝ ndx nu} {f f' : Vec ℝ ndx}
    {next next' : ValueModel ℝ ndx} (h : p.Solves d feasible e f next)
    (h' : p'.Solves d feasible' e' f' next') (he : e.IsAlike e')
    (hnext : next.hessian = next'.hessian) :
    p.gains.feedback = p'.gains.feedback ∧ p.value.hessian = p'.value.hessian := by
  obtain ⟨hquu, hqxu, hqxx⟩ :
      p.q.quu = p'.q.quu ∧ p.q.qxu = p'.q.qxu ∧ p.q.qxx = p'.q.qxx := by
    rw [h.q, h'.q]
    unfold ActionValue.ofExpansion
    dsimp only
    rw [he.fx, he.fu, he.lxx, he.lxu, he.luu, hnext]
    exact ⟨rfl, rfl, rfl⟩
  have hfeedback : p.gains.feedback = p'.gains.feedback := by
    obtain ⟨l, hl, hgains⟩ := ActionValue.cholesky_of_gains? h.gains
    obtain ⟨l', hl', hgains'⟩ := ActionValue.cholesky_of_gains? h'.gains
    rw [hquu, hl'] at hl
    rw [hgains, hgains', hqxu, Except.ok.inj hl]
  refine ⟨hfeedback, ?_⟩
  rw [h.hessian_value, h'.hessian_value, hqxx, hqxu, hfeedback]

/-- **Passes that are regularized alike see gradients alike**, along whatever paths: their feedback
comes from second derivatives, gaps or no gaps. -/
theorem Policy.Solves.seen_eq {d : Damping ℝ} {feasible feasible' : Bool} : ∀ {nus : List ℕ}
    {ps ps' : Policy ℝ s.ndx nus} {es es' : Expansions ℝ s nus} {fs fs' : Gaps ℝ s nus},
    Policy.Solves d feasible ps es fs → Policy.Solves d feasible' ps' es' fs' →
    Expansions.IsAlike es es' →
    (Policy.head ps).hessian = (Policy.head ps').hessian ∧
      ∀ gs, Policy.seen ps es gs = Policy.seen ps' es' gs
  | _, .last v, .last v', .last e, .last e', .last _, .last _, h, h', halike => by
    refine ⟨?_, ?_⟩
    · show v.hessian = v'.hessian
      rw [h.value, h'.value, ValueModel.hessian_across, ValueModel.hessian_across,
        show e.2.lxx = e'.2.lxx from halike]
    · rintro ⟨⟩
      rfl
  | _, .stage p ps, .stage p' ps', .stage e es, .stage e' es', .stage _ _, .stage _ _, h, h',
      halike => by
    obtain ⟨hhessian, hrest⟩ := seen_eq h.2 h'.2 halike.2
    obtain ⟨hfeedback, hvalue⟩ := h.1.feedback_eq h'.1 halike.1 hhessian
    refine ⟨hvalue, ?_⟩
    rintro (_ | ⟨g, gs⟩)
    rw [Policy.seen_stage, Policy.seen_stage, hrest gs, halike.1.fx, halike.1.fu, hfeedback]

/-! ## Linear-quadratic problems -/

namespace Lqr

/-- **The model of a stage at a displacement is the stage there.** -/
theorem expand_add (p : Lqr ℝ nx nu) (x : Vec ℝ nx) (u : Vec ℝ nu) (δ : Displacement ℝ nx nu) :
    p.expand (x + δ.state) (some (u + δ.control)) = (p.expand x (some u)).moved δ := by
  have hlx : p.lxx * (x + δ.state) + p.lxu * (u + δ.control) + p.lx =
      p.lxx * x + p.lxu * u + p.lx + p.lxx * δ.state + p.lxu * δ.control := by
    rw [Mat.mul_add, Mat.mul_add]
    ext i
    simp only [Vec.get_add]
    ring
  have hlu : p.luu * (u + δ.control) + p.lxu.transpose * (x + δ.state) + p.lu =
      p.luu * u + p.lxu.transpose * x + p.lu + p.luu * δ.control +
        p.lxu.transpose * δ.state := by
    rw [Mat.mul_add, Mat.mul_add]
    ext i
    simp only [Vec.get_add]
    ring
  simp only [expand, Expansion.moved, hlx, hlu]

/-- So it is at the end. -/
theorem expand_add_none (p : Lqr ℝ nx nu) (x dx : Vec ℝ nx) :
    p.expand (x + dx) none = (p.expand x none).finalMoved dx := by
  have hlx : p.lxx * (x + dx) + p.lx = p.lxx * x + p.lx + p.lxx * dx := by
    rw [Mat.mul_add]
    ext i
    simp only [Vec.get_add]
    ring
  simp only [expand, Expansion.finalMoved, hlx]

end Lqr

/-- **The model at a displaced path is the problem there.** -/
theorem Lqrs.expansions_moved : ∀ {nus : List ℕ} (ms : Lqrs nx nus)
    (path path' : Path ℝ (.euclidean nx) nus),
    (Lqrs.models ms).expansions path' =
      Expansions.moved ((Lqrs.models ms).expansions path) (path.displacementsTo path')
  | _, .last m, .last x, .last x' => by
    have hmoved := m.2.expand_add_none x (x' - x)
    rw [x.add_sub_self] at hmoved
    exact congrArg (fun e => (.last ⟨m.1, e⟩ : Expansions ℝ (.euclidean nx) [])) hmoved
  | _, .stage m ms, .stage k ks, .stage k' ks' => by
    have hmoved := m.expand_add k.state k.control ⟨k'.state - k.state, k'.control - k.control⟩
    dsimp only at hmoved
    rw [Vec.add_sub_self, Vec.add_sub_self] at hmoved
    have hrest := expansions_moved ms ks ks'
    show Horizon.stage (m.expand k'.state (some k'.control)) ((Lqrs.models ms).expansions ks') = _
    rw [hmoved, hrest]
    rfl

theorem Lqr.isAlike_expand (p : Lqr ℝ nx nu) (x x' : Vec ℝ nx) (u u' : Vec ℝ nu) :
    (p.expand x (some u)).IsAlike (p.expand x' (some u')) :=
  ⟨rfl, rfl, rfl, rfl, rfl⟩

/-- **The stages are alike everywhere**, up to first derivatives of their costs. -/
theorem Lqrs.isAlike_expansions (ms : Lqrs nx nus) (path path' : Path ℝ (.euclidean nx) nus) :
    Expansions.IsAlike (ms.models.expansions path) (ms.models.expansions path') := by
  induction ms with
  | last m =>
    cases path with | last x =>
    cases path' with | last x' =>
    exact (rfl : m.2.lxx = m.2.lxx)
  | stage m ms ih =>
    cases path with | stage k ks =>
    cases path' with | stage k' ks' =>
    exact ⟨m.isAlike_expand k.state k'.state k.control k'.control, ih ks ks'⟩

end Shooting
