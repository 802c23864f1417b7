import Shooting.Proofs.Exact.Quadratic
import Shooting.Proofs.Exact.Stationary

/-!
# Costates

Along a path, where the states are what the linear dynamics make of the controls, the total cost has
a gradient in every control. It is found by going backwards once: the costate of a stage is the
gradient, in the state there, of the cost still to come (`Expansions.costate`), and a control
matters for the cost at its own stage and for the state after it (`Expansions.gradients`). To first
order, displacements that obey the linear dynamics change the cost by the inner product of their
controls with those gradients (`Displacements.slope_eq`).

A backward pass does not find these gradients. Its value gradients are what the policies of the
later stages leave of the costates, and they depend on the regularization. But it finds a stationary
path where there is one: going backwards, the first control gradient that is not zero is the same
for both (`Policy.Solves.isStationary_iff`). So the figures that a solve stops for vanish exactly
where the path is stationary, whatever the regularization (`backward_finds_stationarity`).
-/

namespace Shooting

open Matrix

variable {s : StateSpace} {ndx nu : ℕ} {nus : List ℕ}

/-! ## The gradient of the total cost -/

/-- For each stage and for the end, a gradient in the state there. -/
abbrev Costates (s : StateSpace) (nus : List ℕ) : Type :=
  Horizon (fun _ => Vec ℝ s.ndx) (Vec ℝ s.ndx) nus

namespace Expansions

/-- The gradient of the cost from a stage on, in the state there. -/
noncomputable def costate : {nus : List ℕ} → Expansions ℝ s nus → Vec ℝ s.ndx
  | _, .last e => e.2.lx
  | _, .stage e es => e.lx + e.fx.transpose * costate es

/-- The costates of all stages. -/
noncomputable def costates : {nus : List ℕ} → Expansions ℝ s nus → Costates s nus
  | _, .last e => .last e.2.lx
  | _, .stage e es => .stage (e.lx + e.fx.transpose * costate es) (costates es)

/-- The gradient of the total cost in every control. -/
noncomputable def gradients : {nus : List ℕ} → Expansions ℝ s nus → Controls ℝ nus
  | _, .last _ => .last ()
  | _, .stage e es => .stage (e.lu + e.fu.transpose * costate es) (gradients es)

end Expansions

/-- No control at all. -/
noncomputable def Controls.rest (nus : List ℕ) : Controls ℝ nus := .replicate (fun _ => 0) () nus

namespace Displacements

/-- The first-order change of the cost. -/
noncomputable def slope : {nus : List ℕ} → Displacements ℝ s nus → Expansions ℝ s nus → ℝ
  | _, .last dx, .last e => e.2.lx.dot dx
  | _, .stage δ ds, .stage e es => e.lx.dot δ.state + e.lu.dot δ.control + slope ds es

/-- The inner product of the displacements of the controls with a vector for each of them. -/
noncomputable def along : {nus : List ℕ} → Displacements ℝ s nus → Controls ℝ nus → ℝ
  | _, .last _, .last _ => 0
  | _, .stage δ ds, .stage g gs => g.dot δ.control + along ds gs

/-- **The gradients are gradients.** Displacements that obey the linear dynamics and leave the gaps
as they are change the cost, to first order, by their controls' part of the gradients and by what
the first state does. -/
theorem slope_eq : ∀ {nus : List ℕ} {es : Expansions ℝ s nus} {ds : Displacements ℝ s nus}
    {predicted : Vec ℝ s.ndx}, ds.Obeys 1 predicted es (.replicate (fun _ => 0) 0 nus) →
    ds.slope es = es.costate.dot predicted + ds.along es.gradients
  | _, .last e, .last dx, predicted, hobeys => by
    obtain rfl : dx = predicted := by
      rw [show dx = predicted + (0 : Vec ℝ s.ndx).scale 1 from hobeys, Vec.zero_scale, Vec.add_zero]
    show e.2.lx.dot dx = e.2.lx.dot dx + 0
    rw [add_zero]
  | _, .stage e es, .stage δ ds, predicted, hobeys => by
    obtain rfl : δ.state = predicted := by
      rw [show δ.state = predicted + (0 : Vec ℝ s.ndx).scale 1 from hobeys.1, Vec.zero_scale,
        Vec.add_zero]
    have hrest := slope_eq hobeys.2
    show e.lx.dot δ.state + e.lu.dot δ.control + slope ds es =
      (e.lx + e.fx.transpose * Expansions.costate es).dot δ.state +
        ((e.lu + e.fu.transpose * Expansions.costate es).dot δ.control +
          along ds (Expansions.gradients es))
    rw [hrest]
    simp only [Vec.dot_real, Vec.toFun_add, Mat.get_mulVec_real, Mat.toMatrix_transpose,
      add_dotProduct, dotProduct_add, Mat.transpose_mulVec_dotProduct]
    ring

end Displacements

/-! ## What a backward pass finds -/

namespace Policy

/-- The feedforward of every stage. -/
def feedforwards (ps : Policy ℝ s.ndx nus) : Controls ℝ nus :=
  ps.map (fun p => p.gains.feedforward) fun _ => ()

/-- The gradients of all value functions. -/
def valueGradients (ps : Policy ℝ s.ndx nus) : Costates s nus :=
  ps.map (fun p => p.value.gradient) fun v => v.gradient

/-- The control gradients of the model at every stage. -/
def controlGradients (ps : Policy ℝ s.ndx nus) : Controls ℝ nus :=
  ps.map (fun p => p.q.qu) fun _ => ()

/-- Control gradients as a pass sees them that has the feedback of this policy: going backwards, a
stage answers its own by feedback, which changes those of the stages before it. The second part is
the change of the costate. -/
noncomputable def seen : {nus : List ℕ} → Policy ℝ s.ndx nus → Expansions ℝ s nus →
    Controls ℝ nus → Controls ℝ nus × Vec ℝ s.ndx
  | _, .last _, .last _, .last () => (.last (), 0)
  | _, .stage p ps, .stage e es, .stage g gs =>
    let after := seen ps es gs
    let q := g + e.fu.transpose * after.2
    (.stage q after.1, e.fx.transpose * after.2 - p.gains.feedback.transpose * q)

theorem seen_stage (p : StagePolicy ℝ s.ndx nu) (ps : Policy ℝ s.ndx nus) (e : Expansion ℝ s.ndx nu)
    (es : Expansions ℝ s nus) (g : Vec ℝ nu) (gs : Controls ℝ nus) :
    seen (.stage p ps) (.stage e es) (.stage g gs) =
      let after := seen ps es gs
      let q := g + e.fu.transpose * after.2
      (.stage q after.1, e.fx.transpose * after.2 - p.gains.feedback.transpose * q) := rfl

/-- **What a pass along a feasible path finds are the gradients as it sees them**, and its value
gradients are the costates so changed. -/
theorem Solves.controlGradients_eq {d : Damping ℝ} : ∀ {nus : List ℕ} {ps : Policy ℝ s.ndx nus}
    {es : Expansions ℝ s nus} {fs : Gaps ℝ s nus}, Policy.Solves d true ps es fs →
    ps.controlGradients = (ps.seen es es.gradients).1 ∧
      ps.head.gradient = es.costate + (ps.seen es es.gradients).2
  | _, .last v, .last e, .last _, h => by
    refine ⟨rfl, ?_⟩
    show v.gradient = e.2.lx + 0
    rw [h.value, Vec.add_zero]
    rfl
  | _, .stage p ps, .stage e es, .stage _ _, h => by
    obtain ⟨hrest, hnext⟩ := controlGradients_eq h.2
    let change := (seen ps es (Expansions.gradients es)).2
    have hqu : p.q.qu =
        e.lu + e.fu.transpose * Expansions.costate es + e.fu.transpose * change := by
      rw [h.1.q]
      show e.lu + e.fu.transpose * (Policy.head ps).gradient = _
      rw [hnext, Mat.mul_add]
      ext i
      simp only [Vec.get_add]
      ring
    refine ⟨congrArg₂ Horizon.stage hqu hrest, ?_⟩
    show p.value.gradient = e.lx + e.fx.transpose * Expansions.costate es +
      (e.fx.transpose * change - p.gains.feedback.transpose * (e.lu +
        e.fu.transpose * Expansions.costate es + e.fu.transpose * change))
    rw [← hqu, h.1.value]
    show p.q.qx - p.gains.feedback.transpose * p.q.qu = _
    have hqx : p.q.qx = e.lx + e.fx.transpose * (Policy.head ps).gradient := by rw [h.1.q]; rfl
    rw [hqx, hnext, Mat.mul_add]
    ext i
    simp only [Vec.get_add, Vec.get_sub]
    ring

/-- **A pass finds the path stationary where the gradients vanish**, and the costate is then the
value gradient. -/
theorem Solves.isStationary_iff {d : Damping ℝ} : ∀ {nus : List ℕ} {ps : Policy ℝ s.ndx nus}
    {es : Expansions ℝ s nus} {fs : Gaps ℝ s nus}, Policy.Solves d true ps es fs →
    (ps.IsStationary ↔ es.gradients = Controls.rest nus) ∧
      (ps.IsStationary → ps.valueGradients = es.costates ∧ ps.head.gradient = es.costate)
  | _, .last v, .last e, .last _, h => by
    have hgradient : v.gradient = e.2.lx := by
      rw [h.value]
      rfl
    exact ⟨iff_of_true trivial rfl, fun _ => ⟨congrArg Horizon.last hgradient, hgradient⟩⟩
  | _, .stage p ps, .stage e es, .stage _ _, h => by
    obtain ⟨hstationary, hcostate⟩ := isStationary_iff h.2
    let gradient := e.lu + e.fu.transpose * Expansions.costate es
    let costate := e.lx + e.fx.transpose * Expansions.costate es
    -- as long as the later controls are stationary, pass and costate agree about this one
    have hqu (hrest : IsStationary ps) : p.q.qu = gradient := by
      rw [h.1.q]
      exact congrArg (fun v => e.lu + e.fu.transpose * v) (hcostate hrest).2
    have hqx (hrest : IsStationary ps) : p.q.qx = costate := by
      rw [h.1.q]
      exact congrArg (fun v => e.lx + e.fx.transpose * v) (hcostate hrest).2
    have hvalue (hzero : p.q.qu = 0) : p.value.gradient = p.q.qx := by
      rw [h.1.value]
      show p.q.qx - p.gains.feedback.transpose * p.q.qu = p.q.qx
      rw [hzero, Mat.mul_zeroVec]
      ext i
      rw [Vec.get_sub, Vec.get_zero, sub_zero]
    refine ⟨?_, ?_⟩
    · show p.q.qu = 0 ∧ IsStationary ps ↔
        Horizon.stage gradient (Expansions.gradients es) = Horizon.stage 0 (Controls.rest _)
      rw [Horizon.stage.injEq, ← hstationary]
      exact and_congr_left fun hrest => by rw [hqu hrest]
    · rintro ⟨hzero, hrest⟩
      have hhead : p.value.gradient = costate := (hvalue hzero).trans (hqx hrest)
      refine ⟨?_, hhead⟩
      show (.stage p.value.gradient (valueGradients ps) : Costates s _) =
        .stage costate (Expansions.costates es)
      rw [hhead, (hcostate hrest).1]

end Policy

namespace StagePolicy.Solves

variable {p : StagePolicy ℝ ndx nu} {d : Damping ℝ} {feasible : Bool} {e : Expansion ℝ ndx nu}
  {gap : Vec ℝ ndx} {next : ValueModel ℝ ndx}

/-- Where the control gradient vanishes, the feedforward does. -/
theorem feedforward_eq_zero (h : p.Solves d feasible e gap next) (hzero : p.q.qu = 0) :
    p.gains.feedforward = 0 := by
  obtain ⟨l, hl, hg⟩ := ActionValue.cholesky_of_gains? h.gains
  have hpivots := (cholesky_real hl).pivots
  have hk : p.gains.feedforward = l.solveVec p.q.qu := congrArg Gains.feedforward hg
  rw [hk, hzero, l.solveVec_zero fun i => (hpivots i).ne']

/-- The feedforward does not point away from the control gradient, and it is orthogonal to it only
where that vanishes: `Quu` need not be symmetric. -/
theorem dot_feedforward (h : p.Solves d feasible e gap next) :
    0 ≤ p.q.qu.dot p.gains.feedforward ∧
      (p.q.qu.dot p.gains.feedforward = 0 ↔ p.q.qu = 0) := by
  obtain ⟨l, hl, hg⟩ := ActionValue.cholesky_of_gains? h.gains
  have hfactor := cholesky_real hl
  have hk : p.gains.feedforward = l.solveVec p.q.qu := congrArg Gains.feedforward hg
  rw [hk]
  exact ⟨hfactor.dot_solveVec_nonneg _,
    l.dot_solveVec_eq_zero_iff fun i => (hfactor.pivots i).ne'⟩

end StagePolicy.Solves

namespace Policy.Solves

variable {d : Damping ℝ} {feasible : Bool}

/-- Along a stationary path the policy leaves the controls. -/
theorem feedforwards_eq : ∀ {nus : List ℕ} {ps : Policy ℝ s.ndx nus} {es : Expansions ℝ s nus}
    {fs : Gaps ℝ s nus}, Policy.Solves d feasible ps es fs → ps.IsStationary →
    ps.feedforwards = Controls.rest nus
  | _, .last _, .last _, .last _, _, _ => rfl
  | _, .stage p ps, .stage _ _, .stage _ _, h, hstationary => by
    show Horizon.stage p.gains.feedforward (feedforwards ps) = Horizon.stage 0 (Controls.rest _)
    rw [h.1.feedforward_eq_zero hstationary.1, feedforwards_eq h.2 hstationary.2]

/-- What the stages add to the first-order part of the expected improvement is not negative, and
zero only along a stationary path. -/
theorem first_foldl : ∀ {nus : List ℕ} {ps : Policy ℝ s.ndx nus} {es : Expansions ℝ s nus}
    {fs : Gaps ℝ s nus}, Policy.Solves d feasible ps es fs → ∀ {i : ExpectedImprovement ℝ},
    0 ≤ i.first → ((ps.foldl ExpectedImprovement.addStage i).first = 0 ↔
      i.first = 0 ∧ ps.IsStationary)
  | _, .last _, .last _, .last _, _, i, _ => (and_iff_left trivial).symm
  | _, .stage p ps, .stage _ _, .stage _ _, h, i, hi => by
    obtain ⟨hdot, hzero⟩ := h.1.dot_feedforward
    show (ps.foldl ExpectedImprovement.addStage (i.addStage p)).first = 0 ↔
      i.first = 0 ∧ p.q.qu = 0 ∧ Policy.IsStationary ps
    rw [first_foldl h.2 (add_nonneg hi hdot), ← and_assoc, ← hzero,
      ← add_eq_zero_iff_of_nonneg hi hdot]
    rfl

/-- **Nothing is expected exactly where the path is stationary.** -/
theorem first_eq_zero_iff {ps : Policy ℝ s.ndx nus} {es : Expansions ℝ s nus} {fs : Gaps ℝ s nus}
    (h : Policy.Solves d true ps es fs) (gaps : Gaps ℝ s nus) :
    (ExpectedImprovement.ofPolicy ps gaps true).first = 0 ↔ ps.IsStationary :=
  (h.first_foldl le_rfl).trans (and_iff_right rfl)

end Policy.Solves

namespace Solver

/-- **The figures that a solve stops for measure stationarity**, whatever the regularization. Where
a backward pass along a feasible path gets through, the sum of the squared control gradients is zero
exactly if the expected improvement is, and exactly if the gradient of the total cost in every
control is. Then the policy leaves all controls, and its value gradients are the costates. -/
theorem backward_finds_stationarity {d : Damping ℝ} {stages : Stages ℝ s nus} {gaps : Gaps ℝ s nus}
    {old policy : Policy ℝ s.ndx nus}
    (hback : backward d true stages gaps old = (policy, none)) :
    let e := ExpectedImprovement.ofPolicy policy gaps true
    let es := stages.storedExpansions
    (e.stop = 0 ↔ e.first = 0) ∧ (e.stop = 0 ↔ es.gradients = Controls.rest nus) ∧
      (es.gradients = Controls.rest nus →
        policy.feedforwards = Controls.rest nus ∧ policy.valueGradients = es.costates) := by
  intro e es
  have hsolves := backward_solves hback
  obtain ⟨hgradients, hcostates⟩ := hsolves.isStationary_iff
  have hstop : e.stop = 0 ↔ policy.IsStationary := ExpectedImprovement.stop_eq_zero_iff
  refine ⟨?_, ?_, ?_⟩
  · rw [hstop, hsolves.first_eq_zero_iff]
  · rw [hstop, hgradients]
  · intro hzero
    have hstationary := hgradients.mpr hzero
    exact ⟨hsolves.feedforwards_eq hstationary, (hcostates hstationary).1⟩

/-- A push that ends where it should, from a path with gaps that do not count. -/
theorem backward_finds_stationarity_push :
    let stages := (Problem.push ℝ).stages.expand
      (.stage ⟨.replicate 1 2, .replicate 1 (-1)⟩ (.last (.replicate 1 1)))
    let gaps : Gaps ℝ (.euclidean 1) [1] := .stage (.replicate 1 3) (.last (.replicate 1 4))
    let old : Policy ℝ 1 [1] := .stage ⟨⟨0, 0, 0, 0, 0⟩, ⟨0, 0⟩, ⟨0, 0⟩⟩ (.last ⟨0, 0⟩)
    stages.storedExpansions.gradients = Controls.rest [1] ∧
      ∃ policy, backward ⟨1, 2⟩ true stages gaps old = (policy, none) ∧
        (ExpectedImprovement.ofPolicy policy gaps true).stop = 0 ∧
        policy.valueGradients = stages.storedExpansions.costates := by
  intro stages gaps old
  have hexpansions : stages.storedExpansions = (Problem.push ℝ).stages.models.expansions
      (.stage ⟨.replicate 1 2, .replicate 1 (-1)⟩ (.last (.replicate 1 1))) :=
    Stages.storedExpansions_expand _ _
  obtain ⟨policy, hsolves⟩ := Problem.exists_solves_push (d := ⟨1, 2⟩) zero_le_one zero_le_two true
    (.stage ⟨.replicate 1 2, .replicate 1 (-1)⟩ (.last (.replicate 1 1))) gaps
  have hstationary : policy.IsStationary := by
    cases policy with | stage p ps =>
    cases ps with | last v =>
    have hqu := Models.gradient_line hsolves
    refine ⟨?_, trivial⟩
    ext i
    rw [Fin.fin_one_eq_zero i, hqu]
    simp
  rw [← hexpansions] at hsolves
  have hzero := hsolves.isStationary_iff.1.mp hstationary
  have hback := backward_of_solves old hsolves
  obtain ⟨-, hstop, hcostates⟩ := backward_finds_stationarity hback
  exact ⟨hzero, policy, hback, hstop.mpr hzero, (hcostates hzero).2⟩

end Solver

end Shooting
