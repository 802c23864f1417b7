import Shooting.Proofs.Exact.Quadratic
import Shooting.Proofs.Exact.StateSpace
import Mathlib.Analysis.Calculus.FDeriv.Add
import Mathlib.Analysis.Calculus.FDeriv.CompCLM
import Mathlib.Analysis.Calculus.FDeriv.Pi
import Mathlib.Analysis.SpecialFunctions.Trigonometric.Deriv
import Mathlib.LinearAlgebra.Matrix.SesquilinearForm
import Mathlib.Topology.Algebra.Module.FiniteDimensionBilinear

/-!
# Derivatives of the nonlinear models

Next state and cost of a stage are functions of a displacement in the tangent space of the state and
in the control. What a unicycle and a pendulum give as derivatives of a stage are the derivatives of
these functions, if nothing is rounded (`Model.analytic_derivatives_exact`).

Around a point, either cost is the quadratic function that its derivatives describe; that of a
pendulum is as long as the angle to the goal does not jump, which it does half a turn away from the
goal. So gradients and Hessians come from one lemma (`Model.expandsTruly_of_change`).

The dynamics are differentiated row by row. A pendulum moves along a tangent vector, and tangent
vectors add up on the circle (`StateSpace.integrate_add`). Hence it is the sum of a displacement and
of that vector that has to be differentiated (`Pendulum.nextAround_eq`).
-/

namespace Shooting

open Matrix Filter
open scoped Topology

variable {s : StateSpace} {ndx nu : ℕ}

/-! ## Coordinates -/

/-- The coordinates of a displacement, in which calculus is done. -/
abbrev Coordinates (ndx nu : ℕ) : Type := (Fin ndx → ℝ) × (Fin nu → ℝ)

namespace Coordinates

/-- The displacement with the given coordinates. -/
def displacement (z : Coordinates ndx nu) : Displacement ℝ ndx nu := ⟨.ofFn z.1, .ofFn z.2⟩

/-- A coordinate of the state. -/
noncomputable def state (i : Fin ndx) : Coordinates ndx nu →L[ℝ] ℝ :=
  (ContinuousLinearMap.proj i).comp (.fst ℝ (Fin ndx → ℝ) (Fin nu → ℝ))

/-- A coordinate of the control. -/
noncomputable def control (j : Fin nu) : Coordinates ndx nu →L[ℝ] ℝ :=
  (ContinuousLinearMap.proj j).comp (.snd ℝ (Fin ndx → ℝ) (Fin nu → ℝ))

theorem hasFDerivAt_state (z : Coordinates ndx nu) (i : Fin ndx) :
    HasFDerivAt (fun z : Coordinates ndx nu => z.1 i) (state i) z :=
  (state i).hasFDerivAt

theorem hasFDerivAt_control (z : Coordinates ndx nu) (j : Fin nu) :
    HasFDerivAt (fun z : Coordinates ndx nu => z.2 j) (control j) z :=
  (control j).hasFDerivAt

end Coordinates

/-! ## Expansions as linear maps -/

namespace Expansion

variable (e : Expansion ℝ ndx nu)

/-- The first-order change of the next state. -/
noncomputable def nextMap : Coordinates ndx nu →L[ℝ] (Fin ndx → ℝ) :=
  (e.fx.toMatrix.mulVecLin.coprod e.fu.toMatrix.mulVecLin).toContinuousLinearMap

/-- The first-order change of the cost. -/
noncomputable def slopeMap : Coordinates ndx nu →L[ℝ] ℝ :=
  ((dotProductBilin ℝ ℝ e.lx.get).coprod (dotProductBilin ℝ ℝ e.lu.get)).toContinuousLinearMap

/-- The second derivative of the cost. -/
noncomputable def curvatureMap : Coordinates ndx nu →L[ℝ] Coordinates ndx nu →L[ℝ] ℝ :=
  let x : Coordinates ndx nu →ₗ[ℝ] (Fin ndx → ℝ) := .fst ℝ _ _
  let u : Coordinates ndx nu →ₗ[ℝ] (Fin nu → ℝ) := .snd ℝ _ _
  let cross := (toLinearMap₂' ℝ e.lxu.toMatrix).compl₁₂ x u
  ((toLinearMap₂' ℝ e.lxx.toMatrix).compl₁₂ x x + cross + cross.flip +
    (toLinearMap₂' ℝ e.luu.toMatrix).compl₁₂ u u).toContinuousBilinearMap

theorem nextMap_apply (z : Coordinates ndx nu) (i : Fin ndx) :
    e.nextMap z i = ∑ j, e.fx.get i j * z.1 j + ∑ j, e.fu.get i j * z.2 j := rfl

theorem slopeMap_apply (z : Coordinates ndx nu) :
    e.slopeMap z = e.lx.dot z.displacement.state + e.lu.dot z.displacement.control := by
  rw [Vec.dot_real, Vec.dot_real]
  simp only [Coordinates.displacement, Vec.toFun_ofFn]
  rfl

theorem curvatureMap_apply (z w : Coordinates ndx nu) :
    e.curvatureMap z w = e.mixed z.displacement w.displacement := by
  unfold curvatureMap mixed Coordinates.displacement
  simp only [Vec.dot_real, Mat.get_mulVec_real, Vec.toFun_ofFn,
    LinearMap.toContinuousBilinearMap_apply, LinearMap.add_apply, LinearMap.compl₁₂_apply,
    LinearMap.flip_apply, toLinearMap₂'_apply', LinearMap.fst_apply, LinearMap.snd_apply]

variable {e}

/-- Without mixed derivatives, state and control change the cost each by itself. -/
theorem change_of_uncrossed (h : e.lxu = 0) (δ : Displacement ℝ ndx nu) :
    e.change δ = e.finalChange δ.state +
      (e.lu.dot δ.control + δ.control.dot (e.luu * δ.control) / 2) := by
  unfold change finalChange
  rw [h, Mat.zeroMat_mul, Vec.dot_zero]
  ring

theorem mixed_comm (h : e.IsSymmetric) (δ δ' : Displacement ℝ ndx nu) :
    e.mixed δ δ' = e.mixed δ' δ := by
  have hxx := h.lxx.form_comm δ.state.get δ'.state.get
  have huu := h.luu.form_comm δ.control.get δ'.control.get
  unfold mixed
  simp only [Vec.dot_real, Mat.get_mulVec_real, hxx, huu]
  ring

/-- The change of the cost as calculus sees it. -/
theorem change_eq_maps (e : Expansion ℝ ndx nu) (z : Coordinates ndx nu) :
    e.change z.displacement = e.slopeMap z + 1 / 2 * e.curvatureMap z z := by
  rw [slopeMap_apply, curvatureMap_apply]
  unfold change mixed
  ring

theorem hasFDerivAt_change (h : e.IsSymmetric) (z : Coordinates ndx nu) :
    HasFDerivAt (fun z : Coordinates ndx nu => e.change z.displacement)
      (e.slopeMap + e.curvatureMap z) z := by
  have hform := (e.curvatureMap.hasFDerivAt.clm_apply (hasFDerivAt_id z)).const_mul (1 / 2 : ℝ)
  have hsum := (e.slopeMap.hasFDerivAt (x := z)).add hform
  simp only [change_eq_maps]
  refine hsum.congr_fderiv (ContinuousLinearMap.ext fun w => ?_)
  have hcomm : e.curvatureMap w z = e.curvatureMap z w := by
    rw [curvatureMap_apply, curvatureMap_apply, mixed_comm h]
  have hhalves : e.slopeMap w + 1 / 2 * (e.curvatureMap z w + e.curvatureMap w z) =
      e.slopeMap w + e.curvatureMap z w := by
    rw [hcomm]
    ring
  exact hhalves

end Expansion

/-! ## Derivatives of a stage -/

namespace Model

variable (m : Model ℝ s nu) (x : Vec ℝ s.nx) (u : Option (Vec ℝ nu))

/-- The stage at arguments displaced from a state and a control. -/
noncomputable def displaced (z : Coordinates s.ndx nu) : Evaluation ℝ s.nx :=
  m.evaluate (s.integrate x z.displacement.state) (u.map (· + z.displacement.control))

/-- The tangent vector from the next state to that of displaced arguments. -/
noncomputable def nextAround (z : Coordinates s.ndx nu) : Fin s.ndx → ℝ :=
  (s.diff (m.evaluate x u).next (m.displaced x u z).next).get

/-- The cost of displaced arguments. -/
noncomputable def costAround (z : Coordinates s.ndx nu) : ℝ := (m.displaced x u z).cost

/-- What the model gives as derivatives of a stage are its derivatives: those of the next state, the
gradient of the cost, and the Hessian, which is there because the cost is differentiable nearby. -/
structure ExpandsTruly : Prop where
  next : HasFDerivAt (m.nextAround x u) (m.expand x u).nextMap 0
  slope : HasFDerivAt (m.costAround x u) (m.expand x u).slopeMap 0
  smooth : ∀ᶠ z in 𝓝 0, DifferentiableAt ℝ (m.costAround x u) z
  curvature : HasFDerivAt (fderiv ℝ (m.costAround x u)) (m.expand x u).curvatureMap 0

variable {m x u}

/-- A cost that is quadratic around a point has the derivatives of the quadratic. -/
theorem expandsTruly_of_change (hsymm : (m.expand x u).IsSymmetric)
    (hnext : HasFDerivAt (m.nextAround x u) (m.expand x u).nextMap 0)
    (hcost : m.costAround x u =ᶠ[𝓝 0]
      fun z => (m.evaluate x u).cost + (m.expand x u).change z.displacement) :
    m.ExpandsTruly x u := by
  have hderiv (z : Coordinates s.ndx nu) :=
    (Expansion.hasFDerivAt_change hsymm z).const_add (m.evaluate x u).cost
  have hfderiv : fderiv ℝ (m.costAround x u) =ᶠ[𝓝 0]
      fun z => (m.expand x u).slopeMap + (m.expand x u).curvatureMap z :=
    hcost.fderiv.trans (.of_forall fun z => (hderiv z).fderiv)
  refine ⟨hnext, ?_, ?_, ?_⟩
  · have hzero := hderiv 0
    rw [map_zero, add_zero] at hzero
    exact hzero.congr_of_eventuallyEq hcost
  · exact (eventually_eventually_nhds.mpr hcost).mono fun z hz =>
      ((hderiv z).congr_of_eventuallyEq hz).differentiableAt
  · exact ((m.expand x u).curvatureMap.hasFDerivAt.const_add _).congr_of_eventuallyEq hfderiv

end Model

/-! The dynamics are differentiated one coordinate at a time. -/

theorem Expansion.hasFDerivAt_nextMap {e : Expansion ℝ ndx nu}
    {f : Coordinates ndx nu → Fin ndx → ℝ} (h : ∀ i, ∃ L : Coordinates ndx nu →L[ℝ] ℝ,
      HasFDerivAt (fun z => f z i) L 0 ∧
        ∀ z, L z = ∑ j, e.fx.get i j * z.1 j + ∑ j, e.fu.get i j * z.2 j) :
    HasFDerivAt f e.nextMap 0 := by
  refine hasFDerivAt_pi'.mpr ?_
  intro i
  obtain ⟨L, hderiv, hrow⟩ := h i
  exact hderiv.congr_fderiv
    (ContinuousLinearMap.ext fun z => (hrow z).trans (e.nextMap_apply z i).symm)

/-- A function of the heading times a speed, as both of them vary. -/
theorem hasFDerivAt_heading {g : ℝ → ℝ} {g' θ : ℝ} (hg : HasDerivAt g g' θ)
    (a b : Coordinates ndx nu →L[ℝ] ℝ) (v : ℝ) :
    HasFDerivAt (fun z => g (θ + a z) * (v + b z)) (g θ • b + (v * g') • a) 0 := by
  have hθ : HasDerivAt g g' (θ + a 0) := by rwa [map_zero, add_zero]
  have hheading := hθ.comp_hasFDerivAt (0 : Coordinates ndx nu) (a.hasFDerivAt.const_add θ)
  have hspeed := (b.hasFDerivAt (x := 0)).const_add v
  refine (hheading.mul hspeed).congr_fderiv ?_
  simp [smul_smul]

/-- A tangent vector that varies around zero is principal where it has to be. -/
theorem StateSpace.eventually_isPrincipal : ∀ {s : StateSpace}
    {g : Coordinates s.ndx nu → Fin s.ndx → ℝ}, ContinuousAt g 0 → g 0 = 0 →
    ∀ᶠ z in 𝓝 0, s.IsPrincipal (.ofFn (g z))
  | euclidean _, _, _, _ => .of_forall fun _ => trivial
  | revolute, g, hcont, hzero => by
    have hangle : Tendsto (fun z => g z 0) (𝓝 0) (𝓝 0) := by
      have hentry := (continuous_apply 0).continuousAt.comp hcont
      rwa [ContinuousAt, Function.comp_apply, hzero] at hentry
    have hsmall : Set.Ioc (-Real.pi) Real.pi ∈ 𝓝 (0 : ℝ) :=
      Ioc_mem_nhds (neg_neg_of_pos Real.pi_pos) Real.pi_pos
    refine (hangle.eventually hsmall).mono fun z hz => ?_
    have hentry : (Vec.ofFn (g z)).entry 0 = g z 0 := Vec.get_ofFn (g z) 0
    show (Vec.ofFn (g z)).entry 0 ∈ Set.Ioc (-Real.pi) Real.pi
    rw [hentry]
    exact hz

/-- At the end, where a stage keeps its state, the dynamics are the identity. -/
theorem Model.hasFDerivAt_next_none {m : Model ℝ s nu} {x : Vec ℝ s.nx} (hproper : s.IsProper x)
    (hkeeps : ∀ y, (m.evaluate y none).next = y) (hfx : (m.expand x none).fx = .identity s.ndx)
    (hfu : (m.expand x none).fu = 0) :
    HasFDerivAt (m.nextAround x none) (m.expand x none).nextMap 0 := by
  have hnext : m.nextAround x none =ᶠ[𝓝 0] Prod.fst := by
    refine (StateSpace.eventually_isPrincipal continuousAt_fst rfl).mono fun z hz => ?_
    have hdiff := StateSpace.diff_integrate hproper hz
    show (s.diff (m.evaluate x none).next (m.evaluate (s.integrate x (.ofFn z.1)) none).next).get =
      z.1
    rw [hkeeps, hkeeps, hdiff, Vec.toFun_ofFn]
  refine HasFDerivAt.congr_of_eventuallyEq ?_ hnext
  refine Expansion.hasFDerivAt_nextMap fun i => ⟨_, Coordinates.hasFDerivAt_state 0 i, fun z => ?_⟩
  show z.1 i = _
  rw [hfx, hfu]
  simp

/-! ## Unicycles -/

namespace Unicycle

theorem isSymmetric_expand (p : Unicycle ℝ) (x : Vec ℝ 3) : ∀ u : Option (Vec ℝ 2),
    (p.expand x u).IsSymmetric
  | some _ => ⟨Mat.isSymmetric_scale_identity _, Mat.isSymmetric_scale_identity _⟩
  | none => ⟨Mat.isSymmetric_scale_identity _, Mat.isSymmetric_zero⟩

/-- The cost of a unicycle is quadratic. -/
theorem cost_displaced (p : Unicycle ℝ) (x dx : Vec ℝ 3) (du : Vec ℝ 2) (u : Option (Vec ℝ 2)) :
    (p.evaluate (x + dx) (u.map (· + du))).cost =
      (p.evaluate x u).cost + (p.expand x u).change ⟨dx, du⟩ := by
  have hx := dotProduct_comm dx.get x.get
  unfold Expansion.change
  cases u with
  | some u =>
    have hu := dotProduct_comm du.get u.get
    simp only [Option.map_some, evaluate, expand, Mat.scale_identity_mul, Mat.zeroMat_mul,
      Vec.normSq_real, Vec.dot_real, Vec.toFun_zero, Vec.toFun_add, Vec.toFun_scale,
      dotProduct_zero, add_dotProduct, dotProduct_add, smul_dotProduct, dotProduct_smul,
      smul_eq_mul, hx, hu]
    ring
  | none =>
    simp only [Option.map_none, evaluate, expand, Mat.scale_identity_mul, Mat.zeroMat_mul,
      Vec.normSq_real, Vec.dot_real, Vec.toFun_zero, Vec.toFun_add, Vec.toFun_scale,
      dotProduct_zero, zero_dotProduct, add_dotProduct, dotProduct_add, smul_dotProduct,
      dotProduct_smul, smul_eq_mul, hx]
    ring

/-- The dynamics of a unicycle, coordinate by coordinate. -/
theorem hasFDerivAt_next (p : Unicycle ℝ) (x : Vec ℝ 3) (u : Vec ℝ 2) :
    HasFDerivAt ((Model.unicycle p).nextAround x (some u))
      ((Model.unicycle p).expand x (some u)).nextMap 0 := by
  have hx := Coordinates.hasFDerivAt_state (0 : Coordinates 3 2) 0
  have hy := Coordinates.hasFDerivAt_state (0 : Coordinates 3 2) 1
  have hθ := Coordinates.hasFDerivAt_state (0 : Coordinates 3 2) 2
  have hω := Coordinates.hasFDerivAt_control (0 : Coordinates 3 2) 1
  have hcos := hasFDerivAt_heading (Real.hasDerivAt_cos (x.entry 2))
    (Coordinates.state 2 : Coordinates 3 2 →L[ℝ] ℝ) (Coordinates.control 0) (u.entry 0)
  have hsin := hasFDerivAt_heading (Real.hasDerivAt_sin (x.entry 2))
    (Coordinates.state 2 : Coordinates 3 2 →L[ℝ] ℝ) (Coordinates.control 0) (u.entry 0)
  refine Expansion.hasFDerivAt_nextMap ?_
  intro i
  simp only [Fin.sum_univ_three, Fin.sum_univ_two]
  fin_cases i
  · refine ⟨_, ((hx.const_add (x.entry 0)).add (hcos.mul_const p.dt)).sub_const
      (x.entry 0 + Real.cos (x.entry 2) * u.entry 0 * p.dt), fun z => ?_⟩
    show z.1 0 + p.dt * (Real.cos (x.entry 2) * z.2 0 +
        u.entry 0 * -Real.sin (x.entry 2) * z.1 2) =
      1 * z.1 0 + 0 * z.1 1 + -Real.sin (x.entry 2) * u.entry 0 * p.dt * z.1 2 +
        (Real.cos (x.entry 2) * p.dt * z.2 0 + 0 * z.2 1)
    ring
  · refine ⟨_, ((hy.const_add (x.entry 1)).add (hsin.mul_const p.dt)).sub_const
      (x.entry 1 + Real.sin (x.entry 2) * u.entry 0 * p.dt), fun z => ?_⟩
    show z.1 1 + p.dt * (Real.sin (x.entry 2) * z.2 0 +
        u.entry 0 * Real.cos (x.entry 2) * z.1 2) =
      0 * z.1 0 + 1 * z.1 1 + Real.cos (x.entry 2) * u.entry 0 * p.dt * z.1 2 +
        (Real.sin (x.entry 2) * p.dt * z.2 0 + 0 * z.2 1)
    ring
  · refine ⟨_, ((hθ.const_add (x.entry 2)).add ((hω.const_add (u.entry 1)).mul_const
      p.dt)).sub_const (x.entry 2 + u.entry 1 * p.dt), fun z => ?_⟩
    show z.1 2 + p.dt * z.2 1 =
      0 * z.1 0 + 0 * z.1 1 + 1 * z.1 2 + (0 * z.2 0 + p.dt * z.2 1)
    ring

/-- **The derivatives of a unicycle are its derivatives.** -/
theorem expandsTruly (p : Unicycle ℝ) (x : Vec ℝ 3) (u : Option (Vec ℝ 2)) :
    (Model.unicycle p).ExpandsTruly x u := by
  refine Model.expandsTruly_of_change (p.isSymmetric_expand x u) ?_ (.of_forall fun z => ?_)
  · cases u with
    | some u => exact p.hasFDerivAt_next x u
    | none => exact Model.hasFDerivAt_next_none trivial (fun _ => rfl) rfl rfl
  · exact p.cost_displaced x z.displacement.state z.displacement.control u

end Unicycle

/-! ## Pendulums -/

namespace Pendulum

theorem isSymmetric_expand (p : Pendulum ℝ) (x : Vec ℝ 3) (u : Option (Vec ℝ 1)) :
    (p.expand x u).IsSymmetric := by
  have hxx : (Mat.diagonal ⟨#v[p.angleWeight, p.velocityWeight]⟩ : Mat ℝ 2 2).IsSymmetric := by
    refine Mat.isSymmetric_of_get fun i j => ?_
    fin_cases i <;> fin_cases j <;> rfl
  cases u with
  | some u => exact ⟨hxx, Mat.isSymmetric_one _⟩
  | none => exact ⟨hxx, Mat.isSymmetric_zero⟩

/-- The tangent vector along which a pendulum moves. -/
noncomputable def step (p : Pendulum ℝ) (x : Vec ℝ 3) (u : Vec ℝ 1) : Vec ℝ 2 :=
  let ω := Revolute.velocity x
  let a := p.acceleration (Revolute.rotation x).im ω (u.entry 0)
  ⟨#v[(ω + a * p.dt) * p.dt, a * p.dt]⟩

/-- The acceleration at displaced arguments. -/
noncomputable def accelerationAround (p : Pendulum ℝ) (x : Vec ℝ 3) (u : Vec ℝ 1)
    (z : Coordinates 2 1) : ℝ :=
  p.acceleration (Revolute.rotation x * .ofAngle (z.displacement.state.entry 0)).im
    (Revolute.velocity x + z.displacement.state.entry 1) (u.entry 0 + z.displacement.control.entry 0)

theorem hasFDerivAt_acceleration {p : Pendulum ℝ} (hinertia : p.inertia ≠ 0) (x : Vec ℝ 3)
    (u : Vec ℝ 1) : ∃ L : Coordinates 2 1 →L[ℝ] ℝ,
      HasFDerivAt (p.accelerationAround x u) L 0 ∧
        ∀ z, L z = -p.gravity * (Revolute.rotation x).re / p.length * z.1 0 +
          -p.damping / p.inertia * z.1 1 + 1 / p.inertia * z.2 0 := by
  let r := Revolute.rotation x
  have hθ := Coordinates.hasFDerivAt_state (0 : Coordinates 2 1) 0
  have hω := Coordinates.hasFDerivAt_state (0 : Coordinates 2 1) 1
  have hτ := Coordinates.hasFDerivAt_control (0 : Coordinates 2 1) 0
  have hsine : HasFDerivAt (fun z : Coordinates 2 1 => (r * .ofAngle (z.1 0)).im)
      (r.re • Coordinates.state 0) 0 := by
    refine ((hθ.sin.const_mul r.re).add (hθ.cos.const_mul r.im)).congr_fderiv ?_
    simp
  refine ⟨_, (((hτ.const_add (u.entry 0)).sub
    (hsine.const_mul (p.mass * p.gravity * p.length))).sub
    ((hω.const_add (Revolute.velocity x)).const_mul p.damping)).mul_const p.inertia⁻¹, ?_⟩
  intro z
  obtain ⟨⟨hmass, hlength⟩, -⟩ : (p.mass ≠ 0 ∧ p.length ≠ 0) ∧ p.length ≠ 0 := by
    simpa [inertia] using hinertia
  show p.inertia⁻¹ * (z.2 0 - p.mass * p.gravity * p.length * (r.re * z.1 0) - p.damping * z.1 1) =
    _
  unfold inertia
  field_simp
  ring

theorem accelerationAround_zero (p : Pendulum ℝ) (x : Vec ℝ 3) (u : Vec ℝ 1) :
    p.accelerationAround x u 0 =
      p.acceleration (Revolute.rotation x).im (Revolute.velocity x) (u.entry 0) := by
  have him : (Revolute.rotation x * .ofAngle 0).im = (Revolute.rotation x).im := by
    show (Revolute.rotation x).re * Real.sin 0 + (Revolute.rotation x).im * Real.cos 0 = _
    rw [Real.sin_zero, Real.cos_zero, mul_zero, zero_add, mul_one]
  show p.acceleration (Revolute.rotation x * .ofAngle 0).im (_ + 0) (_ + 0) = _
  rw [him, add_zero, add_zero]

/-- The tangent vector along which a pendulum moves from displaced arguments. -/
noncomputable def stepAround (p : Pendulum ℝ) (x : Vec ℝ 3) (u : Vec ℝ 1) (z : Coordinates 2 1) :
    Vec ℝ 2 :=
  let a := p.accelerationAround x u z
  ⟨#v[(Revolute.velocity x + z.displacement.state.entry 1 + a * p.dt) * p.dt, a * p.dt]⟩

/-- How far a pendulum moves when it is displaced, beyond where it moves to otherwise. -/
noncomputable def stepChange (p : Pendulum ℝ) (x : Vec ℝ 3) (u : Vec ℝ 1) (z : Coordinates 2 1)
    (i : Fin 2) : ℝ :=
  z.1 i + (p.stepAround x u z).get i - (p.stepAround x u 0).get i

theorem hasFDerivAt_stepChange {p : Pendulum ℝ} (hinertia : p.inertia ≠ 0) (x : Vec ℝ 3)
    (u : Vec ℝ 1) :
    HasFDerivAt (p.stepChange x u) ((Model.pendulum p).expand x (some u)).nextMap 0 := by
  have hθ := Coordinates.hasFDerivAt_state (0 : Coordinates 2 1) 0
  have hω := Coordinates.hasFDerivAt_state (0 : Coordinates 2 1) 1
  obtain ⟨A, ha, hA⟩ := hasFDerivAt_acceleration hinertia x u
  refine Expansion.hasFDerivAt_nextMap ?_
  intro i
  simp only [Fin.sum_univ_two, Fin.sum_univ_one]
  fin_cases i
  · refine ⟨_, (hθ.add (((hω.const_add (Revolute.velocity x)).add (ha.mul_const p.dt)).mul_const
      p.dt)).sub_const ((p.stepAround x u 0).get 0), ?_⟩
    intro z
    show z.1 0 + p.dt * (z.1 1 + p.dt * A z) =
      (1 + -p.gravity * (Revolute.rotation x).re / p.length * p.dt * p.dt) * z.1 0 +
        (p.dt + -p.damping / p.inertia * p.dt * p.dt) * z.1 1 +
          1 / p.inertia * p.dt * p.dt * z.2 0
    rw [hA]
    ring
  · refine ⟨_, (hω.add (ha.mul_const p.dt)).sub_const ((p.stepAround x u 0).get 1), ?_⟩
    intro z
    show z.1 1 + p.dt * A z =
      -p.gravity * (Revolute.rotation x).re / p.length * p.dt * z.1 0 +
        (1 + -p.damping / p.inertia * p.dt) * z.1 1 + 1 / p.inertia * p.dt * z.2 0
    rw [hA]
    ring

/-- Without a displacement, a pendulum moves along its own step. -/
theorem step_eq (p : Pendulum ℝ) (x : Vec ℝ 3) (u : Vec ℝ 1) :
    p.step x u = p.stepAround x u 0 := by
  have hω : Revolute.velocity x + (0 : Coordinates 2 1).displacement.state.entry 1 =
      Revolute.velocity x := add_zero _
  unfold stepAround
  dsimp only
  rw [p.accelerationAround_zero, hω]
  rfl

/-- A pendulum that is displaced moves along the step of where it is then. -/
theorem step_displaced {x : Vec ℝ 3} (hproper : StateSpace.revolute.IsProper x) (p : Pendulum ℝ)
    (u : Vec ℝ 1) (z : Coordinates 2 1) :
    p.step (Revolute.integrate x z.displacement.state) (u + z.displacement.control) =
      p.stepAround x u z := by
  have hτ : (u + z.displacement.control).entry 0 =
      u.entry 0 + z.displacement.control.entry 0 := u.get_add _ 0
  unfold step
  rw [StateSpace.rotation_integrate hproper, hτ]
  rfl

/-- The next state of a pendulum moves by a displacement and the change of the step together. -/
theorem nextAround_eq {p : Pendulum ℝ} {x : Vec ℝ 3} (hproper : StateSpace.revolute.IsProper x)
    (u : Vec ℝ 1) {z : Coordinates 2 1}
    (hz : StateSpace.revolute.IsPrincipal (.ofFn (p.stepChange x u z))) :
    (Model.pendulum p).nextAround x (some u) z = p.stepChange x u z := by
  have hchange : z.displacement.state + p.stepAround x u z - p.step x u =
      .ofFn (p.stepChange x u z) := by
    rw [step_eq]
    ext i
    have hstate : z.displacement.state.get i = z.1 i := Vec.get_ofFn z.1 i
    rw [Vec.get_sub, Vec.get_add, Vec.get_ofFn, hstate]
    rfl
  -- both next states are reached from `x`, and only what leads there is compared
  have hdiff := StateSpace.diff_integrate_integrate (s := .revolute) hproper (p.step x u)
    (z.displacement.state + p.stepAround x u z) (hchange ▸ hz)
  rw [← StateSpace.integrate_add hproper, hchange, ← step_displaced hproper] at hdiff
  exact (congrArg Vec.get hdiff).trans (Vec.toFun_ofFn _)

theorem hasFDerivAt_next {p : Pendulum ℝ} (hinertia : p.inertia ≠ 0) {x : Vec ℝ 3}
    (hproper : StateSpace.revolute.IsProper x) (u : Vec ℝ 1) :
    HasFDerivAt ((Model.pendulum p).nextAround x (some u))
      ((Model.pendulum p).expand x (some u)).nextMap 0 := by
  have hderiv := hasFDerivAt_stepChange hinertia x u
  have hzero : p.stepChange x u 0 = 0 := by
    funext i
    show 0 + (p.stepAround x u 0).get i - (p.stepAround x u 0).get i = 0
    rw [zero_add, sub_self]
  have hsmall := StateSpace.eventually_isPrincipal (s := .revolute) hderiv.continuousAt hzero
  exact hderiv.congr_of_eventuallyEq (hsmall.mono fun z hz => nextAround_eq hproper u hz)

/-- Turning a state turns it away from the goal, as far as angles go. -/
theorem angleError_integrate {p : Pendulum ℝ} (hgoal : p.goal.OnCircle) {x : Vec ℝ 3}
    (hproper : StateSpace.revolute.IsProper x) {dx : Vec ℝ 2}
    (hmem : p.angleError x + dx.entry 0 ∈ Set.Ioc (-Real.pi) Real.pi) :
    p.angleError (Revolute.integrate x dx) = p.angleError x + dx.entry 0 := by
  have hcircle := hgoal.inverse.mul (StateSpace.onCircle_rotation hproper)
  show (p.goal.inverse * Revolute.rotation (Revolute.integrate x dx)).angle = _
  rw [StateSpace.rotation_integrate hproper, ← Rotation.mul_assoc]
  exact hcircle.angle_mul_ofAngle hmem

/-- As long as the angle to the goal does not jump, the cost of a state is quadratic. -/
theorem stateCost_integrate {p : Pendulum ℝ} {x : Vec ℝ 3} {dx : Vec ℝ 2}
    (hangle : p.angleError (Revolute.integrate x dx) = p.angleError x + dx.entry 0)
    (u : Option (Vec ℝ 1)) :
    p.stateCost (Revolute.integrate x dx) = p.stateCost x + (p.expand x u).finalChange dx := by
  have hω : Revolute.velocity (Revolute.integrate x dx) = Revolute.velocity x + dx.entry 1 := rfl
  have hchange : (p.expand x u).finalChange dx =
      p.angleWeight * p.angleError x * dx.entry 0 +
        p.velocityWeight * Revolute.velocity x * dx.entry 1 +
          (dx.entry 0 * (p.angleWeight * dx.entry 0) +
            dx.entry 1 * (p.velocityWeight * dx.entry 1)) / 2 := by
    unfold Expansion.finalChange expand
    cases u <;> simp [Vec.dot_real, dotProduct, Mat.get_mulVec_sum] <;> rfl
  rw [hchange]
  unfold stateCost
  rw [hangle, hω]
  ring

theorem cost_displaced {p : Pendulum ℝ} {x : Vec ℝ 3} {dx : Vec ℝ 2}
    (hangle : p.angleError (Revolute.integrate x dx) = p.angleError x + dx.entry 0)
    (u : Option (Vec ℝ 1)) (du : Vec ℝ 1) :
    (p.evaluate (Revolute.integrate x dx) (u.map (· + du))).cost =
      (p.evaluate x u).cost + (p.expand x u).change ⟨dx, du⟩ := by
  have hstate := stateCost_integrate hangle u
  cases u with
  | some u =>
    have hτ : (u + du).entry 0 = u.entry 0 + du.entry 0 := u.get_add du 0
    have hcontrol : (p.expand x (some u)).lu.dot du + du.dot ((p.expand x (some u)).luu * du) / 2 =
        p.torqueWeight * u.entry 0 * du.entry 0 +
          du.entry 0 * (p.torqueWeight * du.entry 0) / 2 := by
      rw [Vec.dot_one, Vec.dot_one, Mat.get_mulVec_one]
      rfl
    rw [Expansion.change_of_uncrossed rfl, hcontrol]
    show p.stateCost (Revolute.integrate x dx) +
        0.5 * p.torqueWeight * (u + du).entry 0 * (u + du).entry 0 =
      p.stateCost x + 0.5 * p.torqueWeight * u.entry 0 * u.entry 0 + _
    rw [hstate, hτ]
    ring
  | none =>
    have hcontrol : (p.expand x none).lu.dot du + du.dot ((p.expand x none).luu * du) / 2 = 0 := by
      show (0 : Vec ℝ 1).dot du + du.dot ((0 : Mat ℝ 1 1) * du) / 2 = 0
      rw [Mat.zeroMat_mul, Vec.zero_dot, Vec.dot_zero, zero_div, add_zero]
    rw [Expansion.change_of_uncrossed rfl, hcontrol, add_zero]
    exact hstate

/-- **The derivatives of a pendulum are its derivatives**, except where the angle to the goal jumps.
-/
theorem expandsTruly {p : Pendulum ℝ} (hinertia : p.inertia ≠ 0) (hgoal : p.goal.OnCircle)
    {x : Vec ℝ 3} (hproper : StateSpace.revolute.IsProper x) (hangle : p.angleError x ≠ Real.pi)
    (u : Option (Vec ℝ 1)) : (Model.pendulum p).ExpandsTruly x u := by
  have hnear : ∀ᶠ z : Coordinates 2 1 in 𝓝 0,
      p.angleError x + z.1 0 ∈ Set.Ioc (-Real.pi) Real.pi := by
    obtain ⟨hlow, hhigh⟩ : p.angleError x ∈ Set.Ioc (-Real.pi) Real.pi := Rotation.angle_mem _
    have hinside : Set.Ioc (-Real.pi) Real.pi ∈ 𝓝 (p.angleError x + (0 : Coordinates 2 1).1 0) := by
      rw [Prod.fst_zero, Pi.zero_apply, add_zero]
      exact Ioc_mem_nhds hlow (lt_of_le_of_ne hhigh hangle)
    have hcont : ContinuousAt (fun z : Coordinates 2 1 => p.angleError x + z.1 0) 0 := by fun_prop
    exact hcont.eventually hinside
  refine Model.expandsTruly_of_change (p.isSymmetric_expand x u) ?_ (hnear.mono fun z hz => ?_)
  · cases u with
    | some u => exact hasFDerivAt_next hinertia hproper u
    | none => exact Model.hasFDerivAt_next_none hproper (fun _ => rfl) rfl rfl
  · have hentry : z.displacement.state.entry 0 = z.1 0 := Vec.get_ofFn z.1 0
    exact cost_displaced (angleError_integrate hgoal hproper (hentry ▸ hz)) u
      z.displacement.control

end Pendulum

/-- **Analytic derivatives are derivatives**, with a control or without: those of every unicycle
everywhere, and those of every pendulum that has an inertia and a rotation as its goal, in every
state that has an orientation, unless it is half a turn away from the goal. -/
theorem Model.analytic_derivatives_exact :
    (∀ (p : Unicycle ℝ) (x : Vec ℝ 3) (u : Option (Vec ℝ 2)), (unicycle p).ExpandsTruly x u) ∧
      ∀ p : Pendulum ℝ, p.inertia ≠ 0 → p.goal.OnCircle → ∀ x : Vec ℝ 3,
        StateSpace.revolute.IsProper x → p.angleError x ≠ Real.pi →
          ∀ u : Option (Vec ℝ 1), (pendulum p).ExpandsTruly x u :=
  ⟨Unicycle.expandsTruly, fun _ hinertia hgoal _ hproper hangle =>
    Pendulum.expandsTruly hinertia hgoal hproper hangle⟩

/-- The standard pendulum in a state that is a quarter of a turn from its goal, and not on the unit
circle. -/
theorem Model.analytic_derivatives_exact_aside :
    let p : Pendulum ℝ := .standard
    let x : Vec ℝ 3 := ⟨#v[0, 2, 3]⟩
    p.inertia ≠ 0 ∧ p.goal.OnCircle ∧ StateSpace.revolute.IsProper x ∧ p.angleError x ≠ Real.pi ∧
      ∀ u : Option (Vec ℝ 1), (pendulum p).ExpandsTruly x u := by
  intro p x
  have hinertia : p.inertia ≠ 0 := by
    show (1 * 1 * 1 : ℝ) ≠ 0
    norm_num
  have hgoal : p.goal.OnCircle := Rotation.onCircle_ofAngle _
  have hproper : StateSpace.revolute.IsProper x := .inr two_ne_zero
  have hangle : p.angleError x ≠ Real.pi := by
    intro h
    have him : Real.cos Real.pi * (2 / √(0 * 0 + 2 * 2)) +
        -Real.sin Real.pi * (0 / √(0 * 0 + 2 * 2)) = 0 := (Complex.arg_eq_pi_iff.mp h).2
    norm_num at him
  exact ⟨hinertia, hgoal, hproper, hangle,
    analytic_derivatives_exact.2 p hinertia hgoal x hproper hangle⟩

end Shooting
