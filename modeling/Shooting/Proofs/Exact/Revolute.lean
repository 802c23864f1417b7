import Shooting.Proofs.Exact.StateSpace

/-!
# The state of a revolute joint, exactly

States of a joint are redundant: three numbers for two degrees of freedom. If nothing is rounded this
does no harm. A state counts by its direction alone, however long the vector is that it is stored as
(`Revolute.rotation_stretched`), and what is reached from it lies on the unit circle.

There `diff` and `integrate` undo each other, but for whole turns: going along a tangent vector and
asking for the way back gives its angle in `(-π, π]` (`Revolute.diff_integrate_wrapped`). The way from
one state to another is opposite to the way back unless it is half a turn, which is the same turn in
both directions (`Revolute.diff_swap`, `Revolute.diff_opposite`).
-/

namespace Shooting

/-! ## Rotations -/

namespace Rotation

/-- Of all angles that make a rotation, its angle is the one in `(-π, π]`. -/
theorem angle_ofAngle_wrapped (θ : ℝ) : (ofAngle θ).angle = (θ : Real.Angle).toReal := by
  have hpoint : (⟨Real.cos θ, Real.sin θ⟩ : ℂ) = Complex.cos θ + Complex.sin θ * Complex.I := by
    rw [← Complex.ofReal_cos, ← Complex.ofReal_sin]
    exact Complex.mk_eq_add_mul_I _ _
  show Complex.arg ⟨Real.cos θ, Real.sin θ⟩ = _
  rw [hpoint, Real.Angle.toReal_coe]
  exact Complex.arg_cos_add_sin_mul_I_eq_toIocMod θ

/-- The direction of a point is that of every point on the same ray. -/
theorem normalize_mul {c : ℝ} (hc : 0 < c) (re im : ℝ) :
    normalize (c * re) (c * im) = normalize re im := by
  have hroot : √(c * re * (c * re) + c * im * (c * im)) = c * √(re * re + im * im) := by
    rw [← Real.sqrt_mul_self hc.le, ← Real.sqrt_mul (mul_self_nonneg c), Real.sqrt_mul_self hc.le]
    congr 1
    ring
  show Rotation.mk (c * re / √(c * re * (c * re) + c * im * (c * im)))
      (c * im / √(c * re * (c * re) + c * im * (c * im))) = _
  rw [hroot, mul_div_mul_left _ _ hc.ne', mul_div_mul_left _ _ hc.ne']
  rfl

theorem inverse_inverse (r : Rotation ℝ) : r.inverse.inverse = r :=
  congrArg (Rotation.mk r.re) (neg_neg r.im)

/-- Turning back and turning. -/
theorem OnCircle.mul_inverse_cancel {r : Rotation ℝ} (h : r.OnCircle) (t : Rotation ℝ) :
    r * (r.inverse * t) = t := by
  have hcancel := h.inverse.inverse_mul_cancel t
  rwa [inverse_inverse] at hcancel

/-- The rotations are half a turn apart. -/
def IsOpposite (r t : Rotation ℝ) : Prop := t.re = -r.re ∧ t.im = -r.im

theorem IsOpposite.symm {r t : Rotation ℝ} (h : r.IsOpposite t) : t.IsOpposite r :=
  ⟨(neg_eq_iff_eq_neg.mpr h.1).symm, (neg_eq_iff_eq_neg.mpr h.2).symm⟩

/-- The way from one rotation to another, taken the other way round. -/
theorem inverse_inverse_mul (r t : Rotation ℝ) : (r.inverse * t).inverse = t.inverse * r := by
  have hre : r.re * t.re - -r.im * t.im = t.re * r.re - -t.im * r.im := by ring
  have him : -(r.re * t.im + -r.im * t.re) = t.re * r.im + -t.im * r.re := by ring
  exact congrArg₂ Rotation.mk hre him

/-- The angle of the way back is the opposite one, unless it is half a turn. -/
theorem angle_inverse (r : Rotation ℝ) :
    r.inverse.angle = if r.angle = Real.pi then Real.pi else -r.angle :=
  Complex.arg_conj ⟨r.re, r.im⟩

namespace OnCircle

variable {r t : Rotation ℝ}

/-- **Half a turn lies between opposite rotations, and between no others.** -/
theorem angle_eq_pi_iff (hr : r.OnCircle) (ht : t.OnCircle) :
    (r.inverse * t).angle = Real.pi ↔ r.IsOpposite t := by
  have hangle : (r.inverse * t).angle = Real.pi ↔
      r.re * t.re - -r.im * t.im < 0 ∧ r.re * t.im + -r.im * t.re = 0 :=
    Complex.arg_eq_pi_iff
  unfold OnCircle at hr ht
  rw [hangle]
  constructor
  · rintro ⟨hneg, him⟩
    -- the way between them has length one and no ordinate
    have hsquare : (r.re * t.re + r.im * t.im) * (r.re * t.re + r.im * t.im) = 1 := by
      linear_combination (t.re * t.re + t.im * t.im) * hr + ht -
        (r.re * t.im - r.im * t.re) * him
    have hre : r.re * t.re + r.im * t.im = -1 := by
      rcases mul_self_eq_one_iff.mp hsquare with hone | hone
      · linarith
      · exact hone
    exact ⟨by linear_combination r.re * hre - r.im * him - t.re * hr,
      by linear_combination r.im * hre + r.re * him - t.im * hr⟩
  · rintro ⟨hre, him⟩
    rw [hre, him]
    exact ⟨by linarith, by ring⟩

/-- Differences of rotations are opposite to each other, except half a turn away. -/
theorem angle_swap (hr : r.OnCircle) (ht : t.OnCircle) (h : ¬ r.IsOpposite t) :
    (r.inverse * t).angle = -(t.inverse * r).angle := by
  have hback : (t.inverse * r).angle ≠ Real.pi :=
    fun hpi => h ((ht.angle_eq_pi_iff hr).mp hpi).symm
  rw [← inverse_inverse_mul, angle_inverse, if_neg hback]

end OnCircle

end Rotation

/-! ## States -/

namespace Revolute

open StateSpace (revolute onCircle_rotation)

variable {x x₀ x₁ : Vec ℝ 3}

/-- The same state on the unit circle. -/
noncomputable def normalized (x : Vec ℝ 3) : Vec ℝ 3 :=
  ⟨#v[(rotation x).re, (rotation x).im, velocity x]⟩

/-- The same state with its orientation stored `c` times as long. -/
noncomputable def stretched (c : ℝ) (x : Vec ℝ 3) : Vec ℝ 3 :=
  ⟨#v[c * x.entry 0, c * x.entry 1, velocity x]⟩

/-- The same tangent vector with its angle in `(-π, π]`. -/
noncomputable def wrapped (dx : Vec ℝ 2) : Vec ℝ 2 :=
  ⟨#v[(dx.entry 0 : Real.Angle).toReal, dx.entry 1]⟩

/-- **Orientation does not depend on the length that it is stored with.** -/
theorem rotation_stretched {c : ℝ} (hc : 0 < c) (x : Vec ℝ 3) :
    rotation (stretched c x) = rotation x :=
  Rotation.normalize_mul hc _ _

theorem diff_stretched {c d : ℝ} (hc : 0 < c) (hd : 0 < d) (x₀ x₁ : Vec ℝ 3) :
    diff (stretched c x₀) (stretched d x₁) = diff x₀ x₁ := by
  unfold diff
  rw [rotation_stretched hc, rotation_stretched hd]
  rfl

theorem integrate_stretched {c : ℝ} (hc : 0 < c) (x : Vec ℝ 3) (dx : Vec ℝ 2) :
    integrate (stretched c x) dx = integrate x dx := by
  unfold integrate
  rw [rotation_stretched hc]
  rfl

/-- **The way to a state leads to it**, on the unit circle. -/
theorem integrate_diff (h₀ : revolute.IsProper x₀) (h₁ : revolute.IsProper x₁) :
    integrate x₀ (diff x₀ x₁) = normalized x₁ := by
  have hbetween := (onCircle_rotation h₀).inverse.mul (onCircle_rotation h₁)
  have hrotation : rotation x₀ * .ofAngle ((diff x₀ x₁).entry 0) = rotation x₁ := by
    show rotation x₀ * .ofAngle ((rotation x₀).inverse * rotation x₁).angle = _
    rw [hbetween.ofAngle_angle, (onCircle_rotation h₀).mul_inverse_cancel]
  have hvelocity : velocity x₀ + (diff x₀ x₁).entry 1 = velocity x₁ := add_sub_cancel _ _
  unfold integrate
  rw [hrotation, hvelocity]
  rfl

/-- **The way to the state reached along a tangent vector is that vector, but for whole turns.** -/
theorem diff_integrate_wrapped (h : revolute.IsProper x) (dx : Vec ℝ 2) :
    diff x (integrate x dx) = wrapped dx := by
  have hvelocity : velocity (integrate x dx) - velocity x = dx.entry 1 := add_sub_cancel_left _ _
  unfold diff
  rw [StateSpace.rotation_integrate h, (onCircle_rotation h).inverse_mul_cancel,
    Rotation.angle_ofAngle_wrapped, hvelocity]
  rfl

/-- Unless it is half a turn, the way from one state to another is opposite to the way back. -/
theorem diff_swap (h₀ : revolute.IsProper x₀) (h₁ : revolute.IsProper x₁)
    (h : ¬ (rotation x₀).IsOpposite (rotation x₁)) : diff x₀ x₁ = -diff x₁ x₀ := by
  have hangle := (onCircle_rotation h₀).angle_swap (onCircle_rotation h₁) h
  have hvelocity : velocity x₁ - velocity x₀ = -(velocity x₀ - velocity x₁) := (neg_sub _ _).symm
  ext i
  rw [Vec.get_neg]
  match i with
  | 0 => exact hangle
  | 1 => exact hvelocity

/-- Half a turn is the same turn in both directions. -/
theorem diff_opposite (h₀ : revolute.IsProper x₀) (h₁ : revolute.IsProper x₁)
    (h : (rotation x₀).IsOpposite (rotation x₁)) :
    (diff x₀ x₁).entry 0 = Real.pi ∧ (diff x₁ x₀).entry 0 = Real.pi := by
  exact ⟨((onCircle_rotation h₀).angle_eq_pi_iff (onCircle_rotation h₁)).mpr h,
    ((onCircle_rotation h₁).angle_eq_pi_iff (onCircle_rotation h₀)).mpr h.symm⟩

/-- **States of a joint that have an orientation are a consistent manifold** if nothing is rounded.
-/
theorem turns_consistently (h : revolute.IsProper x) (h₀ : revolute.IsProper x₀)
    (h₁ : revolute.IsProper x₁) (dx dx' : Vec ℝ 2) :
    (integrate x dx).entry 0 ^ 2 + (integrate x dx).entry 1 ^ 2 = 1 ∧
      integrate x₀ (diff x₀ x₁) = normalized x₁ ∧
      diff x (integrate x dx) = wrapped dx ∧
      (dx.entry 0 ∈ Set.Ioc (-Real.pi) Real.pi → diff x (integrate x dx) = dx) ∧
      integrate (integrate x dx) dx' = integrate x (dx + dx') ∧
      (¬ (rotation x₀).IsOpposite (rotation x₁) → diff x₀ x₁ = -diff x₁ x₀) ∧
      ((rotation x₀).IsOpposite (rotation x₁) →
        (diff x₀ x₁).entry 0 = Real.pi ∧ (diff x₁ x₀).entry 0 = Real.pi) ∧
      ∀ c d : ℝ, 0 < c → 0 < d →
        integrate (stretched c x) dx = integrate x dx ∧
        diff (stretched c x₀) (stretched d x₁) = diff x₀ x₁ := by
  have hunit : (rotation x * .ofAngle (dx.entry 0)).OnCircle :=
    (onCircle_rotation h).mul (Rotation.onCircle_ofAngle _)
  refine ⟨?_, integrate_diff h₀ h₁, diff_integrate_wrapped h dx, ?_, ?_, diff_swap h₀ h₁,
    diff_opposite h₀ h₁, ?_⟩
  · rw [sq, sq]
    exact hunit
  · exact fun hprincipal => StateSpace.diff_integrate h hprincipal
  · exact StateSpace.integrate_add h dx dx'
  · intro c d hc hd
    exact ⟨integrate_stretched hc x dx, diff_stretched hc hd x₀ x₁⟩

/-- A quarter turn between two states off the circle, and three quarters to the left, which are one
to the right. -/
theorem turns_consistently_quarter :
    let x₀ : Vec ℝ 3 := ⟨#v[2, 0, 1]⟩
    let x₁ : Vec ℝ 3 := ⟨#v[0, 3, -1]⟩
    let dx : Vec ℝ 2 := ⟨#v[3 * Real.pi / 2, 1]⟩
    revolute.IsProper x₀ ∧ revolute.IsProper x₁ ∧ ¬ (rotation x₀).IsOpposite (rotation x₁) ∧
      integrate x₀ (diff x₀ x₁) = ⟨#v[0, 1, -1]⟩ ∧ diff x₀ x₁ = -diff x₁ x₀ ∧
      (diff x₀ (integrate x₀ dx)).entry 0 = -(Real.pi / 2) := by
  intro x₀ x₁ dx
  have h₀ : revolute.IsProper x₀ := .inl two_ne_zero
  have h₁ : revolute.IsProper x₁ := .inr three_ne_zero
  have hr₀ : rotation x₀ = ⟨1, 0⟩ := by
    show Rotation.mk (2 / √(2 * 2 + 0 * 0)) (0 / √(2 * 2 + 0 * 0)) = _
    rw [mul_zero, add_zero, Real.sqrt_mul_self zero_le_two, div_self two_ne_zero, zero_div]
  have hr₁ : rotation x₁ = ⟨0, 1⟩ := by
    show Rotation.mk (0 / √(0 * 0 + 3 * 3)) (3 / √(0 * 0 + 3 * 3)) = _
    rw [mul_zero, zero_add, Real.sqrt_mul_self zero_le_three, div_self three_ne_zero, zero_div]
  have hapart : ¬ (rotation x₀).IsOpposite (rotation x₁) := by
    rw [hr₀, hr₁]
    rintro ⟨hre, -⟩
    norm_num at hre
  have hangle : ((3 * Real.pi / 2 : ℝ) : Real.Angle).toReal = -(Real.pi / 2) := by
    refine (toIocMod_eq_iff Real.two_pi_pos).mpr ⟨?_, 1, ?_⟩
    · constructor <;> linarith [Real.pi_pos]
    · rw [one_zsmul]
      ring
  obtain ⟨-, hthere, hback, -, -, hswap, -⟩ := turns_consistently h₀ h₀ h₁ dx 0
  refine ⟨h₀, h₁, hapart, ?_, hswap hapart, ?_⟩
  · rw [hthere, normalized, hr₁]
    rfl
  · rw [hback]
    exact hangle

end Revolute

end Shooting
