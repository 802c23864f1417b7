import Shooting.Model.Basic
import Shooting.Proofs.Exact.Scalar

/-!
# Exact state spaces

Laws of `diff` and `integrate` that hold if nothing is rounded.

On the circle they hold where there is a direction to turn from: a state is proper if its
orientation is not the origin of the plane (`StateSpace.IsProper`). Every state that comes from
`integrate`, and so every state that a model of the library leads to, is proper if the one before it
was (`Model.keepsProper`). And they hold for turns by less than half a turn, or by half a turn to the
left (`StateSpace.IsPrincipal`): these are the ones that `diff` answers.
-/

namespace Shooting

/-! ## Rotations -/

namespace Rotation

/-- Turning back to where one is takes no angle. Of the point that has no direction at all, the
angle is zero by convention. -/
theorem angle_inverse_mul (r : Rotation ℝ) : (r.inverse * r).angle = 0 := by
  have hre : 0 ≤ r.re * r.re - -r.im * r.im := by
    rw [neg_mul, sub_neg_eq_add]
    exact add_nonneg (mul_self_nonneg _) (mul_self_nonneg _)
  have him : r.re * r.im + -r.im * r.re = 0 := by ring
  show Complex.arg ⟨r.re * r.re - -r.im * r.im, r.re * r.im + -r.im * r.re⟩ = 0
  rw [him]
  exact Complex.arg_ofReal_of_nonneg hre

/-- A rotation as a point of the unit circle. -/
def OnCircle (r : Rotation ℝ) : Prop := r.re * r.re + r.im * r.im = 1

theorem onCircle_ofAngle (θ : ℝ) : (ofAngle θ).OnCircle := by
  show Real.cos θ * Real.cos θ + Real.sin θ * Real.sin θ = 1
  linarith [Real.cos_sq_add_sin_sq θ, sq (Real.cos θ), sq (Real.sin θ)]

/-- Every direction is one of a point of the unit circle. -/
theorem onCircle_normalize {re im : ℝ} (h : re ≠ 0 ∨ im ≠ 0) : (normalize re im).OnCircle := by
  have hpos : 0 < re * re + im * im := by
    rcases h with h | h
    · exact add_pos_of_pos_of_nonneg (mul_self_pos.mpr h) (mul_self_nonneg im)
    · exact add_pos_of_nonneg_of_pos (mul_self_nonneg re) (mul_self_pos.mpr h)
  show re / √(re * re + im * im) * (re / √(re * re + im * im)) +
    im / √(re * re + im * im) * (im / √(re * re + im * im)) = 1
  rw [div_mul_div_comm, div_mul_div_comm, Real.mul_self_sqrt hpos.le, ← add_div]
  exact div_self hpos.ne'

/-- Rotations can be combined in any grouping. -/
protected theorem mul_assoc (r t q : Rotation ℝ) : r * t * q = r * (t * q) := by
  have hre : (r.re * t.re - r.im * t.im) * q.re - (r.re * t.im + r.im * t.re) * q.im =
      r.re * (t.re * q.re - t.im * q.im) - r.im * (t.re * q.im + t.im * q.re) := by ring
  have him : (r.re * t.re - r.im * t.im) * q.im + (r.re * t.im + r.im * t.re) * q.re =
      r.re * (t.re * q.im + t.im * q.re) + r.im * (t.re * q.re - t.im * q.im) := by ring
  exact congrArg₂ Rotation.mk hre him

/-- Turning by one angle and then by another is turning by their sum. -/
theorem ofAngle_add (θ φ : ℝ) : ofAngle (θ + φ) = ofAngle θ * ofAngle φ := by
  have him : Real.sin (θ + φ) = Real.cos θ * Real.sin φ + Real.sin θ * Real.cos φ := by
    rw [Real.sin_add, add_comm]
  exact congrArg₂ Rotation.mk (Real.cos_add θ φ) him

namespace OnCircle

variable {r t : Rotation ℝ}

theorem mul (hr : r.OnCircle) (ht : t.OnCircle) : (r * t).OnCircle := by
  unfold OnCircle at hr ht
  calc (r * t).re * (r * t).re + (r * t).im * (r * t).im
      = (r.re * t.re - r.im * t.im) * (r.re * t.re - r.im * t.im) +
          (r.re * t.im + r.im * t.re) * (r.re * t.im + r.im * t.re) := rfl
    _ = (r.re * r.re + r.im * r.im) * (t.re * t.re + t.im * t.im) := by ring
    _ = 1 := by rw [hr, ht, one_mul]

theorem inverse (h : r.OnCircle) : r.inverse.OnCircle := by
  show r.re * r.re + -r.im * -r.im = 1
  rw [neg_mul_neg]
  exact h

/-- Turning and turning back. -/
theorem inverse_mul_cancel (h : r.OnCircle) (t : Rotation ℝ) : r.inverse * (r * t) = t := by
  unfold OnCircle at h
  have hre : r.re * (r.re * t.re - r.im * t.im) - -r.im * (r.re * t.im + r.im * t.re) = t.re := by
    linear_combination t.re * h
  have him : r.re * (r.re * t.im + r.im * t.re) + -r.im * (r.re * t.re - r.im * t.im) = t.im := by
    linear_combination t.im * h
  exact congrArg₂ Rotation.mk hre him

theorem ne_zero (h : r.OnCircle) : r.re ≠ 0 ∨ r.im ≠ 0 := by
  refine not_and_or.mp ?_
  rintro ⟨hre, him⟩
  unfold OnCircle at h
  rw [hre, him] at h
  norm_num at h

/-- Normalizing changes nothing on the unit circle. -/
theorem normalize_eq (h : r.OnCircle) : normalize r.re r.im = r := by
  have hroot : Scalar.sqrt (r.re * r.re + r.im * r.im) = 1 := by
    rw [h]
    exact Real.sqrt_one
  unfold normalize
  dsimp only
  rw [hroot, div_one, div_one]

/-- Turning by an angle and back to where one was is turning by the opposite angle. -/
theorem inverse_mul_self (h : r.OnCircle) (θ : ℝ) : (r * ofAngle θ).inverse * r = ofAngle (-θ) := by
  unfold OnCircle at h
  have hre : (r.re * Real.cos θ - r.im * Real.sin θ) * r.re -
      -(r.re * Real.sin θ + r.im * Real.cos θ) * r.im = Real.cos (-θ) := by
    rw [Real.cos_neg]
    linear_combination Real.cos θ * h
  have him : (r.re * Real.cos θ - r.im * Real.sin θ) * r.im +
      -(r.re * Real.sin θ + r.im * Real.cos θ) * r.re = Real.sin (-θ) := by
    rw [Real.sin_neg]
    linear_combination -Real.sin θ * h
  exact congrArg₂ Rotation.mk hre him

end OnCircle

theorem angle_mem (r : Rotation ℝ) : r.angle ∈ Set.Ioc (-Real.pi) Real.pi := Complex.arg_mem_Ioc _

theorem angle_ofAngle {θ : ℝ} (h : θ ∈ Set.Ioc (-Real.pi) Real.pi) : (ofAngle θ).angle = θ := by
  have hpoint : (⟨Real.cos θ, Real.sin θ⟩ : ℂ) = Complex.cos θ + Complex.sin θ * Complex.I := by
    rw [← Complex.ofReal_cos, ← Complex.ofReal_sin]
    exact Complex.mk_eq_add_mul_I _ _
  show Complex.arg ⟨Real.cos θ, Real.sin θ⟩ = θ
  rw [hpoint]
  exact Complex.arg_cos_add_sin_mul_I h

/-- A point of the unit circle is the one at its angle. -/
theorem OnCircle.ofAngle_angle {r : Rotation ℝ} (h : r.OnCircle) : ofAngle r.angle = r := by
  have hnorm : ‖(⟨r.re, r.im⟩ : ℂ)‖ = 1 := by
    rw [Complex.norm_eq_sqrt_sq_add_sq, sq, sq]
    show √(r.re * r.re + r.im * r.im) = 1
    rw [h, Real.sqrt_one]
  have hne : (⟨r.re, r.im⟩ : ℂ) ≠ 0 := norm_ne_zero_iff.mp (hnorm ▸ one_ne_zero)
  have hre : Real.cos (Complex.arg ⟨r.re, r.im⟩) = r.re := by
    rw [Complex.cos_arg hne, hnorm, div_one]
  have him : Real.sin (Complex.arg ⟨r.re, r.im⟩) = r.im := by
    rw [Complex.sin_arg, hnorm, div_one]
  exact congrArg₂ Rotation.mk hre him

/-- Turning adds to the angle, as far as angles go. -/
theorem OnCircle.angle_mul_ofAngle {r : Rotation ℝ} (h : r.OnCircle) {θ : ℝ}
    (hmem : r.angle + θ ∈ Set.Ioc (-Real.pi) Real.pi) : (r * ofAngle θ).angle = r.angle + θ := by
  have hturned : r * ofAngle θ = ofAngle (r.angle + θ) := by rw [ofAngle_add, h.ofAngle_angle]
  rw [hturned, angle_ofAngle hmem]

end Rotation

/-! ## States -/

namespace StateSpace

/-- **No tangent vector leads from a state to itself.** -/
theorem diff_self : ∀ (s : StateSpace) (x : Vec ℝ s.nx), s.diff x x = 0
  | euclidean _, x => by
    show x - x = 0
    ext i
    rw [Vec.get_sub, Vec.get_zero, sub_self]
  | revolute, x => by
    show Revolute.diff x x = 0
    unfold Revolute.diff
    rw [Rotation.angle_inverse_mul, sub_self]
    ext i
    fin_cases i <;> exact (Vec.get_zero _).symm

/-- A state that has an orientation, where states have one. -/
def IsProper : (s : StateSpace) → Vec ℝ s.nx → Prop
  | euclidean _, _ => True
  | revolute, x => x.entry 0 ≠ 0 ∨ x.entry 1 ≠ 0

/-- A tangent vector that turns by an angle in `(-π, π]`, where tangent vectors turn. -/
def IsPrincipal : (s : StateSpace) → Vec ℝ s.ndx → Prop
  | euclidean _, _ => True
  | revolute, dx => dx.entry 0 ∈ Set.Ioc (-Real.pi) Real.pi

/-- What leads from one state to another is principal. -/
theorem isPrincipal_diff : ∀ (s : StateSpace) (x₀ x₁ : Vec ℝ s.nx), s.IsPrincipal (s.diff x₀ x₁)
  | euclidean _, _, _ => trivial
  | revolute, _, _ => Rotation.angle_mem _

/-- A part of a principal tangent vector is principal. -/
theorem IsPrincipal.scale : ∀ {s : StateSpace} {dx : Vec ℝ s.ndx}, s.IsPrincipal dx → ∀ {a : ℝ},
    0 ≤ a → a ≤ 1 → s.IsPrincipal (dx.scale a)
  | euclidean _, _, _, _, _, _ => trivial
  | revolute, dx, h, a, hpos, hle => by
    have hpi := Real.pi_pos
    obtain ⟨hlow, hhigh⟩ : dx.entry 0 ∈ Set.Ioc (-Real.pi) Real.pi := h
    have hentry : (dx.scale a).entry 0 = dx.entry 0 * a := dx.get_scale a 0
    show (dx.scale a).entry 0 ∈ Set.Ioc (-Real.pi) Real.pi
    rw [hentry]
    rcases le_total 0 (dx.entry 0) with hnonneg | hneg
    · exact ⟨by linarith [mul_nonneg hnonneg hpos],
        by linarith [mul_le_of_le_one_right hnonneg hle]⟩
    · have hshort : dx.entry 0 ≤ dx.entry 0 * a := by
        linarith [mul_nonneg (neg_nonneg.mpr hneg) (sub_nonneg.mpr hle)]
      exact ⟨by linarith, by linarith [mul_nonneg (neg_nonneg.mpr hneg) hpos]⟩

theorem onCircle_rotation {x : Vec ℝ 3} (h : revolute.IsProper x) :
    (Revolute.rotation x).OnCircle :=
  Rotation.onCircle_normalize h

/-- A turned state is on the unit circle. -/
theorem rotation_integrate {x : Vec ℝ 3} (h : revolute.IsProper x) (dx : Vec ℝ 2) :
    Revolute.rotation (Revolute.integrate x dx) =
      Revolute.rotation x * Rotation.ofAngle (dx.entry 0) :=
  ((onCircle_rotation h).mul (Rotation.onCircle_ofAngle _)).normalize_eq

/-- A state reached from a proper one is proper. -/
theorem IsProper.integrate : ∀ {s : StateSpace} {x : Vec ℝ s.nx}, s.IsProper x →
    ∀ dx : Vec ℝ s.ndx, s.IsProper (s.integrate x dx)
  | euclidean _, _, _, _ => trivial
  | revolute, _, h, _ => ((onCircle_rotation h).mul (Rotation.onCircle_ofAngle _)).ne_zero

/-- **The way back from a state reached along a tangent vector is the opposite one**, unless that
would be more than half a turn. -/
theorem diff_integrate_self : ∀ {s : StateSpace} {x : Vec ℝ s.nx}, s.IsProper x →
    ∀ {dx : Vec ℝ s.ndx}, s.IsPrincipal (-dx) → s.diff (s.integrate x dx) x = -dx
  | euclidean _, x, _, dx, _ => by
    show x - (x + dx) = -dx
    ext i
    rw [Vec.get_sub, Vec.get_add, Vec.get_neg, sub_add_cancel_left]
  | revolute, x, h, dx, hprincipal => by
    have hentry : (-dx).entry 0 = -dx.entry 0 := dx.get_neg 0
    have hback : -dx.entry 0 ∈ Set.Ioc (-Real.pi) Real.pi := hentry ▸ hprincipal
    have hvelocity :
        Revolute.velocity (Revolute.integrate x dx) = Revolute.velocity x + dx.entry 1 := rfl
    show Revolute.diff (Revolute.integrate x dx) x = -dx
    unfold Revolute.diff
    rw [rotation_integrate h, (onCircle_rotation h).inverse_mul_self, Rotation.angle_ofAngle hback,
      hvelocity, sub_add_cancel_left]
    ext i
    fin_cases i
    · exact (dx.get_neg 0).symm
    · exact (dx.get_neg 1).symm

/-- Going along one tangent vector and then along another is going along their sum. -/
theorem integrate_add : ∀ {s : StateSpace} {x : Vec ℝ s.nx}, s.IsProper x →
    ∀ dx dx' : Vec ℝ s.ndx, s.integrate (s.integrate x dx) dx' = s.integrate x (dx + dx')
  | euclidean _, x, _, dx, dx' => by
    show x + dx + dx' = x + (dx + dx')
    ext i
    simp only [Vec.get_add, add_assoc]
  | revolute, x, h, dx, dx' => by
    have hrotation : Revolute.rotation (Revolute.integrate x dx) * .ofAngle (dx'.entry 0) =
        Revolute.rotation x * .ofAngle ((dx + dx').entry 0) := by
      have hangle : (dx + dx').entry 0 = dx.entry 0 + dx'.entry 0 := dx.get_add dx' 0
      rw [rotation_integrate h, Rotation.mul_assoc, hangle, Rotation.ofAngle_add]
    have hvelocity : Revolute.velocity (Revolute.integrate x dx) + dx'.entry 1 =
        Revolute.velocity x + (dx + dx').entry 1 := by
      have hsum : (dx + dx').entry 1 = dx.entry 1 + dx'.entry 1 := dx.get_add dx' 1
      rw [hsum, ← add_assoc]
      rfl
    show Revolute.integrate (Revolute.integrate x dx) dx' = Revolute.integrate x (dx + dx')
    rw [Revolute.integrate, hrotation, hvelocity]
    rfl

/-- **A tangent vector is what leads to the state reached along it**, unless that would be more than
half a turn. -/
theorem diff_integrate : ∀ {s : StateSpace} {x : Vec ℝ s.nx}, s.IsProper x →
    ∀ {dx : Vec ℝ s.ndx}, s.IsPrincipal dx → s.diff x (s.integrate x dx) = dx
  | euclidean _, x, _, dx, _ => by
    show x + dx - x = dx
    ext i
    rw [Vec.get_sub, Vec.get_add, add_sub_cancel_left]
  | revolute, x, h, dx, hprincipal => by
    have hvelocity :
        Revolute.velocity (Revolute.integrate x dx) = Revolute.velocity x + dx.entry 1 := rfl
    show Revolute.diff x (Revolute.integrate x dx) = dx
    unfold Revolute.diff
    rw [rotation_integrate h, (onCircle_rotation h).inverse_mul_cancel,
      Rotation.angle_ofAngle hprincipal, hvelocity, add_sub_cancel_left]
    ext i
    fin_cases i <;> rfl

/-- What leads from one state reached along a tangent vector to another one is the difference of the
two. -/
theorem diff_integrate_integrate {s : StateSpace} {x : Vec ℝ s.nx} (h : s.IsProper x)
    (dx dx' : Vec ℝ s.ndx) (hprincipal : s.IsPrincipal (dx' - dx)) :
    s.diff (s.integrate x dx) (s.integrate x dx') = dx' - dx := by
  have hsum : dx + (dx' - dx) = dx' := by
    ext i
    rw [Vec.get_add, Vec.get_sub, add_sub_cancel]
  have hfar : s.integrate x dx' = s.integrate (s.integrate x dx) (dx' - dx) := by
    rw [integrate_add h, hsum]
  rw [hfar]
  exact diff_integrate (h.integrate dx) hprincipal

end StateSpace

/-- The model does not lead from a proper state to one that is not. -/
def Model.KeepsProper {s : StateSpace} {nu : ℕ} (m : Model ℝ s nu) : Prop :=
  ∀ {x : Vec ℝ s.nx}, s.IsProper x → ∀ u : Option (Vec ℝ nu), s.IsProper (m.evaluate x u).next

/-- Whether a model was brought along from outside, with finite differences around it or not. -/
def Model.isCustom : {s : StateSpace} → {nu : ℕ} → Model ℝ s nu → Bool
  | _, _, .custom _ => true
  | _, _, .differenced _ inner => inner.isCustom
  | _, _, _ => false

/-- **No model of the library leads from a proper state to one that is not.** -/
theorem Model.keepsProper : ∀ {s : StateSpace} {nu : ℕ} {m : Model ℝ s nu}, m.isCustom = false →
    m.KeepsProper
  | _, _, .lqr _, _, _, _, _ => trivial
  | _, _, .unicycle _, _, _, _, _ => trivial
  | _, _, .pendulum _, _, _, h, some _ => StateSpace.IsProper.integrate (s := .revolute) h _
  | _, _, .pendulum _, _, _, h, none => h
  | _, _, .integrator _, _, _, _, _ => trivial
  | _, _, .differenced _ inner, hlib, _, h, u => keepsProper (m := inner) hlib h u
  | _, _, .custom _, hlib, _, _, _ => nomatch hlib

end Shooting
