import Shooting.Proofs.Checked
import Shooting.Proofs.Exact.PseudoInverse
import Shooting.StageReport

/-!
# Quasi-static controls of linear-quadratic stages

The search for a control that keeps a state solves a linear condition at every step, and for a
linear-quadratic stage that is the condition itself. The first step leads to the least-squares
control (`Lqr.step_zero`). The second one leads nowhere, even if that control does not keep the
state: what is left to be done about it is nothing that the pseudo-inverse sees
(`Lqr.step_holding`). So two steps suffice for every tolerance, and one step does if the control is
no longer than the tolerance, since it is the step that is judged
(`Lqr.quasi_static_in_two_steps`).

The routine for pseudo-inverses may be any. Of what it makes of the effect `B` of the control no
more is used than `P B P = P`, and `B P B = B` where a state can be kept.
-/

namespace Shooting

open Matrix

variable {nx nu : ℕ}

namespace Lqr

variable {p : Lqr ℝ nx nu} {P : Mat ℝ nu nx}

/-- The control that the search ends with, for the pseudo-inverse `P` of the control's effect. -/
noncomputable def holding (p : Lqr ℝ nx nu) (P : Mat ℝ nu nx) (x : Vec ℝ nx) : Vec ℝ nu :=
  -(P * ((p.fx - .identity nx) * x + p.f0))

/-- How far a stage moves a state under a control. -/
noncomputable def drift (p : Lqr ℝ nx nu) (x : Vec ℝ nx) (u : Vec ℝ nu) : Vec ℝ nx :=
  (p.evaluate x (some u)).next - x

theorem drift_eq (p : Lqr ℝ nx nu) (x : Vec ℝ nx) (u : Vec ℝ nu) :
    p.drift x u = (p.fx - .identity nx) * x + p.f0 + p.fu * u := by
  have hnext : (p.evaluate x (some u)).next = p.fx * x + p.fu * u + p.f0 := rfl
  ext i
  unfold drift
  rw [hnext, Vec.get_sub, Vec.get_add, Vec.get_add, Vec.get_add, Vec.get_add, Mat.sub_mulVec,
    Vec.get_sub, Mat.identity_mul]
  ring

/-- The first step of the search leads to the control that it ends with. -/
theorem step_zero (p : Lqr ℝ nx nu) (P : Mat ℝ nu nx) (x : Vec ℝ nx) :
    -(P * p.drift x 0) = p.holding P x := by
  rw [drift_eq, Mat.mul_zeroVec, Vec.add_zero]
  rfl

/-- The second step leads nowhere, also if the state moves. -/
theorem step_holding (h : P * p.fu * P = P) (x : Vec ℝ nx) :
    -(P * p.drift x (p.holding P x)) = 0 := by
  let d := (p.fx - .identity nx) * x + p.f0
  have hback : P * (p.fu * -(P * d)) = -(P * d) := by
    rw [Mat.mul_neg, Mat.mul_neg, ← Mat.mul_mulVec, ← Mat.mul_mulVec, h]
  have hmoves : P * p.drift x (p.holding P x) = P * d + -(P * d) := by
    rw [drift_eq, Mat.mul_add]
    exact congrArg (P * d + ·) hback
  rw [hmoves]
  ext i
  rw [Vec.get_neg, Vec.get_add, Vec.get_neg, add_neg_cancel, neg_zero, Vec.get_zero]

/-- A control keeps a state if the state does not drift under it. -/
theorem next_eq_iff_drift {x : Vec ℝ nx} {u : Vec ℝ nu} :
    (p.evaluate x (some u)).next = x ↔ p.drift x u = 0 := by
  unfold drift
  simp only [Vec.ext_iff, Vec.get_sub, Vec.get_zero, sub_eq_zero]

/-- Where some control keeps the state, the one that the search ends with does. -/
theorem next_holding (h : p.fu * P * p.fu = p.fu) {x : Vec ℝ nx} {v : Vec ℝ nu}
    (hv : (p.evaluate x (some v)).next = x) : (p.evaluate x (some (p.holding P x))).next = x := by
  let d := (p.fx - .identity nx) * x + p.f0
  have hsum : d + p.fu * v = 0 := by
    rw [← p.drift_eq x v]
    exact next_eq_iff_drift.mp hv
  have hd : d = -(p.fu * v) := by
    ext i
    have hentry := congrArg (Vec.get · i) hsum
    rw [Vec.get_add, Vec.get_zero] at hentry
    rw [Vec.get_neg]
    exact eq_neg_of_add_eq_zero_left hentry
  have hholds : p.fu * p.holding P x = p.fu * v := by
    show p.fu * -(P * d) = p.fu * v
    rw [hd, Mat.mul_neg, Mat.mul_neg, Mat.mul_neg, ← Mat.mul_mulVec, ← Mat.mul_mulVec, h]
    ext i
    rw [Vec.get_neg, Vec.get_neg, neg_neg]
  rw [next_eq_iff_drift, drift_eq, hholds]
  exact hsum

/-! ## The search -/

variable [PseudoInverting ℝ]

/-- One step of the search. -/
theorem newton_succ (hP : PseudoInverting.pseudoInverse p.fu 1e-12 = .ok P) (x : Vec ℝ nx)
    (tol : ℝ) (k : ℕ) (u : Vec ℝ nu) (left : Option (StageData ℝ nx nx nu)) :
    ((Model.lqr p).newton x tol (k + 1) u left).outcome =
      if (-(P * p.drift x u)).norm ≤ tol then .ok (u + -(P * p.drift x u))
      else ((Model.lqr p).newton x tol k (u + -(P * p.drift x u))
        (some ((Model.lqr p).measure x (some u)))).outcome := by
  have hstep : Model.newtonStep? (.euclidean nx) x ((Model.lqr p).measure x (some u)) =
      .ok (-(P * p.drift x u)) := by
    show (PseudoInverting.pseudoInverse p.fu 1e-12).map (fun P => -(P * p.drift x u)) = _
    rw [hP]
    rfl
  rw [Model.newton]
  dsimp only
  rw [hstep]
  simp only [Vec.isFinite_real, Bool.not_true, Bool.false_eq_true, if_false]
  split <;> rfl

/-- The outcome of the search, by the number of steps that it is given. -/
theorem newton_outcome (hP : PseudoInverting.pseudoInverse p.fu 1e-12 = .ok P)
    (hPP : P * p.fu * P = P) (x : Vec ℝ nx) (tol : ℝ) :
    ((Model.lqr p).newton x tol 0 0 none).outcome = .error .exhausted ∧
      ((Model.lqr p).newton x tol 1 0 none).outcome =
        (if (p.holding P x).norm ≤ tol then .ok (p.holding P x) else .error .exhausted) ∧
      (0 ≤ tol → ∀ n, ((Model.lqr p).newton x tol (n + 2) 0 none).outcome =
        .ok (p.holding P x)) := by
  have hfirst : (0 : Vec ℝ nu) + p.holding P x = p.holding P x := Vec.zero_add _
  refine ⟨rfl, ?_, ?_⟩
  · rw [newton_succ hP, step_zero, hfirst]
    rfl
  · intro htol n
    have hnorm : (0 : Vec ℝ nu).norm ≤ tol := by
      rw [Vec.norm_zero]
      exact htol
    rw [newton_succ hP, step_zero, hfirst, newton_succ hP, step_holding hPP, if_pos hnorm,
      Vec.add_zero, ite_self]

/-- What a search is answered with. -/
theorem quasiStaticInto_eq (hnu : 0 < nu) (p : Lqr ℝ nx nu) (r : StageReport ℝ) (x : Vec ℝ nx)
    (n : ℕ) (tol : ℝ) :
    ((Model.lqr p).quasiStaticInto r x.toList n tol).1 =
      match ((Model.lqr p).newton x tol n 0 none).outcome with
      | .ok u => .ok u.toList
      | .error f => .error (f.toRefusal "ActionModelLqr" n) := by
  have hstate := Model.state?_toList (.model "ActionModelLqr") (s := .euclidean nx) x
  have hsearch : (Model.lqr p).quasiStatic x n tol = (Model.lqr p).newton x tol n 0 none := by
    unfold Model.quasiStatic
    simp only [Model.hasQuasiStatic, Bool.not_true, Bool.false_eq_true, if_false, hnu.ne']
    rfl
  unfold Model.quasiStaticInto
  simp only [Model.hasQuasiStatic, Bool.not_true, Bool.false_eq_true, if_false, Model.evaluator,
    Model.name, hstate, hsearch]
  cases ((Model.lqr p).newton x tol n 0 none).outcome <;> rfl

/-- **The search solves every linear-quadratic stage in two steps**, whatever the tolerance is. With
one step it does if the control is no longer than the tolerance, and with none it does not. The
control keeps the state if any does. -/
theorem quasi_static_in_two_steps (hnu : 0 < nu) {p : Lqr ℝ nx nu} {P : Mat ℝ nu nx}
    (hP : PseudoInverting.pseudoInverse p.fu 1e-12 = .ok P) (hPP : P * p.fu * P = P)
    (x : Vec ℝ nx) :
    let u : Vec ℝ nu := -(P * ((p.fx - .identity nx) * x + p.f0))
    let answer (r : StageReport ℝ) (n : ℕ) (tol : ℝ) :=
      ((Model.lqr p).quasiStaticInto r x.toList n tol).1
    (∀ r n tol, 0 ≤ tol → 2 ≤ n → answer r n tol = .ok u.toList) ∧
      (∀ r tol, answer r 1 tol = if u.norm ≤ tol then .ok u.toList
        else .error (.error (.convergenceFailure (.quasiStatic "ActionModelLqr" 1)))) ∧
      (∀ r tol, answer r 0 tol =
        .error (.error (.convergenceFailure (.quasiStatic "ActionModelLqr" 0)))) ∧
      (p.fu * P * p.fu = p.fu → (∃ v, (p.evaluate x (some v)).next = x) →
        (p.evaluate x (some u)).next = x) := by
  intro u answer
  have hanswer (r : StageReport ℝ) (n : ℕ) (tol : ℝ) := quasiStaticInto_eq hnu p r x n tol
  refine ⟨?_, ?_, ?_, ?_⟩
  · intro r n tol htol hn
    obtain ⟨k, rfl⟩ := Nat.exists_eq_add_of_le' hn
    have houtcome := (newton_outcome hP hPP x tol).2.2 htol k
    show ((Model.lqr p).quasiStaticInto r x.toList (k + 2) tol).1 = _
    rw [hanswer, houtcome]
    rfl
  · intro r tol
    have houtcome := (newton_outcome hP hPP x tol).2.1
    show ((Model.lqr p).quasiStaticInto r x.toList 1 tol).1 = _
    rw [hanswer, houtcome]
    by_cases hshort : (p.holding P x).norm ≤ tol
    · rw [if_pos hshort]
      exact (if_pos hshort).symm
    · rw [if_neg hshort]
      exact (if_neg hshort).symm
  · intro r tol
    exact hanswer r 0 tol
  · rintro h ⟨v, hv⟩
    exact next_holding h hv

omit [PseudoInverting ℝ] in
/-- A control that pushes along `(3, 4)` against a drift along the first axis. None keeps the origin,
and the search ends with what a control can do about it. Pseudo-inverses are those by singular
values. -/
theorem quasi_static_in_two_steps_adrift :
    letI : PseudoInverting ℝ := .bySingularValues
    let b : Mat ℝ 2 1 := .ofFn fun i _ => if i = 0 then 3 else 4
    let P : Mat ℝ 1 2 := b.transpose.scale (1 / (b.col 0).normSq)
    let p : Lqr ℝ 2 1 := { driftless (.identity 2) b 0 0 with f0 := .single 0 1 }
    PseudoInverting.pseudoInverse p.fu 1e-12 = .ok P ∧ P * p.fu * P = P ∧
      (∀ v, (p.evaluate 0 (some v)).next ≠ 0) ∧
      ∃ u : Vec ℝ 1, u.get 0 = -0.12 ∧ ∀ r : StageReport ℝ,
        ((Model.lqr p).quasiStaticInto r (0 : Vec ℝ 2).toList 2 0).1 = .ok u.toList := by
  let _ : PseudoInverting ℝ := .bySingularValues
  intro b P p
  have hsquare : (b.col 0).normSq = 25 := by
    rw [Vec.normSq_real, dotProduct, Fin.sum_univ_two]
    norm_num [b, Mat.col]
  have hnorm : 1e-12 < (b.col 0).norm := by
    show 1e-12 < √(b.col 0).normSq
    rw [hsquare, Real.lt_sqrt (by norm_num)]
    norm_num
  have hne : b.col 0 ≠ 0 := by
    intro h
    rw [← Vec.normSq_eq_zero_iff, hsquare] at h
    norm_num at h
  have hP : PseudoInverting.pseudoInverse p.fu 1e-12 = .ok P :=
    PseudoInverting.bySingularValues_eq_ok (Mat.pseudoInverse?_column (by norm_num) hnorm)
  have hPP : P * p.fu * P = P := (Mat.mul_mul_column hne).1
  have hmoves (v : Vec ℝ 1) : (p.evaluate 0 (some v)).next ≠ 0 := by
    intro h
    have hnext : p.drift 0 v = 0 := next_eq_iff_drift.mp h
    have hfirst : 1 + 3 * v.get 0 = 0 := by
      simpa [drift_eq, p, driftless, Mat.mul_zeroVec, Mat.get_mulVec_sum, b] using
        congrArg (Vec.get · 0) hnext
    have hsecond : v.get 0 = 0 := by
      simpa [drift_eq, p, driftless, Mat.mul_zeroVec, Mat.get_mulVec_sum, b] using
        congrArg (Vec.get · 1) hnext
    rw [hsecond] at hfirst
    norm_num at hfirst
  have hcontrol : (p.holding P 0).get 0 = -(3 * 25⁻¹) := by
    simp [holding, p, P, driftless, hsquare, Mat.mul_zeroVec, Mat.get_mulVec_sum, b]
  have hsearch := (quasi_static_in_two_steps one_pos hP hPP 0).1
  refine ⟨hP, hPP, hmoves, p.holding P 0, hcontrol.trans (by norm_num), fun r => ?_⟩
  exact hsearch r 2 0 le_rfl le_rfl

end Lqr

end Shooting
