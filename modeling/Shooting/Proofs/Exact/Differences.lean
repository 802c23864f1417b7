import Shooting.Proofs.Exact.Symmetry
import Shooting.Proofs.Loose.Models
import Shooting.StageReport

/-!
# Finite differences of linear-quadratic stages

The cost of a linear-quadratic stage is a quadratic whose Hessian consists of the symmetric parts of
the weights (`Lqr.evaluate_displaced`), so its second differences are the entries of that Hessian,
whatever their step is (`Lqr.secondDifference_eq`). First differences of the dynamics are exact,
too. Those of the cost are not: along each coordinate they see half of what the slope gains over the
step (`Lqr.costDifference_state`). That is the one bias of finite differences here, and
`Lqr.differences` has it written out.

Wrappers do not differentiate each other. Each of them evaluates the innermost model, so that of
wrappers around wrappers only the outermost counts (`Model.evaluate_wrapped`).
-/

namespace Shooting

open Matrix

variable {n ndx nx nu : ℕ}

/-- The entries on the diagonal. -/
def Mat.diag (a : Mat ℝ n n) : Vec ℝ n := .ofFn fun i => a.get i i

@[simp] theorem Mat.get_diag (a : Mat ℝ n n) (i : Fin n) : a.diag.get i = a.get i i :=
  Vec.get_ofFn _ i

/-- Adding to one entry is adding a vector of one entry. -/
theorem Vec.put_add (v : Vec ℝ n) (i : Fin n) (h : ℝ) :
    v.put i (v.get i + h) = v + .single i h := by
  ext k
  rw [get_put, get_add, get_single]
  by_cases hk : k = i
  · rw [hk, if_pos rfl, if_pos rfl]
  · rw [if_neg hk, if_neg (Fin.val_ne_of_ne hk), add_zero]

/-! ## Directions -/

namespace Differencing.Direction

/-- The displacement by `h` along a direction. -/
noncomputable def displacement (h : ℝ) (a : Direction ndx nu) : Displacement ℝ ndx nu :=
  ⟨(a.along h).1, (a.along h).2⟩

theorem addTo_eq (h : ℝ) (z : Vec ℝ ndx × Vec ℝ nu) : ∀ a : Direction ndx nu,
    a.addTo h z = (z.1 + (a.displacement h).state, z.2 + (a.displacement h).control)
  | state i => congrArg₂ Prod.mk (z.1.put_add i h) z.2.add_zero.symm
  | control j => congrArg₂ Prod.mk z.1.add_zero.symm (z.2.put_add j h)

end Differencing.Direction

open Differencing (Direction)

/-- The second derivative of a stage's cost along two directions. -/
def Expansion.second (e : Expansion ℝ ndx nu) : Direction ndx nu → Direction ndx nu → ℝ
  | .state i, .state j => e.lxx.get i j
  | .state i, .control j => e.lxu.get i j
  | .control j, .state i => e.lxu.get i j
  | .control i, .control j => e.luu.get i j

theorem Expansion.mixed_displacement (e : Expansion ℝ ndx nu) (h : ℝ) (a b : Direction ndx nu) :
    e.mixed (a.displacement h) (b.displacement h) = e.second a b * (h * h) := by
  unfold mixed Direction.displacement
  cases a <;> cases b <;>
    simp only [Direction.along, second, Mat.dot_mul_single, Mat.mul_zeroVec, Vec.dot_zero,
      Vec.zero_dot] <;>
    ring

/-! ## Differences -/

namespace Lqr

variable {d : Differencing ℝ}

/-- The cost at a displacement, by the quadratic of the symmetric weights. -/
theorem perturbedCost_eq (p : Lqr ℝ nx nu) (x : Vec ℝ nx) (u : Option (Vec ℝ nu))
    (δ : Displacement ℝ nx nu) :
    Differencing.perturbedCost (.euclidean nx) p.evaluate x u (δ.state, δ.control) =
      (p.evaluate x u).cost + (p.symmetrized.expand x u).change δ := by
  rw [← p.evaluate_symmetrized x u]
  exact congrArg Evaluation.cost (p.evaluate_displaced x u δ)

/-- **Second differences are exact.** -/
theorem secondDifference_eq (h : d.curvatureStep ≠ 0) (p : Lqr ℝ nx nu) (x : Vec ℝ nx)
    (u : Option (Vec ℝ nu)) (a b : Direction nx nu) :
    d.secondDifference (.euclidean nx) p.evaluate x u a b =
      (p.symmetrized.expand x u).second a b := by
  let e := p.symmetrized.expand x u
  let δ := a.displacement d.curvatureStep
  let δ' := b.displacement d.curvatureStep
  have hsymm : e.IsSymmetric :=
    Model.isSymmetric_lqr p.symmetrized p.isSymmetric_symmetrized.lxx p.isSymmetric_symmetrized.luu
      x u
  have hboth : Differencing.perturbedCost (.euclidean nx) p.evaluate x u
      (b.addTo d.curvatureStep (a.addTo d.curvatureStep (0, 0))) =
        (p.evaluate x u).cost + (e.change δ + e.change δ' + e.mixed δ δ') := by
    rw [Direction.addTo_eq, Direction.addTo_eq, Vec.zero_add, Vec.zero_add, ← e.change_add hsymm]
    exact p.perturbedCost_eq x u ⟨_, _⟩
  have hfirst : Differencing.perturbedCost (.euclidean nx) p.evaluate x u
      (a.along d.curvatureStep) = (p.evaluate x u).cost + e.change δ := p.perturbedCost_eq x u δ
  have hsecond : Differencing.perturbedCost (.euclidean nx) p.evaluate x u
      (b.along d.curvatureStep) = (p.evaluate x u).cost + e.change δ' := p.perturbedCost_eq x u δ'
  unfold Differencing.secondDifference
  dsimp only
  rw [hboth, hfirst, hsecond, div_eq_iff (mul_ne_zero h h), ← e.mixed_displacement]
  ring

/-! First differences: of the state with a control or without, and of the control. -/

section

variable (p : Lqr ℝ nx nu) (x : Vec ℝ nx)

theorem evaluate_state (u : Option (Vec ℝ nu)) (dx : Vec ℝ nx) :
    p.evaluate (x + dx) u = ((Model.lqr p.symmetrized).measure x u).predicted ⟨dx, 0⟩ := by
  have hstay : u.map (· + 0) = u := by
    cases u with
    | some u => exact congrArg some u.add_zero
    | none => rfl
  rw [← p.evaluate_displaced x u ⟨dx, 0⟩, hstay]

theorem evaluate_control (u du : Vec ℝ nu) :
    p.evaluate x (some (u + du)) =
      ((Model.lqr p.symmetrized).measure x (some u)).predicted ⟨0, du⟩ := by
  rw [← p.evaluate_displaced x (some u) ⟨0, du⟩, Vec.add_zero]
  rfl

end

section

variable {h : ℝ} (hne : h ≠ 0) (p : Lqr ℝ nx nu) (x : Vec ℝ nx)
include hne

/-- First differences of the dynamics are exact. -/
theorem nextDifference_state (u : Option (Vec ℝ nu)) (i j : Fin nx) :
    ((p.evaluate (x + .single j h) u).next - (p.evaluate x u).next).get i / h =
      (p.symmetrized.expand x u).fx.get i j := by
  rw [p.evaluate_state, ← p.evaluate_symmetrized x u, div_eq_iff hne]
  simp only [StageData.predicted, Model.measure, Model.evaluate, Model.expand, Mat.mul_zeroVec,
    Vec.add_zero, Vec.add_sub_left, Mat.get_mul_single]

theorem nextDifference_control (u : Vec ℝ nu) (i : Fin nx) (j : Fin nu) :
    ((p.evaluate x (some (u + .single j h))).next - (p.evaluate x (some u)).next).get i / h =
      p.fu.get i j := by
  rw [p.evaluate_control, ← p.evaluate_symmetrized x (some u), div_eq_iff hne]
  simp only [StageData.predicted, Model.measure, Model.evaluate, Model.expand, Mat.mul_zeroVec,
    Vec.zero_add, Vec.add_sub_left, Mat.get_mul_single]
  rfl

/-- First differences of the cost see half of what the slope gains over the step. -/
theorem costDifference_state (u : Option (Vec ℝ nu)) (i : Fin nx) :
    ((p.evaluate (x + .single i h) u).cost - (p.evaluate x u).cost) / h =
      (p.symmetrized.expand x u).lx.get i + p.lxx.get i i * (h * 0.5) := by
  have hlxx : (p.symmetrized.expand x u).lxx = p.lxx.symmetrized := by cases u <;> rfl
  rw [p.evaluate_state, ← p.evaluate_symmetrized x u, div_eq_iff hne]
  simp only [StageData.predicted, Model.measure, Model.evaluate, Model.expand,
    Expansion.change_state, Vec.dot_single, hlxx, Mat.dot_mul_single, Mat.get_symmetrized_self]
  ring

theorem costDifference_control (u : Vec ℝ nu) (j : Fin nu) :
    ((p.evaluate x (some (u + .single j h))).cost - (p.evaluate x (some u)).cost) / h =
      (p.symmetrized.expand x (some u)).lu.get j + p.luu.get j j * (h * 0.5) := by
  have hluu : (p.symmetrized.expand x (some u)).luu = p.luu.symmetrized := rfl
  rw [p.evaluate_control, ← p.evaluate_symmetrized x (some u), div_eq_iff hne]
  simp only [StageData.predicted, Model.measure, Model.evaluate, Model.expand,
    Expansion.change_control, Vec.dot_single, hluu, Mat.dot_mul_single, Mat.get_symmetrized_self]
  ring

end

/-- What finite differences with first step `h` find at a state and a control, or at a state at the
end. -/
noncomputable def differences (p : Lqr ℝ nx nu) (h : ℝ) (x : Vec ℝ nx) :
    Option (Vec ℝ nu) → Expansion ℝ nx nu
  | some u =>
    { fx := p.fx
      fu := p.fu
      lx := p.lxx.symmetrized * x + p.lxu * u + p.lx + p.lxx.diag.scale (h * 0.5)
      lu := p.luu.symmetrized * u + p.lxu.transpose * x + p.lu + p.luu.diag.scale (h * 0.5)
      lxx := p.lxx.symmetrized
      luu := p.luu.symmetrized
      lxu := p.lxu }
  | none =>
    { fx := .identity nx
      fu := 0
      lx := p.lxx.symmetrized * x + p.lx + p.lxx.diag.scale (h * 0.5)
      lu := 0
      lxx := p.lxx.symmetrized
      luu := 0
      lxu := 0 }

section

variable (p : Lqr ℝ nx nu) (x : Vec ℝ nx)

theorem fx_expand (hstep : d.step ≠ 0) (u : Option (Vec ℝ nu)) :
    (d.expand (.euclidean nx) p.evaluate x u).fx = (p.symmetrized.expand x u).fx := by
  ext i j
  refine Eq.trans ?_ (nextDifference_state hstep p x u i j)
  cases u <;> simp [Differencing.expand, Mat.ofCols, StateSpace.diff, StateSpace.integrate]

theorem lx_expand (hstep : d.step ≠ 0) (u : Option (Vec ℝ nu)) :
    (d.expand (.euclidean nx) p.evaluate x u).lx =
      (p.symmetrized.expand x u).lx + p.lxx.diag.scale (d.step * 0.5) := by
  ext i
  rw [Vec.get_add, Vec.get_scale, Mat.get_diag, ← costDifference_state hstep p x u i]
  cases u <;> simp [Differencing.expand, StateSpace.integrate]

theorem lxx_expand (hcurvature : d.curvatureStep ≠ 0) (u : Option (Vec ℝ nu)) :
    (d.expand (.euclidean nx) p.evaluate x u).lxx = p.lxx.symmetrized := by
  have hsecond := p.secondDifference_eq hcurvature x u
  have hcomm := (Mat.isSymmetric_symmetrized p.lxx).get_comm
  ext i j
  cases u <;>
    simp only [Differencing.expand, Mat.get_ofFn, hsecond, Expansion.second, expand, symmetrized,
      hcomm j i, ite_self]

theorem fu_expand (hstep : d.step ≠ 0) (u : Vec ℝ nu) :
    (d.expand (.euclidean nx) p.evaluate x (some u)).fu = p.fu := by
  ext i j
  refine Eq.trans ?_ (nextDifference_control hstep p x u i j)
  simp [Differencing.expand, Mat.ofCols, StateSpace.diff, Vec.put_add]

theorem lu_expand (hstep : d.step ≠ 0) (u : Vec ℝ nu) :
    (d.expand (.euclidean nx) p.evaluate x (some u)).lu =
      (p.symmetrized.expand x (some u)).lu + p.luu.diag.scale (d.step * 0.5) := by
  ext j
  rw [Vec.get_add, Vec.get_scale, Mat.get_diag, ← costDifference_control hstep p x u j]
  simp [Differencing.expand, Vec.put_add]

theorem luu_expand (hcurvature : d.curvatureStep ≠ 0) (u : Vec ℝ nu) :
    (d.expand (.euclidean nx) p.evaluate x (some u)).luu = p.luu.symmetrized := by
  have hsecond := p.secondDifference_eq hcurvature x (some u)
  have hcomm := (Mat.isSymmetric_symmetrized p.luu).get_comm
  ext i j
  simp only [Differencing.expand, Mat.get_ofFn, hsecond, Expansion.second, expand, symmetrized,
    hcomm j i, ite_self]

theorem lxu_expand (hcurvature : d.curvatureStep ≠ 0) (u : Vec ℝ nu) :
    (d.expand (.euclidean nx) p.evaluate x (some u)).lxu = p.lxu := by
  ext i j
  simp only [Differencing.expand, Mat.get_ofFn, p.secondDifference_eq hcurvature x (some u),
    Expansion.second, expand, symmetrized]

end

/-- **Finite differences of a linear-quadratic stage.** -/
theorem expand_eq_differences (hstep : d.step ≠ 0) (hcurvature : d.curvatureStep ≠ 0)
    (p : Lqr ℝ nx nu) (x : Vec ℝ nx) (u : Option (Vec ℝ nu)) :
    d.expand (.euclidean nx) p.evaluate x u = p.differences d.step x u := by
  have hfx := p.fx_expand x hstep u
  have hlx := p.lx_expand x hstep u
  have hlxx := p.lxx_expand x hcurvature u
  cases u with
  | some u =>
    exact Expansion.mk.injEq .. ▸ ⟨hfx, p.fu_expand x hstep u, hlx, p.lu_expand x hstep u, hlxx,
      p.luu_expand x hcurvature u, p.lxu_expand x hcurvature u⟩
  | none => exact Expansion.mk.injEq .. ▸ ⟨hfx, rfl, hlx, rfl, hlxx, rfl, rfl⟩

end Lqr

/-! ## Wrappers -/

/-- Whatever it is wrapped in, a model is evaluated itself. -/
theorem Model.evaluate_wrapped {s : StateSpace} (m : Model ℝ s nu) (x : Vec ℝ s.nx)
    (u : Option (Vec ℝ nu)) : ∀ ds : List (Differencing ℝ),
    (ds.foldr .differenced m).evaluate x u = m.evaluate x u
  | [] => rfl
  | _ :: ds => m.evaluate_wrapped x u ds

/-- Finite differences write derivatives and nothing else. -/
theorem Model.expandInto_differenced {s : StateSpace} (m : Model ℝ s nu) (d : Differencing ℝ)
    (r : StageReport ℝ) (x : Vec ℝ s.nx) (u : Option (Vec ℝ nu)) :
    (differenced d m).expandInto r x.toList (u.map Vec.toList) =
      .ok (r.withExpansion ((differenced d m).expand x u)) := by
  have hexpand : (differenced d m).expand? x.toList (u.map Vec.toList) =
      .ok ((differenced d m).expand x u) := by
    cases u with
    | some u => simp [expand?, arguments?, state?, control?]; rfl
    | none => simp [expand?, arguments?, state?]
  exact congrArg (Except.map r.withExpansion) hexpand

namespace Lqr

/-- **Finite differences of a linear-quadratic stage are exact up to one bias.** However many
wrappers there are between the two, what finite differences with any two steps write into the data
of the stage are its derivatives with symmetric weights, the gradients of the cost being off by half
the first step times the diagonal of the weights. Cost and next state stay what they were. The same
is what comes of filling in the matrices entry by entry and cutting the Hessian into blocks. -/
theorem differences_exact_up_to_bias (p : Lqr ℝ nx nu) {d : Differencing ℝ} (hstep : d.step ≠ 0)
    (hcurvature : d.curvatureStep ≠ 0) (inner : List (Differencing ℝ)) (x : Vec ℝ nx)
    (u : Option (Vec ℝ nu)) :
    let m : Model ℝ (.euclidean nx) nu := .differenced d (inner.foldr .differenced (.lqr p))
    (∀ r : StageReport ℝ, ∃ r', m.expandInto r x.toList (u.map Vec.toList) = .ok r' ∧
      r' = r.withExpansion (p.differences d.step x u) ∧ r'.cost = r.cost ∧ r'.next = r.next) ∧
    m.expandLoose x.toList (u.map Vec.toList) = .ok (p.differences d.step x u).toLoose := by
  intro m
  have hinner : (inner.foldr .differenced (.lqr p) : Model ℝ (.euclidean nx) nu).evaluate =
      p.evaluate := by
    funext x u
    exact (Model.lqr p).evaluate_wrapped x u inner
  have hexpand : m.expand x u = p.differences d.step x u := by
    show d.expand (.euclidean nx) (Model.evaluate _) x u = _
    rw [hinner]
    exact expand_eq_differences hstep hcurvature p x u
  refine ⟨?_, ?_⟩
  · intro r
    refine ⟨_, ?_, rfl, rfl, rfl⟩
    rw [← hexpand]
    exact Model.expandInto_differenced (s := .euclidean nx) _ d r x u
  · rw [← hexpand]
    exact m.expandLoose_toList x u

/-- At rest at the origin, where the slope is zero, differences of unit length through two wrappers
see half of the weight of the first coordinate, and split a weight that stands on one side of the
diagonal. -/
theorem differences_exact_up_to_bias_skew :
    let p : Lqr ℝ 2 1 := driftless (.identity 2) 0 (.ofFn fun i _ => if i = 0 then 1 else 0) 0
    let m : Model ℝ (.euclidean 2) 1 :=
      .differenced ⟨1, 1⟩ (.differenced .standard (.differenced .standard (.lqr p)))
    ¬ p.lxx.IsSymmetric ∧
      m.expandLoose (0 : Vec ℝ 2).toList none = .ok (p.differences 1 0 none).toLoose ∧
      (p.differences 1 0 none).lx.get 0 = 0.5 ∧ (p.differences 1 0 none).lxx.get 1 0 = 0.5 := by
  intro p m
  have hone : (1 : ℝ) ≠ 0 := one_ne_zero
  have hexact := (p.differences_exact_up_to_bias (d := ⟨1, 1⟩) hone hone [.standard, .standard] 0
    none).2
  have hskew : ¬ p.lxx.IsSymmetric := by
    intro h
    have hentry := h.get_comm 0 1
    simp [p, driftless] at hentry
  refine ⟨hskew, hexact, ?_, ?_⟩
  · simp [differences, p, driftless, Mat.diag, Mat.mul_zeroVec]
  · simp [differences, p, driftless, Mat.symmetrized]

end Lqr

end Shooting
