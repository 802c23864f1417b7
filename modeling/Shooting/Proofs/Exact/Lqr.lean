import Shooting.Proofs.Exact.Quadratic

/-!
# Linear dynamics and quadratic costs are their own expansions

Around every state and control, a linear-quadratic stage with symmetric weights is exactly the
linear dynamics and the quadratic cost that its derivatives describe (`Lqr.next_evaluate`,
`Lqr.cost_evaluate`). Summed along two paths of a problem made of such stages, the second-order
change of the cost is the difference of the two costs (`Lqrs.totalCost_evaluations`).
-/

namespace Shooting

open Matrix

variable {nx nu : ℕ} {nus : List ℕ}

/-! ## One stage -/

namespace Lqr

/-- The weights of the squares are symmetric. -/
structure IsSymmetric (p : Lqr ℝ nx nu) : Prop where
  lxx : p.lxx.IsSymmetric
  luu : p.luu.IsSymmetric

/-- **The dynamics are linear.** -/
theorem next_evaluate (p : Lqr ℝ nx nu) (x : Vec ℝ nx) (u : Vec ℝ nu) (δ : Displacement ℝ nx nu) :
    (p.evaluate (x + δ.state) (some (u + δ.control))).next =
      (p.evaluate x (some u)).next +
        ((p.expand x (some u)).fx * δ.state + (p.expand x (some u)).fu * δ.control) := by
  ext i
  simp only [evaluate, expand, Vec.get_add, Mat.get_mulVec_real, Vec.toFun_add, mulVec_add,
    Pi.add_apply]
  ring

theorem stateCost_add (p : Lqr ℝ nx nu) (hxx : p.lxx.IsSymmetric) (x dx : Vec ℝ nx) :
    p.stateCost (x + dx) =
      p.stateCost x + (p.lxx * x + p.lx).dot dx + dx.dot (p.lxx * dx) / 2 := by
  have hswap := hxx.form_comm x.get dx.get
  simp only [stateCost, Vec.dot_real, Vec.toFun_add, Mat.get_mulVec_real, mulVec_add,
    dotProduct_add, add_dotProduct, hswap, dotProduct_comm (_ *ᵥ x.get)]
  ring

/-- **The cost is quadratic.** -/
theorem cost_evaluate {p : Lqr ℝ nx nu} (h : p.IsSymmetric) (x : Vec ℝ nx) (u : Vec ℝ nu)
    (δ : Displacement ℝ nx nu) :
    (p.evaluate (x + δ.state) (some (u + δ.control))).cost =
      (p.evaluate x (some u)).cost + (p.expand x (some u)).change δ := by
  have hswap := h.luu.form_comm u.get δ.control.get
  simp only [evaluate, expand, Expansion.change, stateCost_add p h.lxx, Vec.dot_real, Vec.toFun_add,
    Mat.get_mulVec_real, Mat.toMatrix_transpose, mulVec_add, dotProduct_add, add_dotProduct, hswap,
    Mat.transpose_mulVec_dotProduct, dotProduct_comm (_ *ᵥ u.get)]
  ring

/-- At the end, the cost is quadratic in the state alone. -/
theorem cost_evaluate_none {p : Lqr ℝ nx nu} (h : p.IsSymmetric) (x dx : Vec ℝ nx) :
    (p.evaluate (x + dx) none).cost =
      (p.evaluate x none).cost + (p.expand x none).finalChange dx := by
  simp only [evaluate, expand, Expansion.finalChange, stateCost_add p h.lxx]
  ring

end Lqr

/-! ## All stages -/

/-- Linear-quadratic stages over a horizon. -/
abbrev Lqrs (nx : ℕ) (nus : List ℕ) : Type := Horizon (Lqr ℝ nx) ((nu : ℕ) × Lqr ℝ nx nu) nus

/-- The stages as models. -/
def Lqrs.models (ps : Lqrs nx nus) : Models ℝ (.euclidean nx) nus :=
  ps.map Model.lqr fun p => ⟨p.1, .lqr p.2⟩

/-- The weights of all stages are symmetric. -/
def Lqrs.IsSymmetric : {nus : List ℕ} → Lqrs nx nus → Prop
  | _, .last p => p.2.IsSymmetric
  | _, .stage p ps => p.IsSymmetric ∧ IsSymmetric ps

theorem Lqrs.IsSymmetric.models : ∀ {nus : List ℕ} {ps : Lqrs nx nus}, Lqrs.IsSymmetric ps →
    Models.IsSymmetric (Lqrs.models ps)
  | _, .last p, h => fun x => (Model.isSymmetric_lqr p.2 h.lxx h.luu x none).lxx
  | _, .stage p _, h =>
    ⟨fun x u => Model.isSymmetric_lqr p h.1.lxx h.1.luu x (some u), Lqrs.IsSymmetric.models h.2⟩

theorem Evaluations.totalCost_stage {s : StateSpace} (e : Evaluation ℝ s.nx)
    (es : Evaluations ℝ s nus) : totalCost (.stage e es : Evaluations ℝ s (nu :: nus)) =
      e.cost + es.totalCost := by
  have hfold : (es.running Evaluation.cost).foldl (· + ·) (e.cost + 0) =
      e.cost + (es.running Evaluation.cost).foldl (· + ·) 0 := List.foldl_assoc
  show (es.running Evaluation.cost).foldl (· + ·) (0 + e.cost) + es.final.cost =
    e.cost + ((es.running Evaluation.cost).foldl (· + ·) 0 + es.final.cost)
  rw [add_comm 0, hfold, add_assoc]

/-- **Along another path, the cost is different by its second-order change.** -/
theorem Lqrs.totalCost_evaluations : ∀ {nus : List ℕ} {ps : Lqrs nx nus}, Lqrs.IsSymmetric ps →
    ∀ path path' : Path ℝ (.euclidean nx) nus,
      ((Lqrs.models ps).evaluations path').totalCost =
        ((Lqrs.models ps).evaluations path).totalCost +
          (path.displacementsTo path').change ((Lqrs.models ps).expansions path)
  | _, .last p, h, .last x, .last x' => by
    have hcost := Lqr.cost_evaluate_none h x (x' - x)
    rw [x.add_sub_self] at hcost
    show 0 + (p.2.evaluate x' none).cost = 0 + (p.2.evaluate x none).cost + _
    rw [zero_add, zero_add]
    exact hcost
  | _, .stage p ps, h, .stage k ks, .stage k' ks' => by
    let e := p.expand k.state (some k.control)
    let δ : Displacement ℝ nx _ := ⟨k'.state - k.state, k'.control - k.control⟩
    let es := (Lqrs.models ps).expansions ks
    have hcost := Lqr.cost_evaluate h.1 k.state k.control δ
    rw [Vec.add_sub_self, Vec.add_sub_self] at hcost
    have hhere : ((Lqrs.models (.stage p ps)).evaluations (.stage k ks)).totalCost =
        (p.evaluate k.state (some k.control)).cost + ((Lqrs.models ps).evaluations ks).totalCost :=
      Evaluations.totalCost_stage _ _
    calc ((Lqrs.models (.stage p ps)).evaluations (.stage k' ks')).totalCost
      _ = (p.evaluate k'.state (some k'.control)).cost +
          ((Lqrs.models ps).evaluations ks').totalCost := Evaluations.totalCost_stage _ _
      _ = (p.evaluate k.state (some k.control)).cost + ((Lqrs.models ps).evaluations ks).totalCost +
          (e.change δ + (Path.displacementsTo ks ks').change es) := by
        rw [hcost, Lqrs.totalCost_evaluations h.2 ks ks']
        ring
      _ = _ := congrArg (· + (e.change δ + (Path.displacementsTo ks ks').change es)) hhere.symm

end Shooting
