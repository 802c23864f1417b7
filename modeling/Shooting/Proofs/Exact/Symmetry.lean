import Shooting.Proofs.Exact.Lqr

/-!
# What a linear-quadratic stage asks of its weights

A quadratic form does not see what of its matrix is not symmetric. So a stage evaluates like the one
that has the symmetric parts of its weights (`Lqr.evaluate_symmetrized`), and of that one the
derivatives are the exact expansion (`Lqr.evaluate_displaced`). Its own derivatives are those of the
symmetric case, whatever the weights are; they expand the stage exactly if and only if the weights
are symmetric (`Lqr.expands_exactly_iff_symmetric`). No constructor asks for that: there is no stage
that is not accepted (`Lqr.accepted`).
-/

namespace Shooting

open Matrix

variable {nx nu : ℕ}

namespace Lqr

/-! ## Stages that can be built -/

/-- The stages that the two constructors accept, and what the builders make of them. -/
inductive Accepted : {nx nu : ℕ} → Lqr ℝ nx nu → Prop where
  | ofTables {fx fu lxx luu : Table ℝ} {q : Sized ℝ} :
      ofTables fx fu lxx luu = .ok q → Accepted q.model
  | terminalOfTable {lxx : Table ℝ} {q : Sized ℝ} :
      terminalOfTable lxx = .ok q → Accepted q.model
  | withDrift {nx nu : ℕ} {p q : Lqr ℝ nx nu} {f0 : List ℝ} :
      Accepted p → p.withDrift f0 = .ok q → Accepted q
  | withCrossWeight {nx nu : ℕ} {p q : Lqr ℝ nx nu} {lxu : Table ℝ} :
      Accepted p → p.withCrossWeight lxu = .ok q → Accepted q
  | withLinearCost {nx nu : ℕ} {p q : Lqr ℝ nx nu} {lx lu : List ℝ} :
      Accepted p → p.withLinearCost lx lu = .ok q → Accepted q

theorem expectShape_ofMat {m n : ℕ} (name : String) (a : Mat ℝ m n) :
    expectShape name (.ofMat a) m n = .ok a := by
  unfold expectShape
  rw [Table.toMat?_ofMat]

/-- **Every stage can be built**: sizes are all that is looked at. -/
theorem accepted (p : Lqr ℝ nx nu) : p.Accepted := by
  have hmatrices : ofTables (.ofMat p.fx) (.ofMat p.fu) (.ofMat p.lxx) (.ofMat p.luu) =
      .ok ⟨nx, nu, driftless p.fx p.fu p.lxx p.luu⟩ := by
    have hfx := expectShape_ofMat "Fx" p.fx
    have hfu := expectShape_ofMat "Fu" p.fu
    have hlxx := expectShape_ofMat "Lxx" p.lxx
    have hluu := expectShape_ofMat "Luu" p.luu
    show (do
      let a ← expectShape "Fx" (.ofMat p.fx) nx nx
      let b ← expectShape "Fu" (.ofMat p.fu) nx nu
      let q ← expectShape "Lxx" (.ofMat p.lxx) nx nx
      let r ← expectShape "Luu" (.ofMat p.luu) nu nu
      return (⟨nx, nu, driftless a b q r⟩ : Sized ℝ)) = _
    rw [hfx, hfu, hlxx, hluu]
    rfl
  have hdrift : (driftless p.fx p.fu p.lxx p.luu).withDrift p.f0.toList =
      .ok { driftless p.fx p.fu p.lxx p.luu with f0 := p.f0 } := by
    unfold withDrift
    rw [Vec.ofList?_toList]
  have hcross : ({ driftless p.fx p.fu p.lxx p.luu with f0 := p.f0 } : Lqr ℝ nx nu).withCrossWeight
      (.ofMat p.lxu) = .ok { p with lx := 0, lu := 0 } := by
    unfold withCrossWeight
    rw [expectShape_ofMat]
    rfl
  have hlinear : ({ p with lx := 0, lu := 0 } : Lqr ℝ nx nu).withLinearCost p.lx.toList
      p.lu.toList = .ok p := by
    unfold withLinearCost
    rw [Vec.ofList?_toList, Vec.ofList?_toList]
  exact (((Accepted.ofTables hmatrices).withDrift hdrift).withCrossWeight hcross).withLinearCost
    hlinear

/-! ## The symmetric parts of the weights -/

/-- The stage with the symmetric parts of its weights. -/
noncomputable def symmetrized (p : Lqr ℝ nx nu) : Lqr ℝ nx nu :=
  { p with lxx := p.lxx.symmetrized, luu := p.luu.symmetrized }

theorem isSymmetric_symmetrized (p : Lqr ℝ nx nu) : p.symmetrized.IsSymmetric :=
  ⟨Mat.isSymmetric_symmetrized _, Mat.isSymmetric_symmetrized _⟩

/-- **No evaluation shows what of the weights is not symmetric.** -/
theorem evaluate_symmetrized (p : Lqr ℝ nx nu) (x : Vec ℝ nx) :
    ∀ u : Option (Vec ℝ nu), p.symmetrized.evaluate x u = p.evaluate x u
  | some u => by
    simp only [evaluate, stateCost, symmetrized, Vec.dot_real, Mat.get_mulVec_real,
      Mat.dotProduct_symmetrized]
  | none => by
    simp only [evaluate, stateCost, symmetrized, Vec.dot_real, Mat.get_mulVec_real,
      Mat.dotProduct_symmetrized]

end Lqr

/-! ## Predicting from data -/

/-- What the data of a stage say about it at a displacement. -/
noncomputable def StageData.predicted (d : StageData ℝ nx nx nu) (δ : Displacement ℝ nx nu) :
    Evaluation ℝ nx where
  cost := d.eval.cost + d.expansion.change δ
  next := d.eval.next + (d.expansion.fx * δ.state + d.expansion.fu * δ.control)

namespace Lqr

/-- Displaced from a state and a control, or from a state at the end, the stage evaluates to what
its data there say. -/
def ExpandsExactly (p : Lqr ℝ nx nu) (x : Vec ℝ nx) (u : Option (Vec ℝ nu)) : Prop :=
  ∀ δ : Displacement ℝ nx nu, p.evaluate (x + δ.state) (u.map (· + δ.control)) =
    ((Model.lqr p).measure x u).predicted δ

/-- The derivatives at the end say nothing of a control. -/
theorem change_expand_none (p : Lqr ℝ nx nu) (x : Vec ℝ nx) (δ : Displacement ℝ nx nu) :
    (p.expand x none).change δ = (p.expand x none).finalChange δ.state := by
  unfold Expansion.change Expansion.finalChange expand
  simp only [Mat.zeroMat_mul, Vec.zero_dot, Vec.dot_zero]
  ring

/-- A stage with symmetric weights is expanded exactly everywhere. -/
theorem expandsExactly {p : Lqr ℝ nx nu} (h : p.IsSymmetric) (x : Vec ℝ nx) :
    ∀ u : Option (Vec ℝ nu), p.ExpandsExactly x u
  | some u, δ => by
    have hcost := cost_evaluate h x u δ
    have hnext := next_evaluate p x u δ
    exact congrArg₂ Evaluation.mk hcost hnext
  | none, δ => by
    have hcost := cost_evaluate_none h x δ.state
    have hnext : x + δ.state = x + ((Mat.identity nx : Mat ℝ nx nx) * δ.state +
        (0 : Mat ℝ nx nu) * δ.control) := by
      rw [Mat.zeroMat_mul, Vec.add_zero, Mat.identity_mul]
    rw [← change_expand_none] at hcost
    exact congrArg₂ Evaluation.mk hcost hnext

/-- The cost at displaced arguments is a quadratic, whatever the weights are. -/
theorem evaluate_displaced (p : Lqr ℝ nx nu) (x : Vec ℝ nx) (u : Option (Vec ℝ nu))
    (δ : Displacement ℝ nx nu) : p.evaluate (x + δ.state) (u.map (· + δ.control)) =
      ((Model.lqr p.symmetrized).measure x u).predicted δ := by
  rw [← evaluate_symmetrized]
  exact expandsExactly p.isSymmetric_symmetrized x u δ

/-- What exact expansion says of a stage, beside that with symmetric weights: both predict the same
change of the cost. -/
theorem ExpandsExactly.change_eq {p : Lqr ℝ nx nu} {x : Vec ℝ nx} {u : Option (Vec ℝ nu)}
    (h : p.ExpandsExactly x u) (δ : Displacement ℝ nx nu) :
    (p.expand x u).change δ = (p.symmetrized.expand x u).change δ := by
  have hcost := congrArg Evaluation.cost ((h δ).symm.trans (p.evaluate_displaced x u δ))
  have hbase := congrArg Evaluation.cost (p.evaluate_symmetrized x u)
  simp only [StageData.predicted, Model.measure, Model.evaluate, Model.expand] at hcost
  linarith

/-- Exact expansion in every state needs a symmetric weight of the state, with a control or without.
-/
theorem isSymmetric_lxx {p : Lqr ℝ nx nu} {u : Option (Vec ℝ nu)}
    (h : ∀ x, p.ExpandsExactly x u) : p.lxx.IsSymmetric := by
  refine Mat.isSymmetric_of_symmetrized ?_
  intro x dx
  have hchange := (h x).change_eq ⟨dx, 0⟩
  have hform := p.lxx.dotProduct_symmetrized dx.get
  rw [Expansion.change_state, Expansion.change_state] at hchange
  cases u with
  | some u =>
    simp only [expand, symmetrized, Vec.dot_real, Vec.toFun_add, Mat.get_mulVec_real,
      add_dotProduct, hform] at hchange ⊢
    linarith
  | none =>
    simp only [expand, symmetrized, Vec.dot_real, Vec.toFun_add, Mat.get_mulVec_real,
      add_dotProduct, hform] at hchange ⊢
    linarith

/-- Under every control, it needs a symmetric weight of the control. -/
theorem isSymmetric_luu {p : Lqr ℝ nx nu} {x : Vec ℝ nx}
    (h : ∀ u, p.ExpandsExactly x (some u)) : p.luu.IsSymmetric := by
  refine Mat.isSymmetric_of_symmetrized ?_
  intro u du
  have hchange := (h u).change_eq ⟨0, du⟩
  have hform := p.luu.dotProduct_symmetrized du.get
  rw [Expansion.change_control, Expansion.change_control] at hchange
  simp only [expand, symmetrized, Vec.dot_real, Vec.toFun_add, Mat.get_mulVec_real, add_dotProduct,
    hform] at hchange ⊢
  linarith

/-- **Derivatives are the exact expansion if and only if the weights are symmetric.** Every stage
can be built, whether its weights are symmetric or not. A running stage needs both of them to be; at
the end, where the derivatives leave the control out, that of the state suffices. -/
theorem expands_exactly_iff_symmetric (p : Lqr ℝ nx nu) :
    p.Accepted ∧
      ((∀ x u, p.ExpandsExactly x (some u)) ↔ p.lxx.IsSymmetric ∧ p.luu.IsSymmetric) ∧
      ((∀ x, p.ExpandsExactly x none) ↔ p.lxx.IsSymmetric) ∧
      ∀ x, (p.expand x none).fu = 0 ∧ (p.expand x none).lu = 0 ∧ (p.expand x none).luu = 0 ∧
        (p.expand x none).lxu = 0 := by
  refine ⟨p.accepted, ⟨?_, ?_⟩, ⟨isSymmetric_lxx, ?_⟩, fun x => ⟨rfl, rfl, rfl, rfl⟩⟩
  · intro h
    exact ⟨isSymmetric_lxx fun x => h x 0, isSymmetric_luu (h 0)⟩
  · rintro ⟨hxx, huu⟩ x u
    exact expandsExactly ⟨hxx, huu⟩ x (some u)
  · -- the weight of the control may be of any kind here, since it is not read
    intro hxx x δ
    have hexpand : p.symmetrized.expand x none = p.expand x none := by
      unfold expand symmetrized
      rw [hxx.symmetrized]
    rw [evaluate_displaced]
    exact congrArg (StageData.predicted · δ)
      (congrArg₂ StageData.mk (p.evaluate_symmetrized x none) hexpand)

end Lqr

end Shooting
