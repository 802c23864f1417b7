import Shooting.Proofs.Exact.Cholesky

/-!
# Positive definite matrices

A symmetric matrix has a Cholesky factor if and only if its quadratic form is positive. One half
says what a factor is worth: the quadratic form of its matrix vanishes nowhere but at zero
(`Lower.Factorizes.isPositive`). The other half says that factorization does not stop early
(`cholesky_of_isPositive`): what elimination leaves of a diagonal entry is a value of the quadratic
form.
-/

namespace Shooting

open Matrix

variable {n k : ℕ}

/-- The quadratic form of the matrix is positive. -/
def Mat.IsPositive (a : Mat ℝ n n) : Prop := ∀ v : Vec ℝ n, v ≠ 0 → 0 < v.dot (a * v)

namespace Mat.IsPositive

variable {a : Mat ℝ n n}

theorem dot_mul_eq_zero_iff (h : a.IsPositive) {v : Vec ℝ n} : v.dot (a * v) = 0 ↔ v = 0 := by
  constructor
  · intro hzero
    by_contra hv
    exact (h v hv).ne' hzero
  · rintro rfl
    rw [Vec.dot_real, Vec.toFun_zero, zero_dotProduct]

theorem dot_mul_nonneg (h : a.IsPositive) (v : Vec ℝ n) : 0 ≤ v.dot (a * v) := by
  by_cases hv : v = 0
  · exact (h.dot_mul_eq_zero_iff.mpr hv).ge
  · exact (h v hv).le

end Mat.IsPositive

/-- A matrix with one entry is positive if the entry is. -/
theorem Mat.isPositive_one_iff {a : Mat ℝ 1 1} : a.IsPositive ↔ 0 < a.get 0 0 := by
  constructor
  · intro h
    have hne : (Vec.replicate 1 1 : Vec ℝ 1) ≠ 0 := fun hzero => by
      simpa using congrArg (fun v => v.get 0) hzero
    simpa using h _ hne
  · intro h v hv
    have hentry : v.get 0 ≠ 0 := fun hzero => hv (by
      ext i
      rw [Fin.fin_one_eq_zero i, hzero, Vec.get_zero])
    rw [Vec.dot_one, Mat.get_mulVec_one]
    have hsq := mul_self_pos.mpr hentry
    nlinarith

namespace Lower.Factorizes

variable {l : Lower ℝ n} {a : Mat ℝ n n}

/-- **Several symmetric systems are solved at once by a factor of their matrix.** -/
theorem mul_solve (h : l.Factorizes a) (hsymm : a.IsSymmetric) (b : Mat ℝ n k) :
    a * l.solve b = b := by
  have hcol (c : Mat ℝ n k) (j : Fin k) : (c.col j).get = fun i => c.get i j :=
    funext fun i => Vec.get_ofFn _ i
  ext i j
  have hsolve := congrArg (fun v => v.get i) (l.mul_solve (fun i => (h.pivots i).ne') b j)
  simp only [Mat.get_mulVec_real, mulVec_mulVec, ← Mat.toMatrix_mul, h.mul_transpose hsymm,
    hcol] at hsolve
  rw [← hsolve, ← Mat.toMatrix_apply, Mat.toMatrix_mul]
  rfl

/-- The quadratic form of the matrix of a factor is the square of a length. -/
theorem dot_mul_eq (h : l.Factorizes a) (hsymm : a.IsSymmetric) (v : Vec ℝ n) :
    v.dot (a * v) = (l.toMat.transpose * v).normSq := by
  rw [Vec.normSq_real, Vec.dot_real, Mat.get_mulVec_real, Mat.get_mulVec_real,
    ← h.mul_transpose hsymm, Mat.toMatrix_mul, Mat.toMatrix_transpose, ← mulVec_mulVec,
    ← Mat.dotProduct_transpose_mulVec, transpose_transpose]

/-- **The matrix of a factor is positive.** A vector whose image has no length is orthogonal to all
that the matrix reaches, which is everything. -/
theorem isPositive (h : l.Factorizes a) (hsymm : a.IsSymmetric) : a.IsPositive := by
  intro v hv
  rw [h.dot_mul_eq hsymm]
  refine lt_of_le_of_ne (Vec.normSq_nonneg _) fun hzero => hv ?_
  have hrows : l.toMat.transpose * v = 0 := Vec.normSq_eq_zero_iff.mp hzero.symm
  have himage : a.toMatrix *ᵥ v.get = 0 := by
    rw [← h.mul_transpose hsymm, Mat.toMatrix_mul, ← mulVec_mulVec, ← Mat.get_mulVec_real, hrows,
      Vec.toFun_zero, mulVec_zero]
  have hsolve := congrArg Vec.get (h.mul_solveVec hsymm v)
  rw [Mat.get_mulVec_real] at hsolve
  rw [← Vec.normSq_eq_zero_iff, Vec.normSq_real]
  nth_rewrite 2 [← hsolve]
  rw [hsymm.form_comm, himage, dotProduct_zero]

end Lower.Factorizes

/-! ## Factorization does not stop early -/

namespace Mat

theorem IsSymmetric.leading {a : Mat ℝ (n + 1) (n + 1)} (h : a.IsSymmetric) :
    a.leading.IsSymmetric :=
  isSymmetric_of_get fun i j => by rw [get_leading, get_leading, h.get_comm]

/-- What a symmetric matrix makes of a vector with one more entry at the end. -/
theorem mul_snoc {a : Mat ℝ (n + 1) (n + 1)} (h : a.IsSymmetric) (v : Vec ℝ n) (x : ℝ) :
    a * v.snoc x =
      (a.leading * v + (a.row (Fin.last n)).init.scale x).snoc
        ((a.row (Fin.last n)).init.dot v + a.get (Fin.last n) (Fin.last n) * x) := by
  have hrow (i : Fin n) : (a.row (Fin.last n)).get i.castSucc = a.get (Fin.last n) i.castSucc := rfl
  ext i
  cases i using Fin.lastCases with
  | last =>
    rw [Mat.get_mulVec_sum, Fin.sum_univ_castSucc, Vec.get_snoc_last, Vec.dot_real]
    simp [dotProduct, hrow]
  | cast i =>
    rw [Mat.get_mulVec_sum, Fin.sum_univ_castSucc, Vec.get_snoc_castSucc, Vec.get_add,
      Mat.get_mulVec_sum]
    simp [hrow, h.get_comm i.castSucc (Fin.last n)]

/-- The quadratic form at a vector with one more entry at the end. -/
theorem dot_mul_snoc {a : Mat ℝ (n + 1) (n + 1)} (h : a.IsSymmetric) (v : Vec ℝ n) (x : ℝ) :
    (v.snoc x).dot (a * v.snoc x) =
      v.dot (a.leading * v) + 2 * x * (a.row (Fin.last n)).init.dot v +
        x * x * a.get (Fin.last n) (Fin.last n) := by
  have hsnoc (w : Vec ℝ n) (y : ℝ) : (v.snoc x).dot (w.snoc y) = v.dot w + x * y := by
    simp [Vec.dot_real, dotProduct, Fin.sum_univ_castSucc]
  have hcomm := dotProduct_comm v.get (a.row (Fin.last n)).init.get
  rw [mul_snoc h, hsnoc]
  simp only [Vec.dot_real, Vec.toFun_add, Vec.toFun_scale, dotProduct_add, dotProduct_smul,
    smul_eq_mul, hcomm]
  ring

theorem IsPositive.leading {a : Mat ℝ (n + 1) (n + 1)} (h : a.IsPositive) (hsymm : a.IsSymmetric) :
    a.leading.IsPositive := by
  intro v hv
  have hpos := h (v.snoc 0) fun hzero => hv (by
    ext i
    rw [← v.get_snoc_castSucc 0 i, hzero, Vec.get_zero, Vec.get_zero])
  rw [dot_mul_snoc hsymm] at hpos
  linarith

end Mat

namespace Lower

/-- What elimination leaves of the last diagonal entry is a value of the quadratic form: that at the
vector whose other entries undo the last row. -/
theorem Factorizes.rest_pos {above : Lower ℝ n} {a : Mat ℝ (n + 1) (n + 1)}
    (h : above.Factorizes a.leading) (hsymm : a.IsSymmetric) (hpos : a.IsPositive) {row : Vec ℝ n}
    (hrow : above.toMat * row = (a.row (Fin.last n)).init) :
    0 < a.get (Fin.last n) (Fin.last n) - row.get ⬝ᵥ row.get := by
  obtain ⟨z, hz⟩ : ∃ z, above.toMat.transpose * z = row :=
    ⟨_, transpose_mul_reflected takeProducts_isExact above (fun i => (h.pivots i).ne') row⟩
  have hleading : a.leading * z = (a.row (Fin.last n)).init := by
    ext i
    rw [← hrow, ← hz, ← h.mul_transpose hsymm.leading]
    simp only [Mat.get_mulVec_real, Mat.toMatrix_mul, mulVec_mulVec]
  have hform : z.dot (a.leading * z) = row.get ⬝ᵥ row.get := by
    rw [h.dot_mul_eq hsymm.leading, hz, Vec.normSq_real]
  have hvalue := hpos (z.snoc (-1)) fun hzero => by
    have hlast := congrArg (fun v => v.get (Fin.last n)) hzero
    simp at hlast
  rw [Mat.dot_mul_snoc hsymm, Vec.dot_real (Vec.init _), ← hleading, dotProduct_comm,
    ← Vec.dot_real, hform] at hvalue
  linarith

end Lower

/-- **The matrix of a positive quadratic form has a factor.** -/
theorem choleskyWithReciprocals_of_isPositive : ∀ {n : ℕ} {a : Mat ℝ n n}, a.IsSymmetric →
    a.IsPositive → ∃ out, choleskyWithReciprocals a = .ok out
  | 0, _, _, _ => ⟨_, rfl⟩
  | n + 1, a, hsymm, hpos => by
    obtain ⟨⟨above, reciprocals⟩, habove⟩ :=
      choleskyWithReciprocals_of_isPositive hsymm.leading (hpos.leading hsymm)
    obtain ⟨hfactor, hreciprocals⟩ := choleskyWithReciprocals_real habove
    have hrow := above.mul_eliminate reciprocals hreciprocals (a.row (Fin.last n)).init
    have hrest := hfactor.rest_pos hsymm hpos hrow
    rw [← Vec.takeProducts_real] at hrest
    unfold choleskyWithReciprocals
    rw [habove]
    exact ⟨_, if_pos hrest⟩

theorem cholesky_of_isPositive {a : Mat ℝ n n} (hsymm : a.IsSymmetric) (hpos : a.IsPositive) :
    ∃ l, cholesky a = .ok l := by
  obtain ⟨out, hout⟩ := choleskyWithReciprocals_of_isPositive hsymm hpos
  unfold cholesky
  rw [hout]
  exact ⟨_, rfl⟩

end Shooting
