import Shooting.Linear.Mat
import Shooting.Proofs.Exact.Scalar
import Mathlib.LinearAlgebra.Matrix.DotProduct
import Mathlib.LinearAlgebra.Matrix.Symmetric

/-!
# Exact linear algebra

Without rounding, all inner products are the same one (`Vec.dot_real` and its like), however many
sums they are computed by. With it, products of matrices and vectors are those of linear algebra:
`Mat.toMatrix` carries them over, so that its laws need not be proved again.
-/

namespace Shooting

open Finset Matrix

/-! ## Inner products -/

namespace Vec

variable {n : ℕ}

theorem entry_eq_zero (v : Vec ℝ n) {i : ℕ} (h : n ≤ i) : v.entry i = 0 :=
  dif_neg (by omega)

/-- An inner product can be summed by number, and then it does not matter how far. -/
theorem sum_entries (v w : Vec ℝ n) {m : ℕ} (h : n ≤ m) :
    ∑ i ∈ range m, v.entry i * w.entry i = v.get ⬝ᵥ w.get := by
  have hrest : ∀ i ∈ range m, i ∉ range n → v.entry i * w.entry i = 0 := by
    intro i _ hi
    rw [v.entry_eq_zero (by simpa using hi), zero_mul]
  rw [← sum_subset (range_subset_range.mpr h) hrest, Finset.sum_range]
  simp only [entry_val]
  rfl

theorem dotInOrder_real (v w : Vec ℝ n) : v.dotInOrder w = v.get ⬝ᵥ w.get := by
  unfold dotInOrder
  rw [Scalar.sum_real]
  rfl

theorem dotFused_real (v w : Vec ℝ n) : v.dotFused w = v.get ⬝ᵥ w.get := by
  unfold dotFused
  simp only [Scalar.mulAdd_real, add_comm (_ * _)]
  rw [Scalar.foldl_add_real, zero_add]
  rfl

theorem takeProducts_real (a : ℝ) (v w : Vec ℝ n) : takeProducts a v w = a - v.get ⬝ᵥ w.get := by
  unfold takeProducts
  simp only [Scalar.mulAdd_real, add_comm (_ * _)]
  rw [Scalar.foldl_add_real]
  simp only [neg_mul, sum_neg_distrib, sub_eq_add_neg]
  rfl

theorem lane_real {add : ℝ → ℝ → ℝ → ℝ} (hadd : ∀ a b acc, add a b acc = acc + a * b)
    (width count : ℕ) (v w : Vec ℝ n) (r : ℕ) :
    lane add width count v w r =
      ∑ q ∈ range count, v.entry (width * q + r) * w.entry (width * q + r) := by
  unfold lane
  simp only [hadd]
  rw [Scalar.foldl_add_real, zero_add, Finset.sum_range]

/-- Summing in lanes is summing. -/
theorem sum_lanes (f : ℕ → ℝ) (width : ℕ) : ∀ count : ℕ,
    ∑ r ∈ range width, ∑ q ∈ range count, f (width * q + r) = ∑ i ∈ range (width * count), f i
  | 0 => by simp
  | count + 1 => by
    rw [Nat.mul_succ, sum_range_add, ← sum_lanes f width count, ← sum_add_distrib]
    simp only [sum_range_succ]

theorem dotFusedByFour_real (v w : Vec ℝ n) : v.dotFusedByFour w = v.get ⬝ᵥ w.get := by
  have hadd (a b acc : ℝ) : Scalar.mulAdd a b acc = acc + a * b := add_comm _ _
  rw [← v.sum_entries w (show n ≤ 4 * ((n + 3) / 4) by omega), ← sum_lanes _ 4]
  unfold dotFusedByFour
  simp only [lane_real hadd, sum_range_succ, sum_range_zero]
  ring

theorem dot_real (v w : Vec ℝ n) : v.dot w = v.get ⬝ᵥ w.get := by
  unfold dot
  split
  next => exact v.dotInOrder_real w
  next =>
    dsimp only
    rw [Scalar.foldl_add_real, ← v.sum_entries w (Nat.div_add_mod n 8).ge, sum_range_add,
      ← sum_lanes _ 8, Finset.sum_range (n := n % 8)]
    congr 1
    simp only [lane_real fun _ _ _ => rfl, sum_range_succ, sum_range_zero]
    ring

theorem dot_comm (v w : Vec ℝ n) : v.dot w = w.dot v := by
  rw [dot_real, dot_real, dotProduct_comm]

@[simp] theorem isFinite_real (v : Vec ℝ n) : v.isFinite = true := by
  unfold isFinite all
  simp

/-! The entries of a vector as a function, which linear algebra knows how to add. -/

theorem toFun_ofFn (f : Fin n → ℝ) : (ofFn f).get = f := funext (get_ofFn f)

theorem toFun_zero : (0 : Vec ℝ n).get = 0 := funext get_zero

theorem dot_zero (v : Vec ℝ n) : v.dot 0 = 0 := by
  rw [dot_real, toFun_zero, dotProduct_zero]

theorem zero_dot (v : Vec ℝ n) : (0 : Vec ℝ n).dot v = 0 := by
  rw [dot_comm, dot_zero]

theorem toFun_add (v w : Vec ℝ n) : (v + w).get = v.get + w.get := funext (get_add v w)

theorem toFun_sub (v w : Vec ℝ n) : (v - w).get = v.get - w.get := funext (get_sub v w)

theorem toFun_neg (v : Vec ℝ n) : (-v).get = -v.get := funext (get_neg v)

theorem toFun_scale (v : Vec ℝ n) (a : ℝ) : (v.scale a).get = a • v.get := by
  funext i
  rw [get_scale, Pi.smul_apply, smul_eq_mul, mul_comm]

protected theorem zero_add (v : Vec ℝ n) : 0 + v = v := by
  ext i
  rw [get_add, get_zero, zero_add]

protected theorem add_zero (v : Vec ℝ n) : v + 0 = v := by
  ext i
  rw [get_add, get_zero, add_zero]

theorem add_sub_self (v w : Vec ℝ n) : v + (w - v) = w := by
  ext i
  rw [get_add, get_sub, add_sub_cancel]

theorem add_sub_left (v w : Vec ℝ n) : v + w - v = w := by
  ext i
  rw [get_sub, get_add, add_sub_cancel_left]

theorem normSq_real (v : Vec ℝ n) : v.normSq = v.get ⬝ᵥ v.get := v.dot_real v

theorem normSq_nonneg (v : Vec ℝ n) : 0 ≤ v.normSq := by
  rw [normSq_real]
  exact sum_nonneg fun i _ => mul_self_nonneg _

theorem normSq_eq_zero_iff {v : Vec ℝ n} : v.normSq = 0 ↔ v = 0 := by
  rw [normSq_real, dotProduct_self_eq_zero, Vec.ext_iff, funext_iff]
  simp

protected theorem norm_zero : (0 : Vec ℝ n).norm = 0 := by
  have hsquare : (0 : Vec ℝ n).normSq = 0 := dot_zero 0
  unfold norm
  rw [hsquare, Scalar.sqrt_real, Real.sqrt_zero]

theorem norm_pos {v : Vec ℝ n} (h : v ≠ 0) : 0 < v.norm := by
  have hsquare : 0 < v.normSq :=
    lt_of_le_of_ne v.normSq_nonneg fun hzero => h (normSq_eq_zero_iff.mp hzero.symm)
  exact Real.sqrt_pos.mpr hsquare

theorem norm_mul_self (v : Vec ℝ n) : v.norm * v.norm = v.normSq :=
  Real.mul_self_sqrt v.normSq_nonneg

theorem scale_zero (v : Vec ℝ n) : v.scale 0 = 0 := by
  ext i
  rw [get_scale, get_zero, mul_zero]

theorem scale_one (v : Vec ℝ n) : v.scale 1 = v := by
  ext i
  rw [get_scale, mul_one]

theorem zero_scale (a : ℝ) : (0 : Vec ℝ n).scale a = 0 := by
  ext i
  rw [get_scale, get_zero, zero_mul]

theorem scale_scale (v : Vec ℝ n) (a b : ℝ) : (v.scale a).scale b = v.scale (a * b) := by
  ext i
  rw [get_scale, get_scale, get_scale, mul_assoc]

theorem neg_scale_sub (v : Vec ℝ n) (a b : ℝ) : -v.scale (a - b) = v.scale (b - a) := by
  ext i
  rw [get_neg, get_scale, get_scale, ← mul_neg, neg_sub]

theorem norm_scale (v : Vec ℝ n) {a : ℝ} (h : 0 ≤ a) : (v.scale a).norm = v.norm * a := by
  have hsquare : (v.scale a).normSq = v.normSq * (a * a) := by
    rw [normSq_real, normSq_real, toFun_scale, smul_dotProduct, dotProduct_smul, smul_eq_mul,
      smul_eq_mul]
    ring
  unfold norm
  rw [hsquare, Scalar.sqrt_real, Real.sqrt_mul v.normSq_nonneg, Real.sqrt_mul_self h]
  rfl

/-- A part of a vector is no longer than the vector. -/
theorem norm_scale_le (v : Vec ℝ n) {a : ℝ} (hpos : 0 ≤ a) (hle : a ≤ 1) :
    (v.scale a).norm ≤ v.norm := by
  rw [v.norm_scale hpos]
  exact mul_le_of_le_one_right (Real.sqrt_nonneg _) hle

@[simp] theorem dot_one (v w : Vec ℝ 1) : v.dot w = v.get 0 * w.get 0 := by
  rw [dot_real]
  exact Fin.sum_univ_one _

theorem toFun_single (i : Fin n) (a : ℝ) : (single i a).get = Pi.single i a := by
  funext k
  rw [get_single, Pi.single_apply]

theorem dot_single (v : Vec ℝ n) (i : Fin n) (a : ℝ) : v.dot (single i a) = v.get i * a := by
  rw [dot_real, toFun_single, dotProduct_single]

end Vec

/-! ## Matrices -/

namespace Mat

variable {k m n : ℕ}

/-- The matrix as linear algebra knows it. -/
def toMatrix (a : Mat ℝ m n) : Matrix (Fin m) (Fin n) ℝ := .of a.get

theorem toMatrix_apply (a : Mat ℝ m n) (i : Fin m) (j : Fin n) : a.toMatrix i j = a.get i j := rfl

theorem toMatrix_transpose (a : Mat ℝ m n) : a.transpose.toMatrix = a.toMatrixᵀ := by
  ext i j
  exact a.get_transpose i j

theorem toMatrix_add (a b : Mat ℝ m n) : (a + b).toMatrix = a.toMatrix + b.toMatrix := by
  ext i j
  exact a.get_add b i j

theorem toMatrix_sub (a b : Mat ℝ m n) : (a - b).toMatrix = a.toMatrix - b.toMatrix := by
  ext i j
  exact a.get_sub b i j

theorem toMatrix_addDiagonal (a : Mat ℝ n n) (s : ℝ) :
    (a.addDiagonal s).toMatrix = a.toMatrix + s • (1 : Matrix (Fin n) (Fin n) ℝ) := by
  ext i j
  rw [toMatrix_apply, get_addDiagonal, Matrix.add_apply, Matrix.smul_apply, Matrix.one_apply,
    toMatrix_apply, smul_eq_mul, mul_ite, mul_one, mul_zero]
  split
  · rfl
  · rw [add_zero]

@[simp] theorem isFinite_real (a : Mat ℝ m n) : a.isFinite = true := by
  unfold isFinite Vec.all
  simp

/-- Whether the terms of a product are rounded makes no difference. -/
theorem toMatrix_mul (a : Mat ℝ m k) (b : Mat ℝ k n) :
    (a * b).toMatrix = a.toMatrix * b.toMatrix := by
  have hcol (j : Fin n) : (b.col j).get = fun l => b.get l j := by
    funext l
    exact Vec.get_ofFn _ l
  ext i j
  rw [toMatrix_apply, get_mul, Vec.dotFused_real, Vec.dotInOrder_real, ite_self, hcol]
  rfl

theorem get_mulVec_real (a : Mat ℝ m n) (v : Vec ℝ n) : (a * v).get = a.toMatrix *ᵥ v.get := by
  funext i
  rw [get_mulVec, Vec.dotInOrder_real]
  rfl

theorem get_mulVec_sum (a : Mat ℝ m n) (v : Vec ℝ n) (i : Fin m) :
    (a * v).get i = ∑ j, a.get i j * v.get j := by
  rw [get_mulVec, Vec.dotInOrder_real]
  rfl

theorem mul_mulVec (a : Mat ℝ m k) (b : Mat ℝ k n) (v : Vec ℝ n) : a * b * v = a * (b * v) := by
  ext i
  rw [get_mulVec_real, get_mulVec_real, get_mulVec_real, toMatrix_mul, mulVec_mulVec]

protected theorem mul_add (a : Mat ℝ m n) (v w : Vec ℝ n) : a * (v + w) = a * v + a * w := by
  ext i
  rw [Vec.get_add, get_mulVec_real, get_mulVec_real, get_mulVec_real, Vec.toFun_add, mulVec_add,
    Pi.add_apply]

protected theorem mul_neg (a : Mat ℝ m n) (v : Vec ℝ n) : a * -v = -(a * v) := by
  ext i
  rw [Vec.get_neg, get_mulVec_real, get_mulVec_real, Vec.toFun_neg, mulVec_neg, Pi.neg_apply]

protected theorem sub_mulVec (a b : Mat ℝ m n) (v : Vec ℝ n) : (a - b) * v = a * v - b * v := by
  ext i
  rw [Vec.get_sub, get_mulVec_real, get_mulVec_real, get_mulVec_real, toMatrix_sub,
    Matrix.sub_mulVec, Pi.sub_apply]

/-- The entries of a matrix, from its products with vectors of one entry. -/
theorem get_mul_single (a : Mat ℝ m n) (i : Fin m) (j : Fin n) (t : ℝ) :
    (a * Vec.single j t).get i = a.get i j * t := by
  rw [get_mulVec_real, Vec.toFun_single, mulVec_single]
  rfl

theorem dot_mul_single (a : Mat ℝ m n) (i : Fin m) (j : Fin n) (s t : ℝ) :
    (Vec.single i s).dot (a * Vec.single j t) = s * (a.get i j * t) := by
  rw [Vec.dot_real, Vec.toFun_single, single_dotProduct, get_mul_single]

/-- A matrix is known by its bilinear form. -/
theorem ext_of_dot_mul {a b : Mat ℝ m n}
    (h : ∀ (v : Vec ℝ m) (w : Vec ℝ n), v.dot (a * w) = v.dot (b * w)) : a = b := by
  ext i j
  have hentry := h (.single i 1) (.single j 1)
  rwa [dot_mul_single, dot_mul_single, one_mul, one_mul, mul_one, mul_one] at hentry

theorem mul_zeroVec (a : Mat ℝ m n) : a * (0 : Vec ℝ n) = 0 := by
  ext i
  rw [get_mulVec_real, Vec.toFun_zero, mulVec_zero, Pi.zero_apply, Vec.get_zero]

theorem zeroMat_mul (v : Vec ℝ n) : (0 : Mat ℝ m n) * v = 0 := by
  ext i
  simp [get_mulVec_sum]

theorem toMatrix_identity : (identity n : Mat ℝ n n).toMatrix = 1 := by
  ext i j
  rw [toMatrix_apply, get_identity, Matrix.one_apply]

theorem identity_mul (v : Vec ℝ n) : (identity n : Mat ℝ n n) * v = v := by
  ext i
  rw [get_mulVec_real, toMatrix_identity, one_mulVec]

theorem scale_identity_mul (a : ℝ) (v : Vec ℝ n) : (identity n).scale a * v = v.scale a := by
  ext i
  simp only [get_mulVec_sum, get_scale, get_identity, ite_mul, one_mul, zero_mul, sum_ite_eq,
    mem_univ, if_true, Vec.get_scale]
  exact mul_comm a _

/-! Where there is one entry, products are those of numbers. -/

@[simp] theorem get_mul_one (a b : Mat ℝ 1 1) : (a * b).get 0 0 = a.get 0 0 * b.get 0 0 := by
  rw [← toMatrix_apply, toMatrix_mul, Matrix.mul_apply, Fin.sum_univ_one]
  rfl

@[simp] theorem get_mulVec_one (a : Mat ℝ 1 1) (v : Vec ℝ 1) :
    (a * v).get 0 = a.get 0 0 * v.get 0 := by
  rw [get_mulVec_sum, Fin.sum_univ_one]

/-- A transposed matrix can be moved to the other side of an inner product. -/
theorem dotProduct_transpose_mulVec (a : Matrix (Fin m) (Fin n) ℝ) (v : Fin n → ℝ)
    (w : Fin m → ℝ) : v ⬝ᵥ aᵀ *ᵥ w = a *ᵥ v ⬝ᵥ w := by
  rw [dotProduct_mulVec, vecMul_transpose]

theorem transpose_mulVec_dotProduct (a : Matrix (Fin m) (Fin n) ℝ) (v : Fin n → ℝ)
    (w : Fin m → ℝ) : aᵀ *ᵥ w ⬝ᵥ v = w ⬝ᵥ a *ᵥ v := by
  rw [dotProduct_comm, dotProduct_transpose_mulVec, dotProduct_comm]

/-- A matrix that is its own transpose. -/
def IsSymmetric (a : Mat ℝ n n) : Prop := a.toMatrix.IsSymm

theorem IsSymmetric.get_comm {a : Mat ℝ n n} (h : a.IsSymmetric) (i j : Fin n) :
    a.get i j = a.get j i :=
  (Matrix.IsSymm.apply h i j).symm

theorem isSymmetric_of_get {a : Mat ℝ n n} (h : ∀ i j, a.get i j = a.get j i) : a.IsSymmetric :=
  Matrix.IsSymm.ext fun i j => h j i

/-- A matrix with one entry is symmetric. -/
theorem isSymmetric_one (a : Mat ℝ 1 1) : a.IsSymmetric :=
  isSymmetric_of_get fun i j => by rw [Subsingleton.elim i j]

theorem isSymmetric_zero : (0 : Mat ℝ n n).IsSymmetric :=
  isSymmetric_of_get fun i j => by rw [get_zero, get_zero]

theorem isSymmetric_identity : (identity n : Mat ℝ n n).IsSymmetric :=
  isSymmetric_of_get fun i j => by simp only [get_identity, eq_comm]

theorem isSymmetric_scale_identity (a : ℝ) : ((identity n : Mat ℝ n n).scale a).IsSymmetric :=
  isSymmetric_of_get fun i j => by simp only [get_scale, get_identity, eq_comm]

theorem IsSymmetric.addDiagonal {a : Mat ℝ n n} (h : a.IsSymmetric) (s : ℝ) :
    (a.addDiagonal s).IsSymmetric := by
  refine isSymmetric_of_get ?_
  intro i j
  rw [get_addDiagonal, get_addDiagonal, h.get_comm j i]
  simp only [eq_comm]

/-- The two sides of a quadratic form can be exchanged. -/
theorem IsSymmetric.form_comm {a : Mat ℝ n n} (h : a.IsSymmetric) (v w : Fin n → ℝ) :
    v ⬝ᵥ a.toMatrix *ᵥ w = w ⬝ᵥ a.toMatrix *ᵥ v := by
  rw [← transpose_mulVec_dotProduct, h, dotProduct_comm]

/-- A quadratic form does not see what is not symmetric. -/
theorem dotProduct_symmetrized (a : Mat ℝ n n) (v : Fin n → ℝ) :
    v ⬝ᵥ a.symmetrized.toMatrix *ᵥ v = v ⬝ᵥ a.toMatrix *ᵥ v := by
  have hmean : a.symmetrized.toMatrix = (1 / 2 : ℝ) • (a.toMatrix + a.toMatrixᵀ) := by
    ext i j
    unfold symmetrized
    rw [toMatrix_apply, get_scale, get_add, get_transpose, Matrix.smul_apply, Matrix.add_apply,
      transpose_apply, toMatrix_apply, toMatrix_apply, smul_eq_mul]
    norm_num
    ring
  rw [hmean, smul_mulVec, add_mulVec, dotProduct_smul, dotProduct_add,
    dotProduct_transpose_mulVec, dotProduct_comm (_ *ᵥ v), smul_eq_mul]
  ring

theorem get_symmetrized_self (a : Mat ℝ n n) (i : Fin n) :
    a.symmetrized.get i i = a.get i i := by
  unfold symmetrized
  rw [get_scale, get_add, get_transpose]
  norm_num
  ring

theorem isSymmetric_symmetrized (a : Mat ℝ n n) : a.symmetrized.IsSymmetric := by
  refine isSymmetric_of_get ?_
  intro i j
  unfold symmetrized
  rw [get_scale, get_scale, get_add, get_add, get_transpose, get_transpose, add_comm]

/-- A matrix that acts like its symmetric part is symmetric. -/
theorem isSymmetric_of_symmetrized {a : Mat ℝ n n}
    (h : ∀ v w : Vec ℝ n, (a * v).dot w = (a.symmetrized * v).dot w) : a.IsSymmetric := by
  have hparts : a = a.symmetrized := ext_of_dot_mul fun v w => by
    rw [v.dot_comm, v.dot_comm, h]
  rw [hparts]
  exact isSymmetric_symmetrized a

/-- A symmetric matrix is the mean of itself and its transpose. -/
theorem IsSymmetric.symmetrized {a : Mat ℝ n n} (h : a.IsSymmetric) : a.symmetrized = a := by
  ext i j
  unfold Mat.symmetrized
  rw [get_scale, get_add, get_transpose, h.get_comm j i]
  norm_num
  ring

end Mat

end Shooting
