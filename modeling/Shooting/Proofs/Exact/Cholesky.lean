import Shooting.Linear.Cholesky
import Shooting.Proofs.Checked
import Shooting.Proofs.Exact.Linear

/-!
# Exact Cholesky factors

Without rounding, a Cholesky factor is a factor, and solving with it solves the system. Neither the
blocks that a large system is cut into nor the reciprocals that stand for the pivots matter then.

Factorization and substitution both grow with `Lower.border`, and `toMat_border_mulVec` says what a
bordered matrix does to a bordered vector. Main statements:

* `mul_forwardSubst`: a lower triangular system is solved, whatever the cuts;
* `cholesky_real`: the factor times its transpose is the matrix, if that is symmetric;
* `mul_solveVec`, `dot_solveVec`: the system is solved, and by a vector that makes a square with the
  right-hand side, so that it does not point away from it.
-/

namespace Shooting

open Finset Matrix

/-! ## Triangular matrices -/

namespace Lower

section
variable {α : Type} [Scalar α] {n : ℕ} (above : Lower α n) (row : Vec α n) (pivot : α)

@[simp] theorem get_toMat_corner (i j : Fin n) :
    (border above row pivot).toMat.get i.castSucc j.castSucc = above.toMat.get i j := by
  simp [toMat]

@[simp] theorem get_toMat_above (i : Fin n) :
    (border above row pivot).toMat.get i.castSucc (Fin.last n) = 0 := by
  simp [toMat]

@[simp] theorem get_toMat_row (j : Fin n) :
    (border above row pivot).toMat.get (Fin.last n) j.castSucc = row.get j := by
  simp [toMat]

@[simp] theorem get_toMat_pivot :
    (border above row pivot).toMat.get (Fin.last n) (Fin.last n) = pivot := by
  simp [toMat]

/-- Above the diagonal there is nothing. -/
theorem get_toMat_of_lt : ∀ {n : ℕ} (l : Lower α n) {i j : Fin n}, i < j → l.toMat.get i j = 0
  | n + 1, border above row pivot, i, j, h => by
    cases j using Fin.lastCases with
    | last =>
      obtain ⟨i, rfl⟩ := Fin.exists_castSucc_eq.mpr h.ne
      exact get_toMat_above above row pivot i
    | cast j =>
      obtain ⟨i, rfl⟩ := Fin.exists_castSucc_eq.mpr (h.trans (Fin.castSucc_lt_last j)).ne
      rw [get_toMat_corner]
      exact get_toMat_of_lt above (Fin.castSucc_lt_castSucc_iff.mp h)

/-- A matrix with nothing above the diagonal is its lower triangle. -/
theorem toMat_ofMat : ∀ {n : ℕ} (a : Mat α n n), (∀ i j, i < j → a.get i j = 0) →
    (ofMat a).toMat = a
  | 0, a, _ => by
    ext i
    exact i.elim0
  | n + 1, a, h => by
    have hcorner : (ofMat a.leading).toMat = a.leading :=
      toMat_ofMat a.leading fun i j hij => by
        rw [Mat.get_leading]
        exact h _ _ (Fin.castSucc_lt_castSucc_iff.mpr hij)
    ext i j
    unfold ofMat
    cases i using Fin.lastCases with
    | last =>
      cases j using Fin.lastCases with
      | last => exact get_toMat_pivot _ _ _
      | cast j => exact (get_toMat_row _ _ _ j).trans (Vec.get_init _ j)
    | cast i =>
      cases j using Fin.lastCases with
      | last => exact (get_toMat_above _ _ _ i).trans (h _ _ (Fin.castSucc_lt_last i)).symm
      | cast j => rw [get_toMat_corner, hcorner, Mat.get_leading]

end

/-- **What a bordered matrix does to a bordered vector.** -/
theorem toMat_border_mulVec {n : ℕ} (above : Lower ℝ n) (row : Vec ℝ n) (pivot : ℝ) (y : Vec ℝ n)
    (x : ℝ) :
    (border above row pivot).toMat * y.snoc x =
      (above.toMat * y).snoc (row.get ⬝ᵥ y.get + pivot * x) := by
  ext i
  rw [Mat.get_mulVec_real]
  cases i using Fin.lastCases with
  | last => simp [mulVec, dotProduct, Mat.toMatrix_apply, Fin.sum_univ_castSucc]
  | cast i =>
    rw [Vec.get_snoc_castSucc, Mat.get_mulVec_real]
    simp [mulVec, dotProduct, Mat.toMatrix_apply, Fin.sum_univ_castSucc]

end Lower

theorem Vec.snoc_init_last {α : Type} {n : ℕ} (v : Vec α (n + 1)) : v.init.snoc v.last = v := by
  ext i
  cases i using Fin.lastCases with
  | last => exact v.init.get_snoc_last v.last
  | cast i => rw [Vec.get_snoc_castSucc, Vec.get_init]

/-! ## Substitution -/

theorem blockEnds_sorted : ∀ fuel n i : ℕ, (blockEnds fuel n i).Pairwise (· ≤ ·)
  | 0, _, _ => .nil
  | fuel + 1, n, i => by
    unfold blockEnds
    split
    next => exact .nil
    next =>
      extract_lets multiple lower upper
      split
      next => exact blockEnds_sorted fuel _ i
      next =>
        refine .cons ?_ ?_
        · intro e he
          obtain ⟨e', -, rfl⟩ := List.mem_map.mp he
          exact Nat.le_add_right _ e'
        · exact (blockEnds_sorted fuel _ _).map _ fun _ _ h => Nat.add_le_add_left h _

/-- A deduction that takes away the inner product. -/
def Deduction.IsExact (deduct : Deduction ℝ) : Prop :=
  ∀ {n : ℕ} (a : ℝ) (v w : Vec ℝ n), deduct a v w = a - v.get ⬝ᵥ w.get

theorem takeProducts_isExact : Deduction.IsExact Vec.takeProducts := Vec.takeProducts_real

section
variable (dot : InnerProduct ℝ)
  (hdot : ∀ {n : ℕ} (v w : Vec ℝ n), dot v w = v.get ⬝ᵥ w.get)
include hdot

theorem isExact_of_dot : Deduction.IsExact fun a v w => a - dot v w :=
  fun a v w => congrArg (a - ·) (hdot v w)

/-- The order of the products does not matter. -/
theorem isExact_of_reversed_dot : Deduction.IsExact fun a v w => a - dot v.reverse w.reverse := by
  intro n a v w
  refine congrArg (a - ·) ((hdot _ _).trans ?_)
  exact Fintype.sum_equiv Fin.revPerm _ _ fun i => by simp

end

namespace Vec

variable {n : ℕ} (v w : Vec ℝ n)

/-- The sum of the first `k` products of entries. -/
noncomputable def products (k : ℕ) : ℝ := ∑ i ∈ range k, v.entry i * w.entry i

theorem products_eq (k : ℕ) :
    v.products w k = ∑ j : Fin n, if j < k then v.get j * w.get j else 0 := by
  have hrange := Finset.sum_range (n := n) fun i => if i < k then v.entry i * w.entry i else 0
  simp only [entry_val] at hrange
  rw [← hrange, ← sum_filter, products]
  refine (sum_subset (fun i hi => ?_) fun i hi hi' => ?_).symm
  · simpa using (mem_filter.mp hi).2
  · have hn : n ≤ i := by
      simp only [mem_filter, mem_range, not_and] at hi hi'
      omega
    rw [v.entry_eq_zero hn, zero_mul]

/-- A block of two vectors contributes the products from its start to its end. -/
theorem block_dotProduct {start stop : ℕ} (h : start ≤ stop) :
    ((v.take stop).drop start).get ⬝ᵥ ((w.take stop).drop start).get =
      v.products w stop - v.products w start := by
  have hentry (i : Fin (min stop n - start)) :
      ((v.take stop).drop start).get i * ((w.take stop).drop start).get i =
        v.entry (start + i) * w.entry (start + i) := by
    have hi : start + i < n := by omega
    simp [entry, hi]
  have hblock : ∑ i ∈ Ico start (min stop n), v.entry i * w.entry i =
      ∑ i ∈ Ico start stop, v.entry i * w.entry i := by
    refine sum_subset (Ico_subset_Ico_right (min_le_left _ _)) fun i hi hi' => ?_
    have hn : n ≤ i := by
      simp only [mem_Ico, lt_min_iff, not_and, not_lt] at hi hi'
      exact hi' hi.1 hi.2
    rw [v.entry_eq_zero hn, zero_mul]
  calc ((v.take stop).drop start).get ⬝ᵥ ((w.take stop).drop start).get
      = ∑ i : Fin (min stop n - start), v.entry (start + i) * w.entry (start + i) :=
        sum_congr rfl fun i _ => hentry i
    _ = ∑ i ∈ Ico start (min stop n), v.entry i * w.entry i := by
        rw [sum_Ico_eq_sum_range, Finset.sum_range]
    _ = v.products w stop - v.products w start := by
        rw [hblock, sum_Ico_eq_sub _ h]
        rfl

end Vec

namespace Lower

variable {n : ℕ} {deduct : Deduction ℝ}

/-- What a row owes to the blocks before its own has been taken away when these are done. -/
theorem foldl_blocks (hdeduct : deduct.IsExact) (row y : Vec ℝ n) : ∀ (ends : List ℕ) (rest : ℝ)
    (start : ℕ), (start :: ends).Pairwise (· ≤ ·) →
    let out := ends.foldl
      (fun (rest, start) stop =>
        (deduct rest ((row.take stop).drop start) ((y.take stop).drop start), stop))
      (rest, start)
    out.1 + row.products y out.2 = rest + row.products y start
  | [], _, _, _ => rfl
  | stop :: ends, rest, start, h => by
    have hle : start ≤ stop := List.rel_of_pairwise_cons h List.mem_cons_self
    have hends := foldl_blocks hdeduct row y ends
      (deduct rest ((row.take stop).drop start) ((y.take stop).drop start)) stop h.of_cons
    rw [List.foldl_cons]
    refine hends.trans ?_
    rw [hdeduct, Vec.block_dotProduct row y hle]
    ring

/-- The unknown of a row is what the row says it is, wherever its block starts. -/
theorem solveRow_real (hdeduct : deduct.IsExact) {ends : List ℕ} (hends : ends.Pairwise (· ≤ ·))
    (row : Vec ℝ n) {pivot : ℝ} (hpivot : pivot ≠ 0) (y : Vec ℝ n) (b : ℝ) :
    row.get ⬝ᵥ y.get + pivot * solveRow deduct ends row pivot y b = b := by
  have hblocks := foldl_blocks hdeduct row y ends b 0
    (.cons (fun _ _ => Nat.zero_le _) hends)
  unfold solveRow
  extract_lets reciprocal term
  dsimp only at hblocks ⊢
  generalize ends.foldl _ (b, 0) = out at hblocks ⊢
  obtain ⟨rest, start⟩ := out
  have hstep (acc : ℝ) (j : Fin n) :
      (if (j : ℕ) < start then acc else acc + term j) =
        acc + ((if (j : ℕ) < start then row.get j * y.get j else 0) - row.get j * y.get j) *
          reciprocal := by
    unfold term
    split <;> ring
  simp only [hstep]
  rw [Scalar.foldl_add_real, ← sum_mul, sum_sub_distrib, ← Vec.products_eq]
  have hnone : row.products y 0 = 0 := sum_range_zero _
  have hunknown : rest * reciprocal + (row.products y start - row.get ⬝ᵥ y.get) * reciprocal =
      (b - row.get ⬝ᵥ y.get) * (1 / pivot) := by
    rw [hnone, add_zero] at hblocks
    rw [← hblocks]
    ring
  have hdot : ∑ j, row.get j * y.get j = row.get ⬝ᵥ y.get := rfl
  rw [hdot, hunknown]
  field_simp
  ring

/-- **A lower triangular system is solved**, whatever the cuts. -/
theorem mul_forwardSubst (hdeduct : deduct.IsExact) (size : ℕ) : ∀ {n : ℕ} (l : Lower ℝ n),
    (∀ i, l.toMat.get i i ≠ 0) → ∀ b : Vec ℝ n, l.toMat * l.forwardSubst deduct size b = b
  | 0, empty, _, b => by
    ext i
    exact i.elim0
  | n + 1, border above row pivot, hpivots, b => by
    have habove : above.toMat * above.forwardSubst deduct size b.init = b.init :=
      mul_forwardSubst hdeduct size above
        (fun i => by simpa using hpivots i.castSucc) b.init
    have hpivot : pivot ≠ 0 := by simpa using hpivots (Fin.last n)
    rw [forwardSubst, toMat_border_mulVec, habove,
      solveRow_real hdeduct (blockEnds_sorted size size n) row hpivot, Vec.snoc_init_last]

/-- A row of the factor solves the system of the rows above it. -/
theorem mul_eliminate : ∀ {n : ℕ} (l : Lower ℝ n) (reciprocals : Vec ℝ n),
    (∀ i, reciprocals.get i * l.toMat.get i i = 1) → ∀ a : Vec ℝ n,
    l.toMat * l.eliminate reciprocals a = a
  | 0, empty, _, _, a => by
    ext i
    exact i.elim0
  | n + 1, border above row pivot, reciprocals, h, a => by
    have habove : above.toMat * above.eliminate reciprocals.init a.init = a.init :=
      mul_eliminate above reciprocals.init (fun i => by simpa using h i.castSucc) a.init
    have hpivot : reciprocals.last * pivot = 1 := by simpa [Vec.last] using h (Fin.last n)
    rw [eliminate, toMat_border_mulVec, habove, Vec.takeProducts_real, mul_comm pivot, mul_assoc,
      hpivot, mul_one, add_sub_cancel, Vec.snoc_init_last]

/-! ## Systems -/

/-- Solving with the reflected factor solves the system of the transpose. -/
theorem transpose_mul_reflected {up : Deduction ℝ} (hup : up.IsExact) (l : Lower ℝ n)
    (hpivots : ∀ i, l.toMat.get i i ≠ 0) (b : Vec ℝ n) :
    l.toMat.transpose * ((ofMat l.toMat.antitranspose).forwardSubst up n b.reverse).reverse =
      b := by
  have hreflected : (ofMat l.toMat.antitranspose).toMat = l.toMat.antitranspose :=
    toMat_ofMat _ fun i j hij => by
      rw [Mat.get_antitranspose]
      exact l.get_toMat_of_lt (Fin.rev_lt_rev.mpr hij)
  have hsolve := mul_forwardSubst hup n (ofMat l.toMat.antitranspose)
    (fun i => by rw [hreflected, Mat.get_antitranspose]; exact hpivots _) b.reverse
  rw [hreflected] at hsolve
  generalize (ofMat l.toMat.antitranspose).forwardSubst up n b.reverse = z at hsolve
  ext i
  have hi := congrArg (fun v => v.get i.rev) hsolve
  simp only [Mat.get_mulVec_real, Vec.get_reverse, Fin.rev_rev] at hi ⊢
  rw [← hi]
  refine Fintype.sum_equiv Fin.revPerm _ _ fun j => ?_
  simp [Mat.toMatrix_apply]

/-- **Solving down and then up solves the system of the factor and its transpose.** -/
theorem mulVec_solveWith {down up : Deduction ℝ} (hdown : down.IsExact) (hup : up.IsExact)
    (l : Lower ℝ n) (hpivots : ∀ i, l.toMat.get i i ≠ 0) (b : Vec ℝ n) :
    l.toMat * (l.toMat.transpose * solveWith down up l (ofMat l.toMat.antitranspose) b) = b := by
  unfold solveWith
  rw [transpose_mul_reflected hup l hpivots]
  exact mul_forwardSubst hdown n l hpivots b

/-- Systems are solved column by column. -/
theorem mul_solve (l : Lower ℝ n) (hpivots : ∀ i, l.toMat.get i i ≠ 0) {k : ℕ} (b : Mat ℝ n k)
    (j : Fin k) : l.toMat * (l.toMat.transpose * (l.solve b).col j) = b.col j := by
  have hcol (f : Fin k → Vec ℝ n) : (Mat.ofCols f).col j = f j := by
    ext i
    simp [Mat.ofCols, Mat.col]
  unfold solve
  rw [hcol]
  split
  next =>
    exact mulVec_solveWith takeProducts_isExact
      (isExact_of_reversed_dot Vec.dotFusedByFour Vec.dotFusedByFour_real) l hpivots _
  next =>
    exact mulVec_solveWith (isExact_of_dot Vec.dotFused Vec.dotFused_real)
      (isExact_of_reversed_dot Vec.dotFused Vec.dotFused_real) l hpivots _

theorem mul_solveVec (l : Lower ℝ n) (hpivots : ∀ i, l.toMat.get i i ≠ 0) (b : Vec ℝ n) :
    l.toMat * (l.toMat.transpose * l.solveVec b) = b := by
  refine (mul_solve l hpivots (.ofVec b) 0).trans ?_
  ext i
  simp [Mat.ofVec, Mat.col]

/-- What a factor makes of two vectors, on whichever side of an inner product it stands. -/
theorem dot_mul_comm (l : Lower ℝ n) (v w : Vec ℝ n) :
    (l.toMat * (l.toMat.transpose * v)).dot w =
      (l.toMat.transpose * v).dot (l.toMat.transpose * w) := by
  simp only [Vec.dot_real, Mat.get_mulVec_real, Mat.toMatrix_transpose,
    Mat.dotProduct_transpose_mulVec]

/-- The right-hand side and the solution make a square. -/
theorem dot_solveVec (l : Lower ℝ n) (hpivots : ∀ i, l.toMat.get i i ≠ 0) (b : Vec ℝ n) :
    b.dot (l.solveVec b) = (l.toMat.transpose * l.solveVec b).normSq := by
  have hsolve := l.mul_solveVec hpivots b
  generalize l.solveVec b = x at hsolve
  rw [← hsolve, dot_mul_comm]
  rfl

/-- **A solution vanishes where the right-hand side does.** A vector that the factor and its
transpose make zero of is orthogonal to all that they reach, which is everything. -/
theorem solveVec_zero (l : Lower ℝ n) (hpivots : ∀ i, l.toMat.get i i ≠ 0) :
    l.solveVec 0 = 0 := by
  have hsolve := l.mul_solveVec hpivots 0
  generalize l.solveVec 0 = x at hsolve ⊢
  have hself := l.mul_solveVec hpivots x
  generalize l.solveVec x = z at hself
  rw [← Vec.normSq_eq_zero_iff]
  calc x.normSq
    _ = (l.toMat * (l.toMat.transpose * z)).dot x := by rw [hself]; rfl
    _ = (l.toMat * (l.toMat.transpose * x)).dot z := by
      rw [dot_mul_comm, dot_mul_comm, Vec.dot_real, Vec.dot_real, dotProduct_comm]
    _ = 0 := by rw [hsolve, Vec.dot_real, Vec.toFun_zero, zero_dotProduct]

/-- The right-hand side and the solution are orthogonal only if both vanish. -/
theorem dot_solveVec_eq_zero_iff (l : Lower ℝ n) (hpivots : ∀ i, l.toMat.get i i ≠ 0)
    {b : Vec ℝ n} : b.dot (l.solveVec b) = 0 ↔ b = 0 := by
  rw [dot_solveVec l hpivots, Vec.normSq_eq_zero_iff]
  constructor
  · intro hzero
    rw [← l.mul_solveVec hpivots b, hzero, Mat.mul_zeroVec]
  · rintro rfl
    rw [l.solveVec_zero hpivots, Mat.mul_zeroVec]

end Lower

/-! ## Factorization -/

/-- The lower triangular matrix `l` is a factor of the matrix with the lower triangle of `a`. -/
structure Lower.Factorizes {n : ℕ} (l : Lower ℝ n) (a : Mat ℝ n n) : Prop where
  pivots : ∀ i, 0 < l.toMat.get i i
  lower : ∀ i j, j ≤ i → (l.toMat * l.toMat.transpose).get i j = a.get i j

namespace Lower

variable {n : ℕ}

theorem get_mul_transpose (l : Lower ℝ n) (i j : Fin n) :
    (l.toMat * l.toMat.transpose).get i j = ∑ k, l.toMat.get i k * l.toMat.get j k := by
  rw [← Mat.toMatrix_apply, Mat.toMatrix_mul, Mat.toMatrix_transpose]
  rfl

/-- One more row of a factor: elimination gives what is left of the diagonal, and the pivot is the
root of what remains there. -/
theorem Factorizes.border {above : Lower ℝ n} {a : Mat ℝ (n + 1) (n + 1)}
    (h : above.Factorizes a.leading) {row : Vec ℝ n} {pivot : ℝ}
    (hrow : above.toMat * row = (a.row (Fin.last n)).init) (hpos : 0 < pivot)
    (hpivot : row.get ⬝ᵥ row.get + pivot * pivot = a.get (Fin.last n) (Fin.last n)) :
    (border above row pivot).Factorizes a := by
  have hlast (j : Fin n) :
      ∑ k, row.get k * above.toMat.get j k = a.get (Fin.last n) j.castSucc := by
    have hj := congrArg (fun v => v.get j) hrow
    simp only [Mat.get_mulVec_real, Vec.get_init] at hj
    refine Eq.trans (sum_congr rfl fun k _ => mul_comm _ _) hj
  constructor
  · intro i
    cases i using Fin.lastCases with
    | last => simpa using hpos
    | cast i => simpa using h.pivots i
  · intro i j hij
    rw [get_mul_transpose, Fin.sum_univ_castSucc]
    cases i using Fin.lastCases with
    | last =>
      cases j using Fin.lastCases with
      | last => simpa [dotProduct] using hpivot
      | cast j => simpa using hlast j
    | cast i =>
      cases j using Fin.lastCases with
      | last => exact absurd (Fin.castSucc_lt_last i) hij.not_gt
      | cast j =>
        have hcorner := h.lower i j (Fin.castSucc_le_castSucc_iff.mp hij)
        rw [get_mul_transpose, Mat.get_leading] at hcorner
        simpa using hcorner

/-- A factor of a symmetric matrix gives the matrix back. -/
theorem Factorizes.mul_transpose {l : Lower ℝ n} {a : Mat ℝ n n} (h : l.Factorizes a)
    (hsymm : a.IsSymmetric) : l.toMat * l.toMat.transpose = a := by
  ext i j
  rcases le_total j i with hij | hij
  · exact h.lower i j hij
  · rw [hsymm.get_comm i j, ← h.lower j i hij, get_mul_transpose, get_mul_transpose]
    exact sum_congr rfl fun k _ => mul_comm _ _

end Lower

theorem choleskyWithReciprocals_real : ∀ {n : ℕ} {a : Mat ℝ n n} {l : Lower ℝ n} {r : Vec ℝ n},
    choleskyWithReciprocals a = .ok (l, r) →
    l.Factorizes a ∧ ∀ i, r.get i * l.toMat.get i i = 1
  | 0, _, _, _, _ => ⟨⟨fun i => i.elim0, fun i => i.elim0⟩, fun i => i.elim0⟩
  | n + 1, a, l, r, h => by
    obtain ⟨⟨above, reciprocals⟩, habove, h⟩ := exists_of_bind_ok h
    obtain ⟨hfactor, hreciprocals⟩ := choleskyWithReciprocals_real habove
    dsimp only at h
    split at h
    next hrest =>
      obtain ⟨rfl, rfl⟩ := Prod.mk.inj (Except.ok.inj h)
      rw [Vec.takeProducts_real] at hrest
      rw [Vec.takeProducts_real]
      have hrow := above.mul_eliminate reciprocals hreciprocals (a.row (Fin.last n)).init
      generalize above.eliminate reciprocals (a.row (Fin.last n)).init = row at hrow hrest ⊢
      generalize hr : a.get (Fin.last n) (Fin.last n) - row.get ⬝ᵥ row.get = rest at hrest ⊢
      -- what remains, divided by its root, is its root
      have hpivot : rest * (1 / Scalar.sqrt rest) = √rest := by
        rw [Scalar.sqrt_real, mul_one_div, Real.div_sqrt]
      rw [hpivot]
      refine ⟨hfactor.border hrow (Real.sqrt_pos.mpr hrest) ?_, fun i => ?_⟩
      · rw [Real.mul_self_sqrt hrest.le, ← hr]
        ring
      · cases i using Fin.lastCases with
        | last => simpa using inv_mul_cancel₀ (Real.sqrt_pos.mpr hrest).ne'
        | cast i => simpa using hreciprocals i
    next => cases h

/-- **Without rounding, a Cholesky factor is a factor.** -/
theorem cholesky_real {n : ℕ} {a : Mat ℝ n n} {l : Lower ℝ n} (h : cholesky a = .ok l) :
    l.Factorizes a := by
  unfold cholesky at h
  cases hfactor : choleskyWithReciprocals a with
  | error i => rw [hfactor] at h; cases h
  | ok out =>
    rw [hfactor] at h
    obtain rfl := Except.ok.inj h
    exact (choleskyWithReciprocals_real hfactor).1

namespace Lower.Factorizes

variable {n : ℕ} {l : Lower ℝ n} {a : Mat ℝ n n}

/-- **A symmetric system is solved by a factor of its matrix.** -/
theorem mul_solveVec (h : l.Factorizes a) (hsymm : a.IsSymmetric) (b : Vec ℝ n) :
    a * l.solveVec b = b := by
  have hsolve := l.mul_solveVec (fun i => (h.pivots i).ne') b
  ext i
  have hi := congrArg (fun v => v.get i) hsolve
  simp only [Mat.get_mulVec_real, Matrix.mulVec_mulVec, ← Mat.toMatrix_mul] at hi
  rw [Mat.get_mulVec_real, ← h.mul_transpose hsymm]
  exact hi

/-- The solution does not point away from the right-hand side. -/
theorem dot_solveVec_nonneg (h : l.Factorizes a) (b : Vec ℝ n) : 0 ≤ b.dot (l.solveVec b) := by
  rw [l.dot_solveVec (fun i => (h.pivots i).ne')]
  exact Vec.normSq_nonneg _

end Lower.Factorizes

end Shooting
