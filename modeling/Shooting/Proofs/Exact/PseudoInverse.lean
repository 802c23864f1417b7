import Shooting.Linear.PseudoInverse
import Shooting.Proofs.Exact.Linear
import Mathlib.Algebra.BigOperators.Field

/-!
# The exact pseudo-inverse of a column

A matrix with one column is brought into bidiagonal form by one reflection, and the form has no
links. So no sweep is needed to find its singular values, and where nothing is rounded its
pseudo-inverse is known in closed form: the row divided by the square of its length
(`Mat.pseudoInverse?_column`). It undoes the column and is undone by it (`Mat.mul_mul_column`).
-/

namespace Shooting

open Matrix

namespace Vec

theorem drop_zero {n : ℕ} (v : Vec ℝ n) : (v.drop 0 : Vec ℝ n) = v := by
  ext i
  have hindex : (⟨0 + i, by omega⟩ : Fin n) = i := Fin.ext (Nat.zero_add _)
  exact (v.get_drop 0 i).trans (congrArg v.get hindex)

theorem get_mem_toList {α : Type} {n : ℕ} (v : Vec α n) (i : Fin n) : v.get i ∈ v.toList :=
  Vector.mem_toList_iff.mpr (Vector.getElem_mem _)

end Vec

/-! ## The reflection that clears a column -/

namespace Reflection

variable {n : ℕ}

/-- The square of the length of the axis before it is normalized. -/
noncomputable def factor (w : Vec ℝ (n + 1)) : ℝ := (w.normSq + |w.get 0| * w.norm) * 2.0

/-- The axis of the reflection that clears a column. -/
noncomputable def axisOf (w : Vec ℝ (n + 1)) : Vec ℝ (n + 1) :=
  (w.put 0 (w.get 0 + Scalar.sign (w.get 0) * w.norm)).map (· / √(factor w))

theorem factor_eq (w : Vec ℝ (n + 1)) : factor w = w.norm * (2 * (|w.get 0| + w.norm)) := by
  have htwo : (2.0 : ℝ) = 2 := by norm_num
  unfold factor
  rw [htwo, ← w.norm_mul_self]
  ring

/-- The first entry of the axis has the sign of that of the column. -/
theorem get_axisOf_zero (w : Vec ℝ (n + 1)) :
    (axisOf w).get 0 = Scalar.sign (w.get 0) * (|w.get 0| + w.norm) / √(factor w) := by
  unfold axisOf
  rw [Vec.get_map, Vec.get_put, if_pos (Fin.val_zero _), mul_add, Scalar.sign_mul_abs]

theorem get_axisOf_of_ne {w : Vec ℝ (n + 1)} {i : Fin (n + 1)} (h : i ≠ 0) :
    (axisOf w).get i = w.get i / √(factor w) := by
  unfold axisOf
  rw [Vec.get_map, Vec.get_put, if_neg (Fin.val_ne_zero_iff.mpr h)]

theorem factor_pos {w : Vec ℝ (n + 1)} (h : w ≠ 0) : 0 < factor w := by
  have hpos := Vec.norm_pos h
  rw [factor_eq]
  positivity

/-- The axis has length one already, where nothing is rounded. -/
theorem normSq_axisOf {w : Vec ℝ (n + 1)} (h : w ≠ 0) : (axisOf w).normSq = 1 := by
  have hpos := factor_pos h
  have haxis : (axisOf w).normSq = (axisOf w).get 0 * (axisOf w).get 0 +
      ∑ i : Fin n, (axisOf w).get i.succ * (axisOf w).get i.succ := by
    rw [Vec.normSq_real]
    exact Fin.sum_univ_succ _
  have hcolumn : w.normSq = w.get 0 * w.get 0 + ∑ i : Fin n, w.get i.succ * w.get i.succ := by
    rw [Vec.normSq_real]
    exact Fin.sum_univ_succ _
  rw [haxis, get_axisOf_zero]
  simp only [get_axisOf_of_ne (Fin.succ_ne_zero _), div_mul_div_comm, Real.mul_self_sqrt hpos.le,
    ← Finset.sum_div]
  rw [← add_div, div_eq_one_iff_eq hpos.ne', factor_eq]
  linear_combination (|w.get 0| + w.norm) * (|w.get 0| + w.norm) *
    Scalar.sign_mul_sign (w.get 0) - hcolumn - w.norm_mul_self + abs_mul_abs_self (w.get 0)

/-- Where nothing is rounded, an axis that is divided by its length once more stays what it is. -/
theorem clearing_zero {w : Vec ℝ (n + 1)} (h : w ≠ 0) :
    clearing 0 w = ⟨0, axisOf w, -(Scalar.sign (w.get 0) * w.norm)⟩ := by
  have hfactor : ((w.normSq + |w.get 0| * w.norm) * 2.0 == 0) = false :=
    beq_eq_false_iff_ne.mpr (factor_pos h).ne'
  have hunit : (axisOf w).norm = 1 := by
    unfold Vec.norm
    rw [normSq_axisOf h]
    exact Real.sqrt_one
  have hsame : (axisOf w).map (· / 1) = axisOf w := by
    ext i
    rw [Vec.get_map, div_one]
  have hentry : w.entry 0 = w.get 0 := w.entry_val 0
  have hlength : Scalar.sqrt w.normSq = w.norm := rfl
  unfold clearing
  generalize hv : w.drop 0 = v
  obtain rfl : v = w := hv.symm.trans w.drop_zero
  dsimp only
  rw [hentry, Scalar.abs_real, hlength, hfactor]
  show (⟨0, (axisOf v).map (· / (axisOf v).norm), _⟩ : Reflection ℝ (n + 1)) = _
  rw [hunit, hsame]

/-- Twice the first entry of the axis, without its sign. -/
theorem twice_axisOf_zero (w : Vec ℝ (n + 1)) :
    (axisOf w).get 0 * -(2.0 * -Scalar.sign (w.get 0)) =
      2 * (|w.get 0| + w.norm) / √(factor w) := by
  have htwo : (2.0 : ℝ) = 2 := by norm_num
  rw [get_axisOf_zero, htwo]
  linear_combination 2 * (|w.get 0| + w.norm) / √(factor w) * Scalar.sign_mul_sign (w.get 0)

/-- Both entries that meet in a reflection have been divided by a root of `factor`. -/
theorem div_factor {w : Vec ℝ (n + 1)} (h : w ≠ 0) :
    2 * (|w.get 0| + w.norm) / √(factor w) / √(factor w) = 1 / w.norm := by
  have hpos := Vec.norm_pos h
  have hne : 2 * (|w.get 0| + w.norm) ≠ 0 := by positivity
  rw [div_div, Real.mul_self_sqrt (factor_pos h).le, factor_eq, div_mul_cancel_right₀ hne, one_div]

/-- **The reflection that clears a column takes the first unit vector to its direction.** -/
theorem apply_clearing {dot : InnerProduct ℝ} (hdot : ∀ {k : ℕ} (v w : Vec ℝ k), dot v w = v.dot w)
    {w : Vec ℝ (n + 1)} (h : w ≠ 0) :
    (clearing 0 w).apply dot (.single 0 1) = w.scale (1 / w.norm) := by
  have hpos := Vec.norm_pos h
  have hunit : ((axisOf w).normSq == 0) = false := by
    rw [normSq_axisOf h]
    exact beq_eq_false_iff_ne.mpr one_ne_zero
  have halong : dot (axisOf w) ((Vec.single 0 1 : Vec ℝ (n + 1)).drop 0) = (axisOf w).get 0 := by
    rw [Vec.drop_zero, hdot, Vec.dot_single, mul_one]
  rw [clearing_zero h]
  unfold apply
  dsimp only
  rw [hunit, halong, Scalar.sign_neg_sign_mul _ hpos]
  ext i
  have hentry : (axisOf w).entry (i - 0) = (axisOf w).get i := (axisOf w).entry_val i
  simp only [Bool.false_eq_true, if_false, Vec.get_ofFn, Nat.not_lt_zero, hentry,
    twice_axisOf_zero, Vec.get_single, Vec.get_scale]
  by_cases hi : i = 0
  · have hlength : 1 / w.norm * w.norm = 1 := one_div_mul_cancel hpos.ne'
    rw [hi, if_pos rfl, mul_one, get_axisOf_zero]
    calc 2 * (|w.get 0| + w.norm) / √(factor w) *
          (Scalar.sign (w.get 0) * (|w.get 0| + w.norm) / √(factor w)) + -Scalar.sign (w.get 0)
        = 2 * (|w.get 0| + w.norm) / √(factor w) / √(factor w) *
            (Scalar.sign (w.get 0) * (|w.get 0| + w.norm)) - Scalar.sign (w.get 0) := by ring
      _ = Scalar.sign (w.get 0) * |w.get 0| * (1 / w.norm) := by
        rw [div_factor h]
        linear_combination Scalar.sign (w.get 0) * hlength
      _ = w.get 0 * (1 / w.norm) := by rw [Scalar.sign_mul_abs]
  · rw [if_neg hi, mul_zero, add_zero, get_axisOf_of_ne hi, ← div_factor h]
    ring

/-- A reflection of coordinates past the last one changes nothing. -/
theorem apply_clearing_past (dot : InnerProduct ℝ) {start m : ℕ} (hpast : m ≤ start)
    (w v : Vec ℝ m) :
    (clearing start w).apply dot v = v := by
  have hstart : (clearing start w).start = start := by
    unfold clearing
    dsimp only
    split <;> rfl
  have haxis : (clearing start w).axis.normSq = 0 := by
    rw [Vec.normSq_real]
    exact Finset.sum_eq_zero fun i _ => absurd i.isLt (by omega)
  unfold apply
  rw [haxis]
  exact if_pos (beq_self_eq_true _)

end Reflection

/-! ## One column -/

namespace Bidiagonal

variable {n : ℕ}

/-- The reflections of a matrix with one column. -/
theorem reflections_column (inColumns inRows : InnerProduct ℝ) (a : Mat ℝ (n + 1) 1) :
    ∃ w : Vec ℝ 1, reflections inColumns inRows a = [(.clearing 0 (a.col 0), .clearing 1 w)] :=
  ⟨_, rfl⟩

/-- **The bidiagonal form of a column** is its length. -/
theorem ofMat_column (inColumns inRows : InnerProduct ℝ)
    (hdot : ∀ {k : ℕ} (v w : Vec ℝ k), inColumns v w = v.dot w) {a : Mat ℝ (n + 1) 1}
    (h : a.col 0 ≠ 0) :
    (ofMat inColumns inRows a).diag.get 0 = (a.col 0).norm ∧
      (ofMat inColumns inRows a).left.row 0 = (a.col 0).scale (1 / (a.col 0).norm) ∧
      (ofMat inColumns inRows a).right.get 0 0 = 1 := by
  obtain ⟨w, hrs⟩ := reflections_column inColumns inRows a
  unfold ofMat
  dsimp only
  rw [hrs]
  refine ⟨?_, ?_, ?_⟩
  · rw [Vec.get_ofFn]
    show Scalar.abs (Reflection.clearing 0 (a.col 0)).head = (a.col 0).norm
    rw [Reflection.clearing_zero h, Scalar.abs_real, abs_neg, abs_mul, Scalar.abs_sign, one_mul,
      abs_of_pos (Vec.norm_pos h)]
  · have hfirst : (Mat.ofFn fun (i : Fin 1) (j : Fin (n + 1)) =>
        if i.val = j then (1 : ℝ) else 0).row 0 = .single 0 1 := by
      ext j
      show (Mat.ofFn _).get 0 j = _
      rw [Mat.get_ofFn, Vec.get_single]
      simp only [Fin.ext_iff, eq_comm, Fin.val_zero]
    have happly := Reflection.apply_clearing hdot h
    rw [← hfirst] at happly
    exact happly
  · exact congrArg (Vec.get · 0) (Reflection.apply_clearing_past inRows le_rfl w _)

end Bidiagonal

namespace Mat

variable {m n : ℕ}

/-- The largest distance from zero is no less than any distance. -/
theorem le_foldl_max : ∀ (xs : List ℝ) (a : ℝ),
    a ≤ xs.foldl (fun acc x => Scalar.max acc (Scalar.abs x)) a ∧
      ∀ x ∈ xs, |x| ≤ xs.foldl (fun acc x => Scalar.max acc (Scalar.abs x)) a
  | [], a => ⟨le_rfl, fun _ h => absurd h List.not_mem_nil⟩
  | y :: ys, a => by
    obtain ⟨hstart, hrest⟩ := le_foldl_max ys (max a |y|)
    have hmax : Scalar.max a (Scalar.abs y) = max a |y| := by
      rw [Scalar.abs_real, max_def_lt]
      rfl
    rw [List.foldl_cons, hmax]
    refine ⟨(le_max_left _ _).trans hstart, ?_⟩
    intro x hx
    rcases List.mem_cons.mp hx with rfl | hx
    · exact (le_max_right _ _).trans hstart
    · exact hrest x hx

/-- No entry is farther from zero than the largest distance. -/
theorem abs_get_le_maxAbs (a : Mat ℝ m n) (i : Fin m) (j : Fin n) : |a.get i j| ≤ a.maxAbs := by
  have hrow : (a.row i).toList ∈ a.toLists := List.mem_map_of_mem (a.rows.get_mem_toList i)
  exact (le_foldl_max _ _).2 _ (List.mem_flatten_of_mem hrow ((a.row i).get_mem_toList j))

theorem maxAbs_pos {a : Mat ℝ m 1} (h : a.col 0 ≠ 0) : 0 < a.maxAbs := by
  obtain ⟨i, hi⟩ : ∃ i, a.get i 0 ≠ 0 := by
    by_contra hall
    refine h (Vec.ext fun i => ?_)
    have hentry : (a.col 0).get i = a.get i 0 := Vec.get_ofFn _ i
    rw [hentry, Vec.get_zero]
    exact not_not.mp (not_exists.mp hall i)
  exact (abs_pos.mpr hi).trans_le (a.abs_get_le_maxAbs i 0)

/-- **A column has one singular value**, its length. -/
theorem tallTriples_column (inColumns inRows : InnerProduct ℝ)
    (hdot : ∀ {k : ℕ} (v w : Vec ℝ k), inColumns v w = v.dot w) {a : Mat ℝ (m + 1) 1}
    (h : a.col 0 ≠ 0) :
    ∃ t : SingularTriple ℝ (m + 1) 1, a.tallTriples inColumns inRows = [t] ∧
      t.value = (a.col 0).norm ∧ t.left = (a.col 0).scale (1 / (a.col 0).norm) ∧
        t.right.get 0 = 1 := by
  have htop := maxAbs_pos h
  have hunit : (if (a.maxAbs == 0) = true then 1 else a.maxAbs) = a.maxAbs :=
    if_neg fun hzero => htop.ne' (eq_of_beq hzero)
  let scaled : Mat ℝ (m + 1) 1 := .ofFn fun i j => a.get i j / a.maxAbs
  have hscaled : scaled.col 0 = (a.col 0).scale (1 / a.maxAbs) := by
    ext i
    rw [Vec.get_scale, mul_one_div]
    simp [scaled, Mat.col]
  have hnorm : (scaled.col 0).norm = (a.col 0).norm / a.maxAbs := by
    rw [hscaled, Vec.norm_scale _ (one_div_pos.mpr htop).le, mul_one_div]
  have hlength := Vec.norm_pos h
  have hne : scaled.col 0 ≠ 0 := by
    intro hzero
    rw [hzero, Vec.norm_zero] at hnorm
    exact (div_pos hlength htop).ne hnorm
  obtain ⟨hdiag, hleft, hright⟩ := Bidiagonal.ofMat_column inColumns inRows hdot hne
  let b := Bidiagonal.ofMat inColumns inRows scaled
  have hvalue : b.diag.get 0 * a.maxAbs = (a.col 0).norm := by
    rw [hdiag, hnorm, div_mul_cancel₀ _ htop.ne']
  have hdirection : b.left.row 0 = (a.col 0).scale (1 / (a.col 0).norm) := by
    rw [hleft, hnorm, hscaled, Vec.scale_scale]
    congr 1
    field_simp
  refine ⟨⟨b.diag.get 0 * a.maxAbs, b.left.row 0, b.right.row 0⟩, ?_, hvalue, hdirection, hright⟩
  unfold tallTriples
  dsimp only
  rw [hunit]
  have hsign : ¬ b.diag.get 0 * a.maxAbs < 0 := by
    rw [hvalue]
    exact not_lt.mpr hlength.le
  -- there are no links in a form of one column, so that diagonalizing it leaves it as it is
  exact congrArg (List.cons · []) (if_neg hsign)

/-- **The pseudo-inverse of a column** is the row divided by the square of its length. -/
theorem pseudoInverse?_column {a : Mat ℝ (m + 1) 1} {threshold : ℝ} (hpos : 0 ≤ threshold)
    (h : threshold < (a.col 0).norm) :
    a.pseudoInverse? threshold = some (a.transpose.scale (1 / (a.col 0).normSq)) := by
  have hne : a.col 0 ≠ 0 := by
    intro hzero
    rw [hzero, Vec.norm_zero] at h
    exact absurd h (not_lt.mpr hpos)
  obtain ⟨t, htriples, hvalue, hleft, hright⟩ :=
    tallTriples_column Vec.dot Vec.dotInOrder (fun _ _ => rfl) hne
  have hall : a.singularTriples = [t] := by
    unfold singularTriples
    rw [if_pos (Nat.le_add_left 1 m), htriples]
  have hweight : (if threshold < t.value then 1 / t.value else 0) = 1 / (a.col 0).norm := by
    rw [hvalue, if_pos h]
  unfold pseudoInverse?
  rw [hall]
  refine congrArg some ?_
  ext j i
  obtain rfl : j = 0 := Subsingleton.elim j 0
  rw [get_transpose, ← toMatrix_apply, toMatrix_mul, Matrix.mul_apply]
  show ∑ k : Fin 1, _ = _
  rw [Fin.sum_univ_one, toMatrix_apply, toMatrix_apply, ofCols, get_ofFn, get_ofFn]
  show (t.left.scale (if threshold < t.value then 1 / t.value else 0)).get i * t.right.get 0 = _
  have hentry : (a.col 0).get i = a.get i 0 := Vec.get_ofFn _ i
  rw [hweight, hleft, hright, Vec.scale_scale, mul_one, Vec.get_scale, get_scale, get_transpose,
    hentry, one_div_mul_one_div, Vec.norm_mul_self]

/-- The pseudo-inverse of a column undoes it, and is undone by it. -/
theorem mul_mul_column {a : Mat ℝ m 1} (h : a.col 0 ≠ 0) :
    let P := a.transpose.scale (1 / (a.col 0).normSq)
    P * a * P = P ∧ a * P * a = a := by
  intro P
  have hsquare : (a.col 0).normSq ≠ 0 := Vec.normSq_eq_zero_iff.not.mpr h
  have hone : P.toMatrix * a.toMatrix = 1 := by
    ext j k
    obtain rfl : j = k := Subsingleton.elim j k
    obtain rfl : j = 0 := Subsingleton.elim j 0
    have hentries (i : Fin m) : P.toMatrix 0 i * a.toMatrix i 0 =
        a.get i 0 * a.get i 0 / (a.col 0).normSq := by
      rw [toMatrix_apply, toMatrix_apply, get_scale, get_transpose]
      ring
    have hsum : ∑ i, a.get i 0 * a.get i 0 = (a.col 0).normSq := by
      rw [Vec.normSq_real]
      exact Finset.sum_congr rfl fun i _ => by simp only [col, Vec.get_ofFn]
    rw [Matrix.mul_apply, Finset.sum_congr rfl fun i _ => hentries i, ← Finset.sum_div, hsum,
      div_self hsquare, one_apply_eq]
  refine ⟨?_, ?_⟩
  · ext i j
    rw [← toMatrix_apply, toMatrix_mul, toMatrix_mul, hone, Matrix.one_mul, toMatrix_apply]
  · ext i j
    rw [← toMatrix_apply, toMatrix_mul, toMatrix_mul, Matrix.mul_assoc, hone, Matrix.mul_one,
      toMatrix_apply]

end Mat

end Shooting
