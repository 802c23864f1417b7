import Shooting.Scalar
import Mathlib.Analysis.SpecialFunctions.Complex.Arg
import Mathlib.Analysis.SpecialFunctions.Pow.Real

/-!
# Exact scalars

The real numbers as scalars: what the definitions of this library compute if nothing is rounded.
Every real number is finite and compares with all others.
-/

namespace Shooting

/-- Arithmetic without rounding. -/
noncomputable instance : Scalar ℝ where
  decidableLT := inferInstance
  decidableLE := inferInstance
  mulAdd a b c := a * b + c
  sqrt := Real.sqrt
  hypot a b := Real.sqrt (a * a + b * b)
  cbrt a := if 0 ≤ a then a ^ (1 / 3 : ℝ) else -(-a) ^ (1 / 3 : ℝ)
  sin := Real.sin
  cos := Real.cos
  atan2 y x := Complex.arg ⟨x, y⟩
  pi := Real.pi
  isFinite _ := true
  isNaN _ := false

/-- Of the two ways to divide real numbers, as scalars and as elements of a field, the second one is
preferred, whatever has been imported first. -/
noncomputable instance instDivReal : Div ℝ := DivInvMonoid.toDiv

/-- Decimals of real numbers are those of the field, too. -/
noncomputable instance instOfScientificReal : OfScientific ℝ := NNRatCast.toOfScientific

namespace Scalar

@[simp] theorem mulAdd_real (a b c : ℝ) : mulAdd a b c = a * b + c := rfl

@[simp] theorem sqrt_real (a : ℝ) : sqrt a = Real.sqrt a := rfl

theorem abs_real (a : ℝ) : abs a = |a| := by
  unfold abs
  split
  next hneg => rw [abs_of_neg hneg]
  next hpos => rw [abs_of_nonneg (not_lt.mp hpos)]

/-! The sign of a real number is never zero. -/

theorem sign_mul_self (a : ℝ) : sign a * a = |a| := by
  unfold sign
  split
  next h => rw [one_mul, abs_of_nonneg h]
  next h => rw [neg_one_mul, abs_of_neg (not_le.mp h)]

theorem sign_mul_sign (a : ℝ) : sign a * sign a = 1 := by
  unfold sign
  split <;> norm_num

theorem abs_sign (a : ℝ) : |sign a| = 1 := by
  unfold sign
  split
  · exact abs_one
  · rw [abs_neg, abs_one]

theorem sign_mul_abs (a : ℝ) : sign a * |a| = a := by
  rw [← sign_mul_self, ← mul_assoc, sign_mul_sign, one_mul]

theorem sign_neg_sign_mul (a : ℝ) {b : ℝ} (h : 0 < b) : sign (-(sign a * b)) = -sign a := by
  unfold sign
  split
  next ha => rw [one_mul, if_neg (not_le.mpr (neg_neg_of_pos h))]
  next ha => rw [neg_one_mul, neg_neg, if_pos h.le, neg_neg]

@[simp] theorem isFinite_real (a : ℝ) : isFinite a = true := rfl

@[simp] theorem isNaN_real (a : ℝ) : isNaN a = false := rfl

/-- Adding terms one after the other adds their sum. -/
theorem foldl_add_real : ∀ {n : ℕ} (f : Fin n → ℝ) (a : ℝ),
    Fin.foldl n (fun acc i => acc + f i) a = a + ∑ i, f i
  | 0, _, a => by simp
  | n + 1, f, a => by
    rw [Fin.foldl_succ_last, foldl_add_real (fun i => f i.castSucc) a, Fin.sum_univ_castSucc,
      add_assoc]

@[simp] theorem sum_real {n : ℕ} (f : Fin n → ℝ) : sum f = ∑ i, f i := by
  unfold sum
  rw [foldl_add_real, zero_add]

end Scalar

end Shooting
