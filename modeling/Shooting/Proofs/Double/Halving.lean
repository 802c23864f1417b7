import Shooting.Proofs.Double.Scaling
import Shooting.Proofs.Double.Signs
import Shooting.Proofs.OrderedScalar
import Shooting.Proofs.Solver.Trial

/-!
# Halving doubles

Half of a positive double is exact until the least exponent is reached, and from there on it loses
one bit at a time (`rankOf_half`). So the step lengths of a line search, which are halved again and
again, are positive up to the 1074th halving (`halving_pos`), the last one with all its bits but
one lost. None is negative, not even where lengths are one over as many halvings
(`stepLength_pos_or_zero`).
-/

namespace Shooting.Double

open Float.Model (UnpackedFloat)
open Float.Model.UnpackedFloat (Sign)

theorem unpack_half :
    ∃ h, (0.5 : Float).toModel.unpack = .finite .positive (2 ^ 52) (-53) h :=
  ⟨Nat.two_pow_pos 52, rfl⟩

/-- The grid of the half of a canonical value is one below its own, unless there is none below. -/
theorem grid_half {s : Sign} {m : Nat} {e : Int} {hm : 0 < m}
    (hcanonical : IsCanonical (.finite s m e hm)) :
    grid (2 ^ 52 * m) (-53 + e) = max (e - 1) (-1074) := by
  obtain ⟨hbits, he, -, hc⟩ := hcanonical
  have hlog : m.log2 ≤ 52 := Nat.le_of_lt_succ ((Nat.log2_lt hm.ne').mpr hbits)
  have hnormal : 2 ^ 52 ≤ m → 52 ≤ m.log2 := (Nat.le_log2 hm.ne').mpr
  have hproduct : (2 ^ 52 * m).log2 = 52 + m.log2 := by
    have hpos : 2 ^ 52 * m ≠ 0 := by omega
    rw [Nat.log2_eq_iff hpos, Nat.add_assoc, Nat.pow_add, Nat.pow_add]
    exact ⟨Nat.mul_le_mul_left _ (Nat.log2_self_le hm.ne'),
      Nat.mul_lt_mul_of_pos_left Nat.lt_log2_self (Nat.two_pow_pos 52)⟩
  unfold grid
  rw [hproduct]
  omega

variable {a : Float}

/-- **What halving does to the rank of a positive double.** -/
theorem rankOf_half (hnum : a.isNaN = false) (hpos : 0 < rankOf a) :
    (0.5 * a).isNaN = false ∧ rankOf a / 2 ≤ rankOf (0.5 * a) ∧ rankOf (0.5 * a) ≤ rankOf a ∧
      (2 ^ 53 ≤ rankOf a → rankOf a - 2 ^ 52 ≤ rankOf (0.5 * a)) := by
  obtain ⟨hhalf, hunpack⟩ := unpack_half
  have hle := rankOf_le_top a
  rw [mul_eq, hunpack]
  rcases positive_cases hnum hpos with hinf | ⟨m, e, hm, hfin⟩
  · have hproduct : UnpackedFloat.mul .binary64 (.finite .positive (2 ^ 52) (-53) hhalf)
        (.infinity .positive) = .infinity .positive := rfl
    have hrank : rankOf a = top := by
      unfold rankOf
      rw [hinf]
      rfl
    rw [hinf, hproduct, rankOf_infinity]
    exact ⟨isNaN_infinity, by omega, hrank.ge, by omega⟩
  · have hcanonical := isCanonical_unpack a
    have hrank : rankOf a = (e + 1074) * 2 ^ 52 + m := by
      unfold rankOf
      rw [hfin]
      rfl
    rw [hfin] at hcanonical ⊢
    have hgrid := grid_half hcanonical
    obtain ⟨r, hlo, hhi, hnum', hrank'⟩ :=
      @rankOf_round (2 ^ 52 * m) (-53 + e) .exact (by rw [hgrid]; omega)
    obtain ⟨hbits, he, -, hc⟩ := hcanonical
    rw [mul_finite, hrank', hrank]
    refine ⟨hnum', ?_⟩
    rcases Int.lt_or_eq_of_le he with hlt | rfl
    · have hshift : (grid (2 ^ 52 * m) (-53 + e) - (-53 + e)).toNat = 52 := by omega
      rw [hshift, Nat.mul_div_cancel_left _ (Nat.two_pow_pos 52)] at hlo hhi
      omega
    · -- on the least exponent the last bit is lost
      have hshift : (grid (2 ^ 52 * m) (-53 + -1074) - (-53 + -1074)).toNat = 53 := by omega
      rw [hshift] at hlo hhi
      omega

theorem half_of_zero (hnum : a.isNaN = false) (hzero : rankOf a = 0) :
    (0.5 * a).isNaN = false ∧ rankOf (0.5 * a) = 0 := by
  obtain ⟨hhalf, hunpack⟩ := unpack_half
  obtain ⟨sign, hsign⟩ := zero_cases hnum hzero
  have hproduct : UnpackedFloat.mul .binary64 (.finite .positive (2 ^ 52) (-53) hhalf)
      (.zero sign) = .zero sign := by cases sign <;> rfl
  rw [mul_eq, hunpack, hsign, hproduct]
  cases sign <;> decide +kernel

/-! ## Step lengths -/

theorem rankOf_halving_zero : rankOf (halving 0) = 1023 * 2 ^ 52 := by decide +kernel

/-- A normal double loses one exponent. -/
theorem rankOf_halving : ∀ k ≤ 1022, (halving k : Float).isNaN = false ∧
    (1023 - k : Int) * 2 ^ 52 ≤ rankOf (halving k)
  | 0, _ => ⟨by decide +kernel, rankOf_halving_zero.ge⟩
  | k + 1, hk => by
    obtain ⟨hnum, hrank⟩ := rankOf_halving k (by omega)
    obtain ⟨hnum', -, -, hhalf⟩ := rankOf_half hnum (by omega)
    exact ⟨hnum', by unfold halving; omega⟩

/-- A subnormal one loses one bit. -/
theorem rankOf_halving_low : ∀ k ≤ 52, (halving (1022 + k) : Float).isNaN = false ∧
    2 ^ (52 - k) ≤ rankOf (halving (1022 + k))
  | 0, _ => by
    obtain ⟨hnum, hrank⟩ := rankOf_halving 1022 le_rfl
    exact ⟨hnum, hrank⟩
  | k + 1, hk => by
    obtain ⟨hnum, hrank⟩ := rankOf_halving_low k (by omega)
    have hpow : (2 : Int) ^ (52 - k) = 2 * 2 ^ (52 - (k + 1)) := by
      rw [← Int.pow_succ', show 52 - (k + 1) + 1 = 52 - k by omega]
    have hpos : (0 : Int) < 2 ^ (52 - (k + 1)) := by positivity
    obtain ⟨hnum', hhalf, -⟩ := rankOf_half hnum (by omega)
    exact ⟨hnum', by rw [← Nat.add_assoc]; unfold halving; omega⟩

/-- **What is left of one is positive up to the 1074th halving.** -/
theorem halving_pos {k : Nat} (hk : k < 1075) : (0 : Float) < halving k := by
  rw [lt_iff, rankOf_zero]
  refine ⟨by decide +kernel, ?_⟩
  rcases Nat.lt_or_ge k 1022 with hlt | hge
  · obtain ⟨hnum, hrank⟩ := rankOf_halving k hlt.le
    exact ⟨hnum, by omega⟩
  · obtain ⟨hnum, hrank⟩ := rankOf_halving_low (k - 1022) (by omega)
    have hpos : (0 : Int) < 2 ^ (52 - (k - 1022)) := by positivity
    rw [show 1022 + (k - 1022) = k by omega] at hnum hrank
    exact ⟨hnum, by omega⟩

theorem unpack_one :
    ∃ h, (One.one : Float).toModel.unpack = .finite .positive (2 ^ 52) (-52) h :=
  ⟨Nat.two_pow_pos 52, rfl⟩

/-- Once it is zero, it stays so, and with the same sign. -/
theorem isPlus_halving : ∀ k, IsPlus (halving k : Float).toModel.unpack
  | 0 => rfl
  | k + 1 => by
    obtain ⟨hhalf, hunpack⟩ := unpack_half
    unfold halving
    rw [unpack_mul, hunpack]
    exact isPlus_unpack_pack (isPlus_mul (isPlus_halving k) hhalf)

theorem isPlus_stepLength (k : Nat) : IsPlus (stepLength k : Float).toModel.unpack := by
  obtain ⟨i, heq | heq⟩ := stepLength_cases (α := Float) k <;> rw [heq]
  · exact isPlus_halving i
  · obtain ⟨hone, hunpack⟩ := unpack_one
    rw [unpack_div]
    change IsPlus (UnpackedFloat.unpack .binary64 (UnpackedFloat.pack .binary64
      (UnpackedFloat.div .binary64 (One.one : Float).toModel.unpack _)))
    rw [hunpack]
    exact isPlus_unpack_pack (isPlus_div (isPlus_halving (i + 1)) hone)

/-- **A step length is positive or zero.** -/
theorem stepLength_pos_or_zero (k : Nat) :
    (0 : Float) < stepLength k ∨ ((stepLength k : Float) == 0) = true := by
  obtain ⟨hnone, hnum, hrank⟩ := le_iff.mp (nonneg_iff.mpr (isPlus_stepLength k).isNonneg)
  rcases hrank.lt_or_eq with hpos | hzero
  · exact .inl (lt_iff.mpr ⟨hnone, hnum, hpos⟩)
  · exact .inr (beq_iff.mpr ⟨hnum, hnone, hzero.symm⟩)

end Shooting.Double
