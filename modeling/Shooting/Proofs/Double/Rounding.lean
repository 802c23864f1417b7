import Shooting.Proofs.Double.Rank

/-!
# Rounding to doubles

The result of an operation is a natural number times a power of two, rounded to the exponents that
doubles have. `grid` is the exponent at which a value is rounded: that of its 53rd bit, or the least
there is. Rounding cuts off what is below and adds at most one.

Ranks make the rest simple. A mantissa that is rounded up to 54 bits is halved and its exponent
raised, which is the same rank again, and a value beyond the largest double becomes infinity, whose
rank is next (`round_spec`).
-/

namespace Shooting.Double

open Float.Model (UnpackedFloat)
open Float.Model.UnpackedFloat (Sign Accuracy ExtendedMantissa pack packComponents packedInfinity
  roundWithAccuracy shiftToTargetExponent)

/-! ## Packing -/

/-- The rank of a canonical value survives packing, unless it is beyond that of infinity. -/
theorem pack_finite (s : Sign) {m : Nat} {e : Int} (hpos : 0 < m) (hm : m < 2 ^ 53)
    (he : -1074 ≤ e) (hc : e = -1074 ∨ 2 ^ 52 ≤ m) :
    sign (pack .binary64 (.finite s m e hpos)) = s ∧
      (magnitude (pack .binary64 (.finite s m e hpos)) : Int) =
        min (top : Int) ((e + 1074) * 2 ^ 52 + m) := by
  have hlog : m.log2 + 1 = 53 ↔ 2 ^ 52 ≤ m := by
    rw [← Nat.le_log2 hpos.ne']
    have := (Nat.log2_lt hpos.ne').mpr hm
    omega
  have hbias : Float.Model.Format.binary64.exponentBias = 1023 := by decide
  have hmod : (BitVec.ofNat 52 m).toNat = m % 2 ^ 52 := BitVec.toNat_ofNat ..
  unfold pack
  dsimp only
  split
  next hover =>
    rw [hbias] at hover
    refine ⟨sign_packComponents _ _ _, ?_⟩
    unfold packedInfinity
    rw [magnitude_packComponents]
    change ((top : Nat) : Int) = _
    unfold top
    omega
  next hover =>
    rw [hbias] at hover
    split
    next hnormal =>
      change m.log2 + 1 = 53 at hnormal
      refine ⟨sign_packComponents _ _ _, ?_⟩
      rw [magnitude_packComponents, hmod, BitVec.toNat_ofNat, hbias]
      unfold top
      omega
    next hlow =>
      change ¬ m.log2 + 1 = 53 at hlow
      refine ⟨sign_packComponents _ _ _, ?_⟩
      rw [magnitude_packComponents, hmod]
      change ((0 * 2 ^ 52 + m % 2 ^ 52 : Nat) : Int) = _
      unfold top
      omega

/-- What is packed is a number unless its bits are beyond those of infinity. -/
theorem isNaN_pack {u : UnpackedFloat} (h : magnitude (pack .binary64 u) ≤ top) :
    Float.isNaN ⟨.pack u⟩ = false := by
  have hnum := (unpack_spec (pack .binary64 u)).2.1.not.mpr (by omega)
  exact Bool.eq_false_iff.mpr hnum

theorem rankOf_pack {u : UnpackedFloat} (h : magnitude (pack .binary64 u) ≤ top) :
    rankOf ⟨.pack u⟩ = (sign (pack .binary64 u)).apply (magnitude (pack .binary64 u)) :=
  rankOf_eq (isNaN_pack h)

/-! ## Shifting -/

theorem mantissa_shiftRight (em : ExtendedMantissa) : ∀ k : Nat,
    (em >>> k).mantissa = em.mantissa / 2 ^ k
  | 0 => (Nat.div_one _).symm
  | k + 1 => by
    show (em >>> k).mantissa / 2 = _
    rw [mantissa_shiftRight em k, Nat.div_div_eq_div_mul, Nat.pow_succ]

theorem roundedMantissa_bounds (em : ExtendedMantissa) :
    em.mantissa ≤ em.roundedMantissa ∧ em.roundedMantissa ≤ em.mantissa + 1 := by
  obtain ⟨m, round, sticky⟩ := em
  cases round <;> cases sticky <;>
    simp only [ExtendedMantissa.roundedMantissa, ExtendedMantissa.accuracy,
      Accuracy.roundToNearestEven] <;> omega

/-- The exponent at which `m * 2 ^ e` is rounded. -/
def grid (m : Nat) (e : Int) : Int := max ((m.log2 : Int) + e - 52) (-1074)

theorem targetExponent_eq (m : Nat) (e : Int) :
    Float.Model.Format.binary64.targetExponent (Float.Model.totalExponent m e) = grid m e := by
  unfold Float.Model.Format.targetExponent Float.Model.totalExponent grid
    Float.Model.Format.minExponent Float.Model.Format.mantissaBits
  show max (((m.log2 : Int) + 1 + e) - 53) (3 - 1024 - 53) = _
  omega

theorem shiftToTargetExponent_eq (m : Nat) (e : Int) (a : Accuracy) (h : e ≤ grid m e) :
    ∃ em, shiftToTargetExponent .binary64 m e a = (em, grid m e) ∧
      em.mantissa = m / 2 ^ (grid m e - e).toNat := by
  have htarget := targetExponent_eq m e
  generalize ht : Float.Model.Format.binary64.targetExponent (Float.Model.totalExponent m e) = t
    at htarget
  refine ⟨_, Prod.ext rfl ?_, ?_⟩
  · show e + ((Float.Model.Format.binary64.targetExponent _ - e).toNat : Int) = _
    rw [ht]
    omega
  · show (ExtendedMantissa.ofMantissaAndAccuracy m a >>>
      (Float.Model.Format.binary64.targetExponent (Float.Model.totalExponent m e) - e).toNat :
        ExtendedMantissa).mantissa = _
    rw [ht, htarget, mantissa_shiftRight]
    congr 1
    cases a with
    | exact => rfl
    | inexact o => cases o <;> rfl

/-- What is left of a mantissa on its grid has at most 53 bits, and all of them unless the exponent
is the least. -/
theorem div_pow_bounds {m : Nat} {e : Int} (h : e ≤ grid m e) :
    m / 2 ^ (grid m e - e).toNat < 2 ^ 53 ∧
      (grid m e = -1074 ∨ 2 ^ 52 ≤ m / 2 ^ (grid m e - e).toNat) := by
  have hgrid : grid m e = max ((m.log2 : Int) + e - 52) (-1074) := rfl
  generalize hk : (grid m e - e).toNat = k
  have hpos : 0 < 2 ^ k := Nat.two_pow_pos k
  constructor
  · rw [Nat.div_lt_iff_lt_mul hpos, ← Nat.pow_add]
    calc m < 2 ^ (m.log2 + 1) := Nat.lt_log2_self
      _ ≤ 2 ^ (53 + k) := Nat.pow_le_pow_right Nat.two_pos (by omega)
  · by_cases hlow : grid m e = -1074
    · exact .inl hlow
    · have hm : m ≠ 0 := by
        rintro rfl
        have hlog : Nat.log2 0 = 0 := rfl
        omega
      refine .inr ?_
      rw [Nat.le_div_iff_mul_le hpos, ← Nat.pow_add, ← Nat.le_log2 hm]
      omega

/-- A mantissa that was rounded is where it belongs, but it may have become one bit longer. -/
theorem grid_rounded {r : Nat} {t : Int} (hr : r ≤ 2 ^ 53) (ht : -1074 ≤ t)
    (hc : t = -1074 ∨ 2 ^ 52 ≤ r) :
    (r < 2 ^ 53 ∧ grid r t = t) ∨ (r = 2 ^ 53 ∧ grid r t = t + 1) := by
  unfold grid
  rcases Nat.lt_or_eq_of_le hr with hlt | rfl
  · refine .inl ⟨hlt, ?_⟩
    rcases hc with rfl | hlow
    · have hlog : r.log2 ≤ 52 := by
        by_cases hzero : r = 0
        · subst hzero
          decide
        · have := (Nat.log2_lt hzero).mpr hlt
          omega
      omega
    · have hpos : r ≠ 0 := by omega
      have hlt' := (Nat.log2_lt hpos).mpr hlt
      have hle := (Nat.le_log2 hpos).mpr hlow
      omega
  · refine .inr ⟨rfl, ?_⟩
    rw [Nat.log2_two_pow]
    omega

/-! ## Rounding -/

/-- **Rounding keeps the sign and cuts off what is below the grid, or goes one up from there.** -/
theorem round_spec (s : Sign) {m : Nat} {e : Int} (a : Accuracy) (h : e ≤ grid m e) :
    ∃ r, m / 2 ^ (grid m e - e).toNat ≤ r ∧ r ≤ m / 2 ^ (grid m e - e).toNat + 1 ∧
      sign (pack .binary64 (roundWithAccuracy .binary64 s m e a)) = s ∧
      (magnitude (pack .binary64 (roundWithAccuracy .binary64 s m e a)) : Int) =
        min (top : Int) ((grid m e + 1074) * 2 ^ 52 + r) := by
  obtain ⟨em, hshift, hfloor⟩ := shiftToTargetExponent_eq m e a h
  obtain ⟨hsmall, hlarge⟩ := div_pow_bounds h
  obtain ⟨hlo, hhi⟩ := roundedMantissa_bounds em
  have hlow : -1074 ≤ grid m e := le_max_right _ _
  rw [hfloor] at hlo hhi
  refine ⟨em.roundedMantissa, hlo, hhi, ?_⟩
  generalize hr : em.roundedMantissa = r at hlo hhi
  generalize grid m e = t at *
  have hc : t = -1074 ∨ 2 ^ 52 ≤ r := hlarge.imp_right fun h => h.trans hlo
  have hgrid := grid_rounded (by omega) hlow hc
  obtain ⟨em', hshift', hfloor'⟩ := shiftToTargetExponent_eq r t .exact (by omega)
  unfold roundWithAccuracy
  rw [hshift]
  dsimp only
  rw [hr, hshift']
  dsimp only
  rcases hgrid with ⟨hlt, hgrid⟩ | ⟨rfl, hgrid⟩
  · rw [hgrid, Int.sub_self] at hfloor'
    have hmantissa : em'.mantissa = r := hfloor'.trans (Nat.div_one r)
    rw [hmantissa, hgrid]
    split
    next hzero =>
      subst hzero
      obtain rfl : t = -1074 := by omega
      exact ⟨sign_packComponents _ _ _, magnitude_packComponents s 0 0 ▸ rfl⟩
    next hzero => exact pack_finite s (Nat.pos_of_ne_zero hzero) hlt hlow hc
  · have hmantissa : em'.mantissa = 2 ^ 52 := by
      rw [hfloor', hgrid, add_sub_cancel_left]
      rfl
    have hexponent : -1074 ≤ t + 1 := by omega
    rw [hmantissa, hgrid, dif_neg (by decide)]
    obtain ⟨hsign, hmagnitude⟩ :=
      pack_finite s (Nat.two_pow_pos 52) (by decide) hexponent (.inr le_rfl)
    refine ⟨hsign, hmagnitude.trans ?_⟩
    omega

end Shooting.Double
