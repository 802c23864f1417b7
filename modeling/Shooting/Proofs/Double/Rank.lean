import Mathlib

/-!
# The order of doubles

Doubles compare by their unpacked parts, case by case. All of it comes down to one number: `rank`
counts the doubles between zero and a given one, with its sign. For a finite value that is
`(e + 1074) * 2 ^ 52 + m`, whether the mantissa `m` has its hidden bit or not, and so it is the bits
themselves without that of the sign.

* `lt_iff`, `le_iff`, `beq_iff`: doubles that are numbers are ordered by rank, and nothing else is
  ordered;
* `eq_of_rankOf`: a positive double is known by its rank.
-/

namespace Shooting.Double

open Float.Model (UnpackedFloat)
open Float.Model.UnpackedFloat (Sign packComponents unpackExponent unpackMantissa unpackSign)

/-- The rank of infinity. -/
def top : Nat := 2047 * 2 ^ 52

/-- Where an unpacked double stands among all others, counted in doubles from zero. -/
def rank : UnpackedFloat → Int
  | .infinity s => s.apply top
  | .notANumber => 0
  | .zero _ => 0
  | .finite s m e _ => s.apply ((e + 1074) * 2 ^ 52 + m)

/-- A finite value as doubles hold it: the mantissa has 53 bits unless the exponent is the least. -/
def IsCanonical : UnpackedFloat → Prop
  | .finite _ m e _ => m < 2 ^ 53 ∧ -1074 ≤ e ∧ e ≤ 971 ∧ (e = -1074 ∨ 2 ^ 52 ≤ m)
  | _ => True

/-! ## Comparing -/

/-- Comparing exponents first and mantissas second is comparing ranks. -/
theorem compare_parts {e e' : Int} {m m' : Nat} (hm : m < 2 ^ 53) (hm' : m' < 2 ^ 53)
    (he : -1074 ≤ e) (he' : -1074 ≤ e') (hc : e = -1074 ∨ 2 ^ 52 ≤ m)
    (hc' : e' = -1074 ∨ 2 ^ 52 ≤ m') :
    (compare e e').then (compare m m') =
      compare ((e + 1074) * 2 ^ 52 + m) ((e' + 1074) * 2 ^ 52 + m') := by
  rcases lt_trichotomy e e' with hlt | rfl | hgt
  · have hrank : (e + 1074) * 2 ^ 52 + m < (e' + 1074) * 2 ^ 52 + m' := by omega
    rw [compare_lt_iff_lt.mpr hlt, compare_lt_iff_lt.mpr hrank]
    rfl
  · have hexp : compare e e = .eq := compare_eq_iff_eq.mpr rfl
    rw [hexp, Ordering.eq_then]
    rcases lt_trichotomy m m' with hlt | rfl | hgt
    · have hrank : (e + 1074) * 2 ^ 52 + m < (e + 1074) * 2 ^ 52 + m' := by omega
      rw [compare_lt_iff_lt.mpr hlt, compare_lt_iff_lt.mpr hrank]
    · rw [compare_eq_iff_eq.mpr rfl, compare_eq_iff_eq.mpr rfl]
    · have hrank : (e + 1074) * 2 ^ 52 + m' < (e + 1074) * 2 ^ 52 + m := by omega
      rw [compare_gt_iff_gt.mpr hgt, compare_gt_iff_gt.mpr hrank]
  · have hrank : (e' + 1074) * 2 ^ 52 + m' < (e + 1074) * 2 ^ 52 + m := by omega
    rw [compare_gt_iff_gt.mpr hgt, compare_gt_iff_gt.mpr hrank]
    rfl

theorem compare_neg (a b : Int) : compare (-a) (-b) = (compare a b).swap := by
  rcases lt_trichotomy a b with hlt | rfl | hgt
  · rw [compare_lt_iff_lt.mpr hlt, compare_gt_iff_gt.mpr (neg_lt_neg hlt)]
    rfl
  · rw [compare_eq_iff_eq.mpr rfl, compare_eq_iff_eq.mpr rfl]
    rfl
  · rw [compare_gt_iff_gt.mpr hgt, compare_lt_iff_lt.mpr (neg_lt_neg hgt)]
    rfl

/-- The rank of a finite value without its sign. -/
theorem finite_bounds {s : Sign} {m : Nat} {e : Int} {hm : 0 < m}
    (h : IsCanonical (.finite s m e hm)) :
    0 < (e + 1074) * 2 ^ 52 + m ∧ (e + 1074) * 2 ^ 52 + m < top := by
  unfold IsCanonical at h
  unfold top
  omega

/-- **Numbers compare as their ranks.** -/
theorem compare_eq {x y : UnpackedFloat} (hx : IsCanonical x) (hy : IsCanonical y)
    (hx' : x.isNaN = false) (hy' : y.isNaN = false) :
    x.compare y = some (compare (rank x) (rank y)) := by
  have hlt {a b : Int} (h : a < b) : compare a b = .lt := compare_lt_iff_lt.mpr h
  have hgt {a b : Int} (h : b < a) : compare a b = .gt := compare_gt_iff_gt.mpr h
  cases x with
  | notANumber => cases hx'
  | infinity s =>
    cases y with
    | notANumber => cases hy'
    | infinity s' => cases s <;> cases s' <;> decide
    | zero s' => cases s <;> rfl
    | finite s' m e hm =>
      obtain ⟨hpos, htop⟩ := finite_bounds hy
      cases s <;> cases s' <;> simp only [UnpackedFloat.compare, rank, Sign.apply]
      · rw [hlt (by omega)]
      · rw [hlt (by omega)]
      · rw [hgt (by omega)]
      · rw [hgt (by omega)]
  | zero s =>
    cases y with
    | notANumber => cases hy'
    | infinity s' => cases s' <;> rfl
    | zero s' => cases s <;> rfl
    | finite s' m e hm =>
      obtain ⟨hpos, -⟩ := finite_bounds hy
      cases s' <;> simp only [UnpackedFloat.compare, rank, Sign.apply]
      · rw [hgt (by omega)]
      · rw [hlt (by omega)]
  | finite s m e hm =>
    obtain ⟨hpos, htop⟩ := finite_bounds hx
    cases y with
    | notANumber => cases hy'
    | infinity s' =>
      cases s <;> cases s' <;> simp only [UnpackedFloat.compare, rank, Sign.apply]
      · rw [hgt (by omega)]
      · rw [hlt (by omega)]
      · rw [hgt (by omega)]
      · rw [hlt (by omega)]
    | zero s' =>
      cases s <;> simp only [UnpackedFloat.compare, rank, Sign.apply]
      · rw [hlt (by omega)]
      · rw [hgt (by omega)]
    | finite s' m' e' hm' =>
      obtain ⟨hpos', -⟩ := finite_bounds hy
      obtain ⟨hm, he, -, hc⟩ := hx
      obtain ⟨hm', he', -, hc'⟩ := hy
      cases s <;> cases s' <;> simp only [UnpackedFloat.compare, rank, Sign.apply]
      · rw [compare_neg, compare_parts hm hm' he he' hc hc']
      · rw [hlt (by omega)]
      · rw [hgt (by omega)]
      · rw [compare_parts hm hm' he he' hc hc']

theorem rank_le_top {x : UnpackedFloat} (h : IsCanonical x) : rank x ≤ top := by
  cases x with
  | notANumber => exact Int.natCast_nonneg _
  | infinity s => cases s <;> decide
  | zero s => exact Int.natCast_nonneg _
  | finite s m e hm =>
    obtain ⟨hpos, htop⟩ := finite_bounds h
    cases s <;> simp only [rank, Sign.apply] <;> omega

/-! ## Bits -/

/-- The bits of a double without that of the sign. -/
def magnitude (b : BitVec 64) : Nat := b.toNat % 2 ^ 63

/-- The sign of a double. -/
def sign (b : BitVec 64) : Sign := .ofBitVec (@unpackSign .binary64 b)

theorem toNat_unpackMantissa (b : BitVec 64) :
    (@unpackMantissa .binary64 b).toNat = b.toNat % 2 ^ 52 := by
  unfold unpackMantissa
  simp [BitVec.extractLsb]

theorem toNat_unpackExponent (b : BitVec 64) :
    (@unpackExponent .binary64 b).toNat = b.toNat / 2 ^ 52 % 2 ^ 11 := by
  unfold unpackExponent
  simp [BitVec.extractLsb, Nat.shiftRight_eq_div_pow]

theorem toNat_unpackSign (b : BitVec 64) :
    (@unpackSign .binary64 b).toNat = b.toNat / 2 ^ 63 := by
  have hb := b.isLt
  unfold unpackSign
  simp [BitVec.extractLsb, Nat.shiftRight_eq_div_pow]
  omega

/-- The mantissa with its hidden bit. -/
theorem toNat_hidden (b : BitVec 64) :
    (1#1 ++ @unpackMantissa .binary64 b).toNat = 2 ^ 52 + b.toNat % 2 ^ 52 := by
  rw [BitVec.toNat_append, ← Nat.shiftLeft_add_eq_or_of_lt (@unpackMantissa .binary64 b).isLt,
    toNat_unpackMantissa]
  rfl

theorem toNat_packComponents (s : Sign) (e : BitVec 11) (m : BitVec 52) :
    (packComponents .binary64 s e m).toNat =
      s.toBitVec.toNat * 2 ^ 63 + e.toNat * 2 ^ 52 + m.toNat := by
  unfold packComponents
  rw [BitVec.toNat_append, BitVec.toNat_append, ← Nat.shiftLeft_add_eq_or_of_lt e.isLt,
    ← Nat.shiftLeft_add_eq_or_of_lt m.isLt, Nat.shiftLeft_eq, Nat.shiftLeft_eq]
  ring

theorem magnitude_packComponents (s : Sign) (e : BitVec 11) (m : BitVec 52) :
    magnitude (packComponents .binary64 s e m) = e.toNat * 2 ^ 52 + m.toNat := by
  have he := e.isLt
  have hm := m.isLt
  unfold magnitude
  rw [toNat_packComponents]
  cases s <;> simp only [Sign.toBitVec, BitVec.toNat_ofNat] <;> omega

theorem sign_packComponents (s : Sign) (e : BitVec 11) (m : BitVec 52) :
    sign (packComponents .binary64 s e m) = s := by
  have he := e.isLt
  have hm := m.isLt
  have hbit : @unpackSign .binary64 (packComponents .binary64 s e m) = s.toBitVec := by
    rw [← BitVec.toNat_inj, toNat_unpackSign, toNat_packComponents]
    cases s <;> simp only [Sign.toBitVec, BitVec.toNat_ofNat] <;> omega
  unfold sign
  rw [hbit]
  cases s <;> rfl

theorem unpackMantissa_eq_zero {b : BitVec 64} :
    @unpackMantissa .binary64 b = 0#_ ↔ b.toNat % 2 ^ 52 = 0 := by
  rw [← BitVec.toNat_inj, toNat_unpackMantissa]
  rfl

theorem unpackExponent_eq_zero {b : BitVec 64} :
    @unpackExponent .binary64 b = 0#_ ↔ b.toNat / 2 ^ 52 % 2 ^ 11 = 0 := by
  rw [← BitVec.toNat_inj, toNat_unpackExponent]
  rfl

/-- The exponent of infinity, and of what is not a number. -/
theorem unpackExponent_eq_ones {b : BitVec 64} :
    @unpackExponent .binary64 b = -1#_ ↔ b.toNat / 2 ^ 52 % 2 ^ 11 = 2047 := by
  rw [← BitVec.toNat_inj, toNat_unpackExponent]
  rfl

/-- **What the bits of a double say.** It is a number unless they are beyond those of infinity, and
then they are its rank. -/
theorem unpack_spec (b : BitVec 64) :
    IsCanonical (.unpack .binary64 b) ∧
      ((UnpackedFloat.unpack .binary64 b).isNaN = true ↔ top < magnitude b) ∧
      ((UnpackedFloat.unpack .binary64 b).isNaN = false →
        rank (.unpack .binary64 b) = (sign b).apply (magnitude b)) := by
  have hmantissa := toNat_unpackMantissa b
  have hexponent := toNat_unpackExponent b
  have hhidden := toNat_hidden b
  have hb := b.isLt
  have hbias : Float.Model.Format.binary64.exponentBias = 1023 := by decide
  unfold magnitude sign UnpackedFloat.unpack
  dsimp only
  rw [hbias]
  split
  next hall =>
    rw [unpackExponent_eq_ones] at hall
    split
    next hnone =>
      rw [unpackMantissa_eq_zero] at hnone
      refine ⟨trivial, iff_of_false Bool.false_ne_true (by unfold top; omega), fun _ => ?_⟩
      simp only [rank, top]
      congr 1
      omega
    next hnone =>
      rw [unpackMantissa_eq_zero] at hnone
      exact ⟨trivial, iff_of_true rfl (by unfold top; omega), nofun⟩
  next hall =>
    rw [unpackExponent_eq_ones] at hall
    split
    next hlow =>
      rw [unpackExponent_eq_zero] at hlow
      split
      next hnone =>
        rw [unpackMantissa_eq_zero] at hnone
        refine ⟨trivial, iff_of_false Bool.false_ne_true (by unfold top; omega), fun _ => ?_⟩
        have hzero : b.toNat % 2 ^ 63 = 0 := by omega
        rw [hzero]
        cases Sign.ofBitVec (@unpackSign .binary64 b) <;> rfl
      next hnone =>
        rw [unpackMantissa_eq_zero] at hnone
        refine ⟨?_, iff_of_false Bool.false_ne_true (by unfold top; omega), fun _ => ?_⟩
        · unfold IsCanonical
          omega
        · simp only [rank]
          congr 1
          omega
    next hlow =>
      rw [unpackExponent_eq_zero] at hlow
      refine ⟨?_, iff_of_false Bool.false_ne_true (by unfold top; omega), fun _ => ?_⟩
      · unfold IsCanonical
        omega
      · simp only [rank]
        congr 1
        omega

/-! ## Doubles -/

/-- Where a double stands among all others. -/
def rankOf (x : Float) : Int := rank x.toModel.unpack

variable {x y : Float}

theorem isCanonical_unpack (x : Float) : IsCanonical x.toModel.unpack := (unpack_spec _).1

theorem rankOf_le_top (x : Float) : rankOf x ≤ top := rank_le_top (isCanonical_unpack x)

theorem rankOf_zero : rankOf 0 = 0 := by decide +kernel

theorem rankOf_one : rankOf 1 = 1023 * 2 ^ 52 := by decide +kernel

theorem compare_unpack (hx : x.isNaN = false) (hy : y.isNaN = false) :
    x.toModel.unpack.compare y.toModel.unpack = some (compare (rankOf x) (rankOf y)) :=
  compare_eq (isCanonical_unpack x) (isCanonical_unpack y) hx hy

theorem isNaN_of_compare {o : Ordering}
    (h : x.toModel.unpack.compare y.toModel.unpack = some o) :
    x.isNaN = false ∧ y.isNaN = false := by
  change x.toModel.unpack.isNaN = false ∧ y.toModel.unpack.isNaN = false
  generalize x.toModel.unpack = u, y.toModel.unpack = v at h
  cases u <;> cases v <;> first | exact ⟨rfl, rfl⟩ | cases h

/-- **Doubles that are numbers are ordered by rank**, and no others are ordered. -/
theorem lt_iff : x < y ↔ x.isNaN = false ∧ y.isNaN = false ∧ rankOf x < rankOf y := by
  have hmodel : x < y ↔ x.toModel.unpack.compare y.toModel.unpack = some .lt :=
    decide_eq_true_iff.trans beq_iff_eq
  rw [hmodel]
  constructor
  · intro h
    obtain ⟨hx, hy⟩ := isNaN_of_compare h
    rw [compare_unpack hx hy, Option.some.injEq, compare_lt_iff_lt] at h
    exact ⟨hx, hy, h⟩
  · rintro ⟨hx, hy, h⟩
    rw [compare_unpack hx hy, compare_lt_iff_lt.mpr h]

theorem le_iff : x ≤ y ↔ x.isNaN = false ∧ y.isNaN = false ∧ rankOf x ≤ rankOf y := by
  have hmodel : x ≤ y ↔ (x.toModel.unpack.compare y.toModel.unpack).any Ordering.isLE = true :=
    decide_eq_true_iff
  rw [hmodel, Option.any_eq_true]
  constructor
  · rintro ⟨o, h, ho⟩
    obtain ⟨hx, hy⟩ := isNaN_of_compare h
    rw [compare_unpack hx hy, Option.some.injEq] at h
    subst h
    exact ⟨hx, hy, compare_le_iff_le.mp (Ordering.isLE_iff_ne_gt.mp ho)⟩
  · rintro ⟨hx, hy, h⟩
    exact ⟨_, compare_unpack hx hy, Ordering.isLE_iff_ne_gt.mpr (compare_le_iff_le.mpr h)⟩

theorem beq_iff : (x == y) = true ↔ x.isNaN = false ∧ y.isNaN = false ∧ rankOf x = rankOf y := by
  show (x.toModel.unpack.compare y.toModel.unpack == some .eq) = true ↔ _
  rw [beq_iff_eq]
  constructor
  · intro h
    obtain ⟨hx, hy⟩ := isNaN_of_compare h
    rw [compare_unpack hx hy, Option.some.injEq, compare_eq_iff_eq] at h
    exact ⟨hx, hy, h⟩
  · rintro ⟨hx, hy, h⟩
    rw [compare_unpack hx hy, compare_eq_iff_eq.mpr h]

/-- The rank of a number is in its bits. -/
theorem rankOf_eq (hx : x.isNaN = false) :
    rankOf x = (sign x.toModel.toBits.toBitVec).apply (magnitude x.toModel.toBits.toBitVec) :=
  (unpack_spec _).2.2 hx

/-- The bits of a positive double are its rank. -/
theorem toNat_of_rankOf_pos (hx : x.isNaN = false) (hpos : 0 < rankOf x) :
    (x.toModel.toBits.toBitVec.toNat : Int) = rankOf x := by
  have hsign := toNat_unpackSign x.toModel.toBits.toBitVec
  have hb := x.toModel.toBits.toBitVec.isLt
  have hrank := rankOf_eq hx
  unfold sign magnitude Sign.ofBitVec at hrank
  split at hrank
  next hbit =>
    rw [← BitVec.toNat_inj, hsign] at hbit
    change _ = 0 at hbit
    simp only [Sign.apply] at hrank
    omega
  next =>
    simp only [Sign.apply] at hrank
    omega

/-- **A positive double is known by its rank.** -/
theorem eq_of_rankOf (hx : x.isNaN = false) (hy : y.isNaN = false) (hpos : 0 < rankOf x)
    (h : rankOf x = rankOf y) : x = y := by
  have hbits : (x.toModel.toBits.toBitVec.toNat : Int) = y.toModel.toBits.toBitVec.toNat :=
    (toNat_of_rankOf_pos hx hpos).trans (h.trans (toNat_of_rankOf_pos hy (h ▸ hpos)).symm)
  obtain ⟨⟨a, ha⟩⟩ := x
  obtain ⟨⟨b, hb⟩⟩ := y
  obtain rfl : a = b := UInt64.toBitVec_inj.mp (BitVec.toNat_inj.mp (Int.natCast_inj.mp hbits))
  rfl

theorem zero_cases (hx : x.isNaN = false) (hzero : rankOf x = 0) :
    ∃ s, x.toModel.unpack = .zero s := by
  have hcanonical := isCanonical_unpack x
  unfold rankOf at hzero
  change x.toModel.unpack.isNaN = false at hx
  generalize x.toModel.unpack = u at *
  cases u with
  | notANumber => cases hx
  | infinity s => cases s <;> cases hzero
  | zero s => exact ⟨s, rfl⟩
  | finite s m e hm =>
    obtain ⟨hrank, -⟩ := finite_bounds hcanonical
    cases s <;> simp only [rank, Sign.apply] at hzero <;> omega

theorem positive_cases (hx : x.isNaN = false) (hpos : 0 < rankOf x) :
    x.toModel.unpack = .infinity .positive ∨
      ∃ m e hm, x.toModel.unpack = .finite .positive m e hm := by
  have hcanonical := isCanonical_unpack x
  unfold rankOf at hpos
  change x.toModel.unpack.isNaN = false at hx
  generalize x.toModel.unpack = u at *
  cases u with
  | notANumber => cases hx
  | infinity s =>
    cases s with
    | positive => exact .inl rfl
    | negative => exact absurd hpos (by decide)
  | zero s => exact absurd hpos (lt_irrefl 0)
  | finite s m e hm =>
    cases s with
    | positive => exact .inr ⟨m, e, hm, rfl⟩
    | negative =>
      obtain ⟨hrank, -⟩ := finite_bounds hcanonical
      simp only [rank, Sign.apply] at hpos
      omega

end Shooting.Double
