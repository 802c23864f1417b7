import Shooting.Proofs.StrictScalar

/-!
# Signs of doubles

A double has its sign in a bit of its own, so taking the opposite rounds nothing, and opposite
factors have opposite products (`mul_neg_comm`). That is enough to say what is left of a sum of
products whose exact value is zero: if it is finite, zero (`mul_add_neg_mul`).

What is not negative, with zeros of both signs, is closed under sums, whatever is rounded, overflows
or underflows on the way (`isNonneg_add`). Squares, sums, products and quotients keep a positive sign
even in a zero (`isPlus_mul_self_sub`, `isPlus_mul`, `isPlus_div`).
-/

namespace Shooting.Double

open Float.Model (UnpackedFloat)
open Float.Model.UnpackedFloat (Sign Accuracy packComponents roundWithAccuracy)

/-! ## Opposites -/

theorem add_eq (a b : Float) :
    a + b = ⟨.pack (UnpackedFloat.add .binary64 a.toModel.unpack b.toModel.unpack)⟩ := rfl

/-- Parts under the opposite sign are the opposite double. -/
theorem unpack_packComponents_neg (s : Sign) (e : BitVec 11) (m : BitVec 52) :
    UnpackedFloat.unpack .binary64 (packComponents .binary64 (-s) e m) =
      (UnpackedFloat.unpack .binary64 (packComponents .binary64 s e m)).neg := by
  unfold UnpackedFloat.unpack
  simp only [UnpackedFloat.unpackMantissa_packComponents,
    UnpackedFloat.unpackExponent_packComponents, UnpackedFloat.unpackSign_packComponents,
    Sign.ofBitVec_toBitVec]
  split_ifs <;> rfl

theorem unpack_pack_neg (u : UnpackedFloat) :
    UnpackedFloat.unpack .binary64 (UnpackedFloat.pack .binary64 u.neg) =
      (UnpackedFloat.unpack .binary64 (UnpackedFloat.pack .binary64 u)).neg := by
  cases u with
  | notANumber => rfl
  | infinity s => cases s <;> rfl
  | zero s => cases s <;> rfl
  | finite s m e hm =>
    unfold UnpackedFloat.neg UnpackedFloat.pack
    dsimp only
    split_ifs <;> exact unpack_packComponents_neg s _ _

/-- **The opposite of a double is exact.** -/
theorem unpack_neg (a : Float) : (-a).toModel.unpack = a.toModel.unpack.neg := by
  have hpack : UnpackedFloat.pack .binary64 a.toModel.unpack = a.toModel.toBits.toBitVec :=
    UnpackedFloat.pack_unpack_of_valid a.toModel.valid
  have h := unpack_pack_neg a.toModel.unpack
  rw [hpack] at h
  exact h

theorem sub_eq_add_neg (u v : UnpackedFloat) :
    UnpackedFloat.sub .binary64 u v = UnpackedFloat.add .binary64 u v.neg := by
  have hneg (s : Sign) : - -s = s := by cases s <;> rfl
  have happly (s : Sign) (n : Int) : (-s).apply n = -s.apply n := by
    cases s
    · exact (Int.neg_neg n).symm
    · rfl
  cases u <;> cases v <;>
    simp only [UnpackedFloat.sub, UnpackedFloat.add, UnpackedFloat.neg, happly, Int.sub_eq_add_neg]

theorem roundWithAccuracy_neg (s : Sign) (m : Nat) (e : Int) (a : Accuracy) :
    roundWithAccuracy .binary64 (-s) m e a = (roundWithAccuracy .binary64 s m e a).neg := by
  unfold roundWithAccuracy
  dsimp only
  split <;> rfl

/-- Opposite factors, in whatever order, have opposite products. -/
theorem mul_neg_comm (u v : UnpackedFloat) :
    UnpackedFloat.mul .binary64 v.neg u = (UnpackedFloat.mul .binary64 u v).neg := by
  have hsign (s t : Sign) : -t * s = -(s * t) := by cases s <;> cases t <;> rfl
  cases u <;> cases v
  case finite.finite s m e _ t n f _ =>
    show roundWithAccuracy .binary64 (-t * s) (n * m) (f + e) .exact =
      (roundWithAccuracy .binary64 (s * t) (m * n) (e + f) .exact).neg
    rw [← roundWithAccuracy_neg, ← hsign, Nat.mul_comm, Int.add_comm]
  all_goals simp only [UnpackedFloat.mul, UnpackedFloat.neg, hsign]

variable {a b : Float}

theorem unpack_mul (a b : Float) : (a * b).toModel.unpack =
    UnpackedFloat.unpack .binary64 (UnpackedFloat.pack .binary64
      (UnpackedFloat.mul .binary64 a.toModel.unpack b.toModel.unpack)) := rfl

theorem unpack_div (a b : Float) : (a / b).toModel.unpack =
    UnpackedFloat.unpack .binary64 (UnpackedFloat.pack .binary64
      (UnpackedFloat.div .binary64 a.toModel.unpack b.toModel.unpack)) := rfl

theorem unpack_neg_mul (a b : Float) : (-b * a).toModel.unpack = (a * b).toModel.unpack.neg := by
  rw [unpack_mul, unpack_mul, unpack_neg, mul_neg_comm, unpack_pack_neg]

/-- **What is left of products that cancel out.** -/
theorem mul_add_neg_mul (h : (a * b).isFinite = true) : a * b + -b * a = 0 := by
  rw [add_eq, unpack_neg_mul, ← sub_eq_add_neg, sub_self_eq h]
  decide +kernel

/-! ## What is not negative -/

/-- A value that is not negative. Both zeros count. -/
def IsNonneg : UnpackedFloat → Prop
  | .notANumber => False
  | .zero _ => True
  | .infinity s => s = .positive
  | .finite s _ _ _ => s = .positive

theorem nonneg_iff {x : Float} : 0 ≤ x ↔ IsNonneg x.toModel.unpack := by
  have hzero : Float.isNaN 0 = false := by decide +kernel
  have hcanonical := isCanonical_unpack x
  rw [le_iff, rankOf_zero, hzero]
  change _ ∧ x.toModel.unpack.isNaN = false ∧ 0 ≤ rank x.toModel.unpack ↔ _
  generalize x.toModel.unpack = u at *
  cases u with
  | notANumber => exact iff_of_false (fun h => nomatch h.2.1) id
  | zero s => exact iff_of_true ⟨rfl, rfl, le_refl 0⟩ trivial
  | infinity s =>
    cases s with
    | positive => exact iff_of_true ⟨rfl, rfl, by decide⟩ rfl
    | negative => exact iff_of_false (fun h => absurd h.2.2 (by decide)) nofun
  | finite s m e hm =>
    -- a value that is not zero has a positive magnitude, so its sign is that of its rank
    obtain ⟨hpos, -⟩ := finite_bounds hcanonical
    cases s with
    | positive => exact iff_of_true ⟨rfl, rfl, hpos.le⟩ rfl
    | negative =>
      refine iff_of_false (fun h => ?_) nofun
      have hrank : 0 ≤ -((e + 1074) * 2 ^ 52 + (m : Int)) := h.2.2
      omega

/-- A number with a positive sign. A zero with the other sign does not count. -/
def IsPlus : UnpackedFloat → Prop
  | .notANumber => False
  | .zero s => s = .positive
  | .infinity s => s = .positive
  | .finite s _ _ _ => s = .positive

theorem IsPlus.isNonneg {u : UnpackedFloat} (h : IsPlus u) : IsNonneg u := by
  cases u with
  | zero s => trivial
  | _ => exact h

theorem isPlus_unpack_packComponents {e : BitVec 11} (he : e ≠ -1#11) (m : BitVec 52) :
    IsPlus (UnpackedFloat.unpack .binary64 (packComponents .binary64 .positive e m)) := by
  unfold UnpackedFloat.unpack
  simp only [UnpackedFloat.unpackMantissa_packComponents,
    UnpackedFloat.unpackExponent_packComponents, UnpackedFloat.unpackSign_packComponents,
    Sign.ofBitVec_toBitVec]
  rw [if_neg he]
  split_ifs <;> rfl

theorem isPlus_unpack_pack {u : UnpackedFloat} (h : IsPlus u) :
    IsPlus (UnpackedFloat.unpack .binary64 (UnpackedFloat.pack .binary64 u)) := by
  cases u with
  | notANumber => exact h.elim
  | zero s =>
    obtain rfl : s = .positive := h
    rfl
  | infinity s =>
    obtain rfl : s = .positive := h
    rfl
  | finite s m e hm =>
    obtain rfl : s = .positive := h
    unfold UnpackedFloat.pack
    dsimp only
    split
    next => rfl
    next hover =>
      split
      next =>
        -- an exponent of ones only would have been an overflow
        refine isPlus_unpack_packComponents (fun hall => hover ?_) _
        have hbits : (e + 1023 + 52).toNat % 2 ^ 11 = 2047 := congrArg BitVec.toNat hall
        show 2048 ≤ (e + 1023 + 52).toNat + 1
        omega
      next => exact isPlus_unpack_packComponents (by decide) _

theorem isNonneg_unpack_pack {u : UnpackedFloat} (h : IsNonneg u) :
    IsNonneg (UnpackedFloat.unpack .binary64 (UnpackedFloat.pack .binary64 u)) := by
  cases u with
  | notANumber => exact h.elim
  | zero s => cases s <;> trivial
  | infinity s => exact (isPlus_unpack_pack (u := .infinity s) h).isNonneg
  | finite s m e hm => exact (isPlus_unpack_pack (u := .finite s m e hm) h).isNonneg

theorem isPlus_roundWithAccuracy (m : Nat) (e : Int) (a : Accuracy) :
    IsPlus (roundWithAccuracy .binary64 .positive m e a) := by
  unfold roundWithAccuracy
  dsimp only
  split <;> rfl

/-- **A product of positive signs has one**, unless it is zero times infinity. -/
theorem isPlus_mul {u : UnpackedFloat} (hu : IsPlus u) {m : Nat} {e : Int} (hm : 0 < m) :
    IsPlus (UnpackedFloat.mul .binary64 (.finite .positive m e hm) u) := by
  cases u with
  | notANumber => exact hu.elim
  | finite s n d hn =>
    obtain rfl : s = .positive := hu
    exact isPlus_roundWithAccuracy _ _ _
  | _ =>
    obtain rfl := hu
    rfl

/-- **So does a quotient**, which is infinite if the denominator is zero. -/
theorem isPlus_div {u : UnpackedFloat} (hu : IsPlus u) {m : Nat} {e : Int} (hm : 0 < m) :
    IsPlus (UnpackedFloat.div .binary64 (.finite .positive m e hm) u) := by
  cases u with
  | notANumber => exact hu.elim
  | finite s n d hn =>
    obtain rfl : s = .positive := hu
    exact isPlus_roundWithAccuracy _ _ _
  | _ =>
    obtain rfl := hu
    rfl

theorem isPlus_mul_self {u : UnpackedFloat} (h : u.isNaN = false) :
    IsPlus (UnpackedFloat.mul .binary64 u u) := by
  have hsquare (s : Sign) : s * s = .positive := by cases s <;> rfl
  cases u with
  | notANumber => cases h
  | zero s => exact hsquare s
  | infinity s => exact hsquare s
  | finite s m e hm =>
    show IsPlus (roundWithAccuracy .binary64 (s * s) (m * m) (e + e) .exact)
    rw [hsquare]
    exact isPlus_roundWithAccuracy _ _ _

theorem isPlus_normalize {m : Int} (h : 0 ≤ m) (e : Int) :
    IsPlus (UnpackedFloat.normalize .binary64 m e .positive) := by
  unfold UnpackedFloat.normalize
  rcases h.lt_or_eq with hpos | rfl
  · rw [compare_gt_iff_gt.mpr hpos]
    exact isPlus_roundWithAccuracy _ _ _
  · rfl

theorem isPlus_add {u v : UnpackedFloat} (hu : IsPlus u) (hv : IsPlus v) :
    IsPlus (UnpackedFloat.add .binary64 u v) := by
  cases u with
  | notANumber => exact hu.elim
  | zero s => cases v with
    | notANumber => exact hv.elim
    | zero t =>
      obtain rfl : s = .positive := hu
      obtain rfl : t = .positive := hv
      rfl
    | infinity t => exact hv
    | finite t n f hn => exact hv
  | infinity s => cases v with
    | notANumber => exact hv.elim
    | infinity t =>
      obtain rfl : s = .positive := hu
      obtain rfl : t = .positive := hv
      rfl
    | zero t => exact hu
    | finite t n f hn => exact hu
  | finite s m e hm => cases v with
    | notANumber => exact hv.elim
    | zero t => exact hu
    | infinity t => exact hv
    | finite t n f hn =>
      obtain rfl : s = .positive := hu
      obtain rfl : t = .positive := hv
      exact isPlus_normalize (Int.add_nonneg (Int.natCast_nonneg _) (Int.natCast_nonneg _)) _

theorem isNonneg_add {u v : UnpackedFloat} (hu : IsNonneg u) (hv : IsNonneg v) :
    IsNonneg (UnpackedFloat.add .binary64 u v) := by
  cases u with
  | notANumber => exact hu.elim
  | zero s => cases v with
    | notANumber => exact hv.elim
    | zero t => cases s <;> cases t <;> trivial
    | infinity t => exact hv
    | finite t n f hn => exact hv
  | infinity s => cases v with
    | notANumber => exact hv.elim
    | zero t => exact hu
    | infinity t =>
      obtain rfl : s = .positive := hu
      obtain rfl : t = .positive := hv
      rfl
    | finite t n f hn => exact hu
  | finite s m e hm => cases v with
    | notANumber => exact hv.elim
    | zero t => exact hu
    | infinity t => exact hv
    | finite t n f hn =>
      obtain rfl : s = .positive := hu
      obtain rfl : t = .positive := hv
      exact (isPlus_normalize (Int.add_nonneg (Int.natCast_nonneg _) (Int.natCast_nonneg _))
        _).isNonneg

theorem isPlus_unpack_mul_self (h : a.isNaN = false) : IsPlus (a * a).toModel.unpack := by
  rw [unpack_mul]
  exact isPlus_unpack_pack (isPlus_mul_self h)

/-- **A sum of squares has a positive sign**, also if it is zero. -/
theorem isPlus_mul_self_sub (ha : a.isNaN = false) (hb : b.isNaN = false) :
    IsPlus (a * a - -b * b).toModel.unpack := by
  have hneg (u : UnpackedFloat) : u.neg.neg = u := by
    have hsign (s : Sign) : - -s = s := by cases s <;> rfl
    cases u <;> simp only [UnpackedFloat.neg, hsign]
  have hsum := isPlus_add (isPlus_unpack_mul_self ha) (isPlus_unpack_mul_self hb)
  rw [sub_eq, unpack_neg_mul, sub_eq_add_neg, hneg]
  exact isPlus_unpack_pack hsum

end Shooting.Double
