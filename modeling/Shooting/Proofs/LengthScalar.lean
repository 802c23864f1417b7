import Shooting.Linear.InnerProduct
import Shooting.Proofs.Double.Signs

/-!
# Lengths

The length of a vector is a number as soon as its entries are numbers, and not a negative one, even
if squares overflow on the way. `LengthScalar` lists the laws that this takes: squares, sums and
roots of what is not negative are not negative either (`Vec.norm_nonneg`). They hold of doubles and
of real numbers.

The entries need not be ordinary numbers. So the length of a difference of ordinary numbers, which
may overflow, is a number (`Vec.norm_sub_nonneg`).
-/

namespace Shooting

/-- The laws of order and sign that lengths rest on. -/
class LengthScalar (α : Type) [Scalar α] : Prop extends OrderedScalar α where
  le_of_lt {a b : α} : a < b → a ≤ b
  isNaN_of_le {a b : α} : a ≤ b → Scalar.isNaN b = false
  isNaN_sub {a b : α} : Scalar.isFinite a = true → Scalar.isFinite b = true →
    Scalar.isNaN (a - b) = false
  mul_self_nonneg {a : α} : Scalar.isNaN a = false → 0 ≤ a * a
  add_nonneg {a b : α} : 0 ≤ a → 0 ≤ b → 0 ≤ a + b
  sqrt_nonneg {a : α} : 0 ≤ a → 0 ≤ Scalar.sqrt a

instance : LengthScalar ℝ where
  le_of_lt := le_of_lt
  isNaN_of_le _ := rfl
  isNaN_sub _ _ := rfl
  mul_self_nonneg _ := mul_self_nonneg _
  add_nonneg := add_nonneg
  sqrt_nonneg _ := Real.sqrt_nonneg _

/-! ## Doubles -/

namespace Double

open Float.Model (UnpackedFloat)
open Float.Model.UnpackedFloat (Sign Accuracy roundWithAccuracy)

variable {u v : UnpackedFloat} {a b : Float}

theorem isNaN_of_isNonneg (h : IsNonneg u) : u.isNaN = false := by
  cases u with
  | notANumber => exact h.elim
  | _ => rfl

/-- A number or its opposite is not negative. -/
theorem isNonneg_or_neg (h : u.isNaN = false) : IsNonneg u ∨ IsNonneg u.neg := by
  cases u with
  | notANumber => cases h
  | zero s => exact .inl trivial
  | infinity s => cases s <;> first | exact .inl rfl | exact .inr rfl
  | finite s m e hm => cases s <;> first | exact .inl rfl | exact .inr rfl

/-- Numbers are packed as numbers. -/
theorem isNaN_unpack_pack (h : u.isNaN = false) :
    (UnpackedFloat.unpack .binary64 (UnpackedFloat.pack .binary64 u)).isNaN = false := by
  have hneg (w : UnpackedFloat) : w.neg.isNaN = w.isNaN := by cases w <;> rfl
  rcases isNonneg_or_neg h with hpos | hpos
  · exact isNaN_of_isNonneg (isNonneg_unpack_pack hpos)
  · rw [← hneg, ← unpack_pack_neg]
    exact isNaN_of_isNonneg (isNonneg_unpack_pack hpos)

theorem isNaN_roundWithAccuracy (s : Sign) (m : Nat) (e : Int) (acc : Accuracy) :
    (roundWithAccuracy .binary64 s m e acc).isNaN = false := by
  unfold roundWithAccuracy
  dsimp only
  split <;> rfl

/-- Only infinities cancel to what is no number. -/
theorem isNaN_sub (hu : u.isFinite = true) (hv : v.isFinite = true) :
    (UnpackedFloat.sub .binary64 u v).isNaN = false := by
  cases u with
  | notANumber => cases hu
  | infinity s => cases hu
  | zero s => cases v with
    | notANumber => cases hv
    | infinity t => cases hv
    | zero t => cases s <;> cases t <;> rfl
    | finite t n f hn => rfl
  | finite s m e hm => cases v with
    | notANumber => cases hv
    | infinity t => cases hv
    | zero t => rfl
    | finite t n f hn =>
      show (UnpackedFloat.normalize .binary64 _ _ .positive).isNaN = false
      unfold UnpackedFloat.normalize
      split
      · exact isNaN_roundWithAccuracy ..
      · rfl
      · exact isNaN_roundWithAccuracy ..

theorem isNonneg_sqrt (h : IsNonneg u) : IsNonneg (UnpackedFloat.sqrt .binary64 u) := by
  cases u with
  | notANumber => exact h.elim
  | zero s => trivial
  | infinity s =>
    obtain rfl : s = .positive := h
    rfl
  | finite s m e hm =>
    obtain rfl : s = .positive := h
    exact (isPlus_roundWithAccuracy ..).isNonneg

theorem scalar_nonneg_iff : (Zero.zero : Float) ≤ a ↔ IsNonneg a.toModel.unpack := by
  rw [scalar_zero]
  exact nonneg_iff

end Double

open Double in
instance : LengthScalar Float where
  le_of_lt h := by
    obtain ⟨ha, hb, hlt⟩ := lt_iff.mp h
    exact le_iff.mpr ⟨ha, hb, hlt.le⟩
  isNaN_of_le h := (le_iff.mp h).2.1
  isNaN_sub ha hb := isNaN_unpack_pack (Double.isNaN_sub ha hb)
  mul_self_nonneg h := scalar_nonneg_iff.mpr (isPlus_unpack_mul_self h).isNonneg
  add_nonneg ha hb := scalar_nonneg_iff.mpr
    (isNonneg_unpack_pack (isNonneg_add (scalar_nonneg_iff.mp ha) (scalar_nonneg_iff.mp hb)))
  sqrt_nonneg h := scalar_nonneg_iff.mpr
    (isNonneg_unpack_pack (isNonneg_sqrt (scalar_nonneg_iff.mp h)))

/-! ## Lengths of vectors -/

variable {α : Type} [Scalar α] [LengthScalar α] {n : Nat}

open LengthScalar

theorem Scalar.zero_nonneg : (0 : α) ≤ 0 :=
  OrderedScalar.le_refl (OrderedScalar.isNaN_of_isFinite OrderedScalar.isFinite_zero)

theorem Scalar.foldl_add_nonneg : ∀ {n : Nat} {t : Fin n → α} {a : α}, 0 ≤ a → (∀ i, 0 ≤ t i) →
    0 ≤ Fin.foldl n (fun acc i => acc + t i) a
  | 0, _, _, ha, _ => by rwa [Fin.foldl_zero]
  | n + 1, t, a, ha, ht => by
    rw [Fin.foldl_succ_last]
    exact add_nonneg (foldl_add_nonneg ha fun i => ht i.castSucc) (ht (Fin.last n))

namespace Vec

variable {v w : Vec α n}

/-- **The length of a vector of numbers is a number**, and not negative. -/
theorem norm_nonneg (h : ∀ i, Scalar.isNaN (v.get i) = false) : 0 ≤ v.norm := by
  have hentry (i : Nat) : 0 ≤ v.entry i * v.entry i := by
    refine mul_self_nonneg ?_
    unfold entry
    split
    next hi => exact h ⟨i, hi⟩
    next => exact OrderedScalar.isNaN_of_isFinite OrderedScalar.isFinite_zero
  have hlane (width count r : Nat) : 0 ≤ lane (fun a b acc => acc + a * b) width count v v r :=
    Scalar.foldl_add_nonneg Scalar.zero_nonneg fun q => hentry _
  refine sqrt_nonneg ?_
  unfold normSq dot
  split
  next => exact Scalar.foldl_add_nonneg Scalar.zero_nonneg fun i => mul_self_nonneg (h i)
  next =>
    refine Scalar.foldl_add_nonneg ?_ fun k => hentry _
    exact add_nonneg (add_nonneg (add_nonneg (add_nonneg (hlane ..) (hlane ..))
      (add_nonneg (hlane ..) (hlane ..))) (add_nonneg (hlane ..) (hlane ..)))
      (add_nonneg (hlane ..) (hlane ..))

/-- The distance of vectors of ordinary numbers is a number. -/
theorem norm_sub_nonneg (hv : v.isFinite = true) (hw : w.isFinite = true) : 0 ≤ (v - w).norm := by
  refine norm_nonneg fun i => ?_
  rw [get_sub]
  exact isNaN_sub (isFinite_iff.mp hv i) (isFinite_iff.mp hw i)

end Vec

end Shooting
