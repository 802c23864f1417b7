import Shooting.Linear.Mat
import Shooting.Proofs.OrderedScalar

/-!
# Strict scalars

Infinity and what compares with nothing do not vanish in sums, differences and products, nor from
above a fraction line: if the outcome is an ordinary number, so were the operands. `StrictScalar`
lists these laws. They hold of doubles, however results are rounded, and of real numbers, all of
which are ordinary.

So a check of a sum is a check of all its terms (`Scalar.isFinite_of_foldl`), and a check of an
inner product one of both vectors, in whatever order it is summed (`Vec.isFinite_of_dot`).
-/

namespace Shooting

/-- The laws by which ordinary numbers come from ordinary numbers only. -/
class StrictScalar (α : Type) [Scalar α] : Prop where
  isFinite_of_add {a b : α} : Scalar.isFinite (a + b) = true →
    Scalar.isFinite a = true ∧ Scalar.isFinite b = true
  isFinite_of_sub {a b : α} : Scalar.isFinite (a - b) = true →
    Scalar.isFinite a = true ∧ Scalar.isFinite b = true
  isFinite_of_mul {a b : α} : Scalar.isFinite (a * b) = true →
    Scalar.isFinite a = true ∧ Scalar.isFinite b = true
  /-- Infinity below the line leaves zero. -/
  isFinite_of_div {a b : α} : Scalar.isFinite (a / b) = true → Scalar.isFinite a = true
  /-- Other differences of ordinary numbers may overflow. -/
  isFinite_sub_self {a : α} : Scalar.isFinite a = true → Scalar.isFinite (a - a) = true

instance : StrictScalar ℝ where
  isFinite_of_add _ := ⟨rfl, rfl⟩
  isFinite_of_sub _ := ⟨rfl, rfl⟩
  isFinite_of_mul _ := ⟨rfl, rfl⟩
  isFinite_of_div _ := rfl
  isFinite_sub_self _ := rfl

/-! ## Doubles -/

namespace Double

open Float.Model (UnpackedFloat)
open Float.Model.UnpackedFloat (normalize)

theorem sub_eq (a b : Float) :
    a - b = ⟨.pack (UnpackedFloat.sub .binary64 a.toModel.unpack b.toModel.unpack)⟩ := rfl

/-- What is not finite is not finite either once it is packed. -/
theorem isFinite_of_pack {u : UnpackedFloat} (h : Float.isFinite ⟨.pack u⟩ = true) :
    u.isFinite = true := by
  cases u with
  | notANumber => exact absurd h (by decide +kernel)
  | infinity s => cases s <;> exact absurd h (by decide +kernel)
  | zero s => rfl
  | finite s m e hm => rfl

variable {u v : UnpackedFloat}

theorem isFinite_of_add (h : (UnpackedFloat.add .binary64 u v).isFinite = true) :
    u.isFinite = true ∧ v.isFinite = true := by
  cases u <;> cases v
  -- two infinities add up to one of them or to no number at all
  case infinity.infinity s s' => cases s <;> cases s' <;> cases h
  all_goals first | exact ⟨rfl, rfl⟩ | cases h

theorem isFinite_of_sub (h : (UnpackedFloat.sub .binary64 u v).isFinite = true) :
    u.isFinite = true ∧ v.isFinite = true := by
  cases u <;> cases v
  case infinity.infinity s s' => cases s <;> cases s' <;> cases h
  all_goals first | exact ⟨rfl, rfl⟩ | cases h

theorem isFinite_of_mul (h : (UnpackedFloat.mul .binary64 u v).isFinite = true) :
    u.isFinite = true ∧ v.isFinite = true := by
  cases u <;> cases v <;> first | exact ⟨rfl, rfl⟩ | cases h

theorem isFinite_of_div (h : (UnpackedFloat.div .binary64 u v).isFinite = true) :
    u.isFinite = true := by
  cases u <;> cases v <;> first | rfl | cases h

theorem sub_self_eq (h : u.isFinite = true) :
    UnpackedFloat.sub .binary64 u u = .zero .positive := by
  cases u with
  | notANumber => cases h
  | infinity s => cases h
  | zero s => cases s <;> rfl
  | finite s m e hm =>
    show normalize _ (s.apply _ - s.apply _) _ _ = _
    rw [Int.sub_self]
    rfl

end Double

instance : StrictScalar Float where
  isFinite_of_add h := Double.isFinite_of_add (Double.isFinite_of_pack h)
  isFinite_of_sub h := Double.isFinite_of_sub (Double.isFinite_of_pack h)
  isFinite_of_mul h := Double.isFinite_of_mul (Double.isFinite_of_pack h)
  isFinite_of_div h := Double.isFinite_of_div (Double.isFinite_of_pack h)
  isFinite_sub_self := by
    intro a h
    rw [Double.sub_eq, Double.sub_self_eq h]
    decide +kernel

/-! ## Sums -/

variable {α : Type} [Scalar α]

theorem Vec.isFinite_iff {n : Nat} {v : Vec α n} :
    v.isFinite = true ↔ ∀ i, Scalar.isFinite (v.get i) = true := by
  unfold isFinite all toList get
  rw [List.all_eq_true]
  constructor
  · intro h i
    exact h _ (by simp)
  · intro h a ha
    obtain ⟨i, hi, rfl⟩ := List.mem_iff_getElem.mp ha
    exact h ⟨i, by simpa using hi⟩

theorem Mat.isFinite_iff {m n : Nat} {a : Mat α m n} :
    a.isFinite = true ↔ ∀ i j, Scalar.isFinite (a.get i j) = true := by
  unfold isFinite Vec.all Vec.toList
  rw [List.all_eq_true]
  constructor
  · intro h i
    exact Vec.isFinite_iff.mp (h (a.row i) (by simp [row, Vec.get]))
  · intro h r hr
    obtain ⟨i, hi, rfl⟩ := List.mem_iff_getElem.mp hr
    exact Vec.isFinite_iff.mpr (h ⟨i, by simpa using hi⟩)

variable [StrictScalar α]

open StrictScalar

/-- A sum that is an ordinary number has ordinary terms. -/
theorem Scalar.isFinite_of_foldl : ∀ {n : Nat} {t : Fin n → α} {a : α},
    isFinite (Fin.foldl n (fun acc i => acc + t i) a) = true →
    isFinite a = true ∧ ∀ i, isFinite (t i) = true
  | 0, _, _, h => ⟨by rwa [Fin.foldl_zero] at h, fun i => i.elim0⟩
  | n + 1, t, a, h => by
    rw [Fin.foldl_succ_last] at h
    obtain ⟨hinit, hlast⟩ := isFinite_of_add h
    obtain ⟨ha, hterms⟩ := isFinite_of_foldl hinit
    exact ⟨ha, Fin.lastCases hlast hterms⟩

namespace Vec

variable {n : Nat} {v w : Vec α n}

theorem isFinite_of_lane {count r : Nat}
    (h : Scalar.isFinite (lane (fun a b acc => acc + a * b) 8 count v w r) = true) (q : Fin count) :
    Scalar.isFinite (v.entry (8 * q + r) * w.entry (8 * q + r)) = true :=
  (Scalar.isFinite_of_foldl h).2 q

/-- Every entry is part of one of the sums of an inner product. -/
theorem isFinite_mul_of_dot (h : Scalar.isFinite (v.dot w) = true) (i : Fin n) :
    Scalar.isFinite (v.get i * w.get i) = true := by
  unfold dot at h
  split at h
  next =>
    unfold dotInOrder Scalar.sum at h
    exact (Scalar.isFinite_of_foldl h).2 i
  next =>
    obtain ⟨hwhole, hrest⟩ := Scalar.isFinite_of_foldl h
    rw [← v.entry_val, ← w.entry_val]
    by_cases hi : i.val < 8 * (n / 8)
    · obtain ⟨h₀₁₂, h₃⟩ := isFinite_of_add hwhole
      obtain ⟨h₀₁, h₂⟩ := isFinite_of_add h₀₁₂
      obtain ⟨h₀, h₁⟩ := isFinite_of_add h₀₁
      have hlanes : ∀ r < 8, Scalar.isFinite
          (lane (fun a b acc => acc + a * b) 8 (n / 8) v w r) = true := by
        intro r hr
        interval_cases r
        · exact (isFinite_of_add h₀).1
        · exact (isFinite_of_add h₁).1
        · exact (isFinite_of_add h₂).1
        · exact (isFinite_of_add h₃).1
        · exact (isFinite_of_add h₀).2
        · exact (isFinite_of_add h₁).2
        · exact (isFinite_of_add h₂).2
        · exact (isFinite_of_add h₃).2
      have hlane := isFinite_of_lane (hlanes (i % 8) (Nat.mod_lt _ (by decide)))
        ⟨i / 8, by omega⟩
      rwa [Nat.div_add_mod] at hlane
    · have hlast := hrest ⟨i - 8 * (n / 8), by omega⟩
      rwa [Nat.add_sub_cancel' (Nat.not_lt.mp hi)] at hlast

/-- **An inner product that is an ordinary number is one of vectors of ordinary numbers.** -/
theorem isFinite_of_dot (h : Scalar.isFinite (v.dot w) = true) :
    v.isFinite = true ∧ w.isFinite = true :=
  ⟨isFinite_iff.mpr fun i => (isFinite_of_mul (isFinite_mul_of_dot h i)).1,
    isFinite_iff.mpr fun i => (isFinite_of_mul (isFinite_mul_of_dot h i)).2⟩

end Vec

end Shooting
