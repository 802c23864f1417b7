import Shooting.Proofs.Double.Scaling
import Shooting.Proofs.Exact.Scalar

/-!
# Ordered scalars

Most of this library needs no law of arithmetic. What is said of bounds needs a few, and
`OrderedScalar` lists them: an order on the values that are numbers, and that scaling a positive
value up does not make it smaller, nor scaling it down larger. Rounding may not break these laws,
nor may overflow or underflow. They hold of real numbers and of doubles.
-/

namespace Shooting

/-- The laws of order and scaling that bounds rest on. -/
class OrderedScalar (α : Type) [Scalar α] : Prop where
  isFinite_zero : Scalar.isFinite (0 : α) = true
  isNaN_of_isFinite {a : α} : Scalar.isFinite a = true → Scalar.isNaN a = false
  lt_irrefl (a : α) : ¬ a < a
  le_of_not_lt {a b : α} : Scalar.isNaN a = false → Scalar.isNaN b = false → ¬ a < b → b ≤ a
  le_trans {a b c : α} : a ≤ b → b ≤ c → a ≤ c
  lt_of_lt_of_le {a b c : α} : a < b → b ≤ c → a < c
  beq_iff {a b : α} : (a == b) = true ↔ a ≤ b ∧ b ≤ a
  /-- Only the two zeros are equal to one another without being the same. -/
  eq_of_le_of_le {a b : α} : 0 < a → a ≤ b → b ≤ a → a = b
  le_mul {a c : α} : 0 < a → 1 < c → a ≤ a * c
  div_le {a c : α} : 0 < a → 1 < c → Scalar.isNaN (a / c) = false → a / c ≤ a

namespace OrderedScalar

variable {α : Type} [Scalar α] [OrderedScalar α] {a : α}

theorem le_refl (h : Scalar.isNaN a = false) : a ≤ a := le_of_not_lt h h (lt_irrefl a)

theorem zero_beq_zero : ((0 : α) == 0) = true := by
  have hle := le_refl (isNaN_of_isFinite (@isFinite_zero α _ _))
  exact beq_iff.mpr ⟨hle, hle⟩

theorem beq_zero_of_pos (h : 0 < a) : (a == 0) = false := by
  refine Bool.eq_false_iff.mpr ?_
  intro hzero
  exact lt_irrefl 0 (lt_of_lt_of_le h (beq_iff.mp hzero).1)

end OrderedScalar

instance : OrderedScalar ℝ where
  isFinite_zero := rfl
  isNaN_of_isFinite _ := rfl
  lt_irrefl a := lt_irrefl a
  le_of_not_lt _ _ h := not_lt.mp h
  le_trans := le_trans
  lt_of_lt_of_le := lt_of_lt_of_le
  beq_iff := beq_iff_eq.trans le_antisymm_iff
  eq_of_le_of_le _ h h' := le_antisymm h h'
  le_mul ha hc := le_mul_of_one_le_right (le_of_lt ha) (le_of_lt hc)
  div_le ha hc _ := div_le_self (le_of_lt ha) (le_of_lt hc)

namespace Double

theorem isNaN_of_isFinite {a : Float} (h : a.isFinite = true) : a.isNaN = false := by
  change a.toModel.unpack.isFinite = true at h
  change a.toModel.unpack.isNaN = false
  generalize a.toModel.unpack = u at h
  cases u <;> first | rfl | cases h

/-- Zero and one of doubles as scalars, and as doubles. -/
theorem scalar_zero : (Zero.zero : Float) = 0 := by decide +kernel

theorem scalar_one : (One.one : Float) = 1 := by decide +kernel

theorem pos_iff {a : Float} : (Zero.zero : Float) < a ↔ 0 < a := by rw [scalar_zero]

theorem one_lt_iff {a : Float} : (One.one : Float) < a ↔ 1 < a := by rw [scalar_one]

end Double

instance : OrderedScalar Float where
  isFinite_zero := by decide +kernel
  isNaN_of_isFinite := Double.isNaN_of_isFinite
  lt_irrefl a h := lt_irrefl _ (Double.lt_iff.mp h).2.2
  le_of_not_lt ha hb h := by
    refine Double.le_iff.mpr ⟨hb, ha, ?_⟩
    by_contra hrank
    exact h (Double.lt_iff.mpr ⟨ha, hb, not_le.mp hrank⟩)
  le_trans h h' := by
    obtain ⟨ha, -, hle⟩ := Double.le_iff.mp h
    obtain ⟨-, hc, hle'⟩ := Double.le_iff.mp h'
    exact Double.le_iff.mpr ⟨ha, hc, hle.trans hle'⟩
  lt_of_lt_of_le h h' := by
    obtain ⟨ha, -, hlt⟩ := Double.lt_iff.mp h
    obtain ⟨-, hc, hle⟩ := Double.le_iff.mp h'
    exact Double.lt_iff.mpr ⟨ha, hc, hlt.trans_le hle⟩
  beq_iff := by
    intro a b
    rw [Double.le_iff, Double.le_iff]
    refine Double.beq_iff.trans ⟨?_, ?_⟩
    · rintro ⟨ha, hb, hrank⟩
      exact ⟨⟨ha, hb, hrank.le⟩, ⟨hb, ha, hrank.ge⟩⟩
    · rintro ⟨⟨ha, hb, hle⟩, ⟨-, -, hle'⟩⟩
      exact ⟨ha, hb, le_antisymm hle hle'⟩
  eq_of_le_of_le hpos h h' := by
    obtain ⟨-, -, hlt⟩ := Double.lt_iff.mp (Double.pos_iff.mp hpos)
    obtain ⟨ha, hb, hle⟩ := Double.le_iff.mp h
    obtain ⟨-, -, hle'⟩ := Double.le_iff.mp h'
    rw [Double.rankOf_zero] at hlt
    exact Double.eq_of_rankOf ha hb hlt (le_antisymm hle hle')
  le_mul ha hc := Double.le_mul (Double.pos_iff.mp ha) (Double.one_lt_iff.mp hc)
  div_le ha hc := Double.div_le (Double.pos_iff.mp ha) (Double.one_lt_iff.mp hc)

end Shooting
