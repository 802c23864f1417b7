import Shooting.Solver.Config

/-!
# What a configuration that passes its check satisfies

`Config.IsValid` states the conditions on a configuration one by one, and `Config.validate_ok_iff`
says that the check comes down to them.
-/

namespace Shooting.Config

variable {α : Type} [Scalar α] {c : Config α}

/-- The conditions on a configuration. -/
structure IsValid (c : Config α) : Prop where
  lower : Scalar.isFinite c.regularizationMin ∧ 0 < c.regularizationMin
  upper : Scalar.isFinite c.regularizationMax ∧ c.regularizationMin ≤ c.regularizationMax
  factors : 1 < c.regularizationIncrease ∧ 1 < c.regularizationDecrease
  steps : c.lineSearchSteps ≠ 0
  ratio : 0 < c.acceptanceRatio ∧ c.acceptanceRatio < 1
  /-- Not that the ratio is at least one: it may be one that compares with nothing. -/
  negativeRatio : ¬ c.negativeAcceptanceRatio < 1

theorem isValid_of_validate (h : c.validate = .ok ()) : c.IsValid := by
  unfold validate at h
  split at h
  next => cases h
  next hlower =>
    split at h
    next => cases h
    next hupper =>
      split at h
      next => cases h
      next hfactors =>
        split at h
        next => cases h
        next hsteps =>
          split at h
          next => cases h
          next hratio =>
            split at h
            next => cases h
            next hnegative =>
              exact ⟨Decidable.not_not.mp hlower, Decidable.not_not.mp hupper,
                Decidable.not_not.mp hfactors, hsteps, Decidable.not_not.mp hratio, hnegative⟩

/-- **The check passes exactly the configurations that meet all conditions.** -/
theorem validate_ok_iff : c.validate = .ok () ↔ c.IsValid := by
  refine ⟨isValid_of_validate, ?_⟩
  intro h
  unfold validate
  rw [if_neg (not_not_intro h.lower), if_neg (not_not_intro h.upper),
    if_neg (not_not_intro h.factors), if_neg h.steps, if_neg (not_not_intro h.ratio),
    if_neg h.negativeRatio]

/-- Unless the promise is too small to matter, an accepted step that promises no increase keeps a
part of what it promises. -/
theorem lt_of_accepts {actual expected d1 : α} (h : c.accepts actual expected d1 = true)
    (hd1 : ¬ Scalar.abs d1 < c.gradientThreshold) (hexpected : 0 ≤ expected) :
    c.acceptanceRatio * expected < actual := by
  unfold accepts at h
  rw [if_neg hd1, if_pos hexpected] at h
  exact of_decide_eq_true h

end Shooting.Config
