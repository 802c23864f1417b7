import Shooting.Proofs.Config
import Shooting.Proofs.OrderedScalar
import Shooting.Proofs.Solver.Refusal
import Shooting.Proofs.Solver.Search

/-!
# Validating a configuration of doubles

The check of a configuration is a row of comparisons, and a comparison of doubles is false whenever
one side is not a number. So a test that refuses what does not meet a condition refuses such values
along with the others, and a test that refuses what violates a condition lets them pass. All tests
but the last are of the first kind.

`Config.requirements` lists the conditions in the order of the tests, each with what is reported if
it is the first that fails. `Config.validates_exactly` says that the check accepts the
configurations that meet all of them and reports the first that fails for all others. The last
requirement is weaker than that a ratio be at least one: a ratio that is not a number meets it too
(`Config.accepts_unordered_ratio`).
-/

namespace Shooting

/-! ## Requirements -/

/-- A condition that can be checked, and what is reported if it is the first that fails. -/
structure Requirement where
  holds : Prop
  [decidable : Decidable holds]
  fault : ParameterFault Float

namespace Requirement

instance (r : Requirement) : Decidable r.holds := r.decidable

/-- Goes through requirements up to the first that fails. -/
def check : List Requirement → Except (ParameterFault Float) Unit
  | [] => .ok ()
  | r :: rs => if r.holds then check rs else .error r.fault

/-- The first requirement that fails is one with the given fault. -/
inductive FirstFails (fault : ParameterFault Float) : List Requirement → Prop where
  | here {r : Requirement} {rs : List Requirement} :
    ¬ r.holds → fault = r.fault → FirstFails fault (r :: rs)
  | later {r : Requirement} {rs : List Requirement} :
    r.holds → FirstFails fault rs → FirstFails fault (r :: rs)

theorem check_ok_iff {rs : List Requirement} : check rs = .ok () ↔ ∀ r ∈ rs, r.holds := by
  induction rs with
  | nil => exact iff_of_true rfl nofun
  | cons r rs ih =>
    rw [List.forall_mem_cons, ← ih, check]
    by_cases hholds : r.holds
    · rw [if_pos hholds]
      exact (and_iff_right hholds).symm
    · rw [if_neg hholds]
      exact iff_of_false nofun fun h => hholds h.1

theorem check_error_iff {rs : List Requirement} {fault : ParameterFault Float} :
    check rs = .error fault ↔ FirstFails fault rs := by
  induction rs with
  | nil => exact iff_of_false nofun nofun
  | cons r rs ih =>
    rw [check]
    by_cases hholds : r.holds
    · rw [if_pos hholds, ih]
      refine ⟨.later hholds, ?_⟩
      rintro (⟨hfails, -⟩ | ⟨-, hrest⟩)
      · exact absurd hholds hfails
      · exact hrest
    · rw [if_neg hholds]
      constructor
      · intro h
        exact .here hholds (Except.error.inj h).symm
      · rintro (⟨-, rfl⟩ | ⟨hcontra, -⟩)
        · rfl
        · exact absurd hcontra hholds

end Requirement

/-! ## Comparisons with values that are not numbers -/

namespace Double

/-- **What is not less than one**: what is at least one, and what is not a number. -/
theorem not_lt_one_iff {x : Float} : ¬ x < 1 ↔ 1 ≤ x ∨ x.isNaN = true := by
  have hone : Float.isNaN 1 = false := by decide +kernel
  rw [lt_iff, le_iff, hone]
  cases x.isNaN with
  | false => simp only [true_and, not_lt, Bool.false_eq_true, or_false]
  | true => simp only [Bool.true_eq_false, false_and, and_false, not_false_eq_true, or_true]

theorem isNaN_of_lt {x y : Float} (h : x < y) : x.isNaN = false ∧ y.isNaN = false :=
  ⟨(lt_iff.mp h).1, (lt_iff.mp h).2.1⟩

end Double

/-! ## The check -/

namespace Config

variable {c : Config Float}

/-- What is required of a configuration, in the order in which it is checked. -/
def requirements (c : Config Float) : List Requirement :=
  [{ holds := c.regularizationMin.isFinite ∧ 0 < c.regularizationMin
     fault := .lowerRegularization c.regularizationMin },
   { holds := c.regularizationMax.isFinite ∧ c.regularizationMin ≤ c.regularizationMax
     fault := .upperRegularization c.regularizationMin c.regularizationMax },
   { holds := 1 < c.regularizationIncrease ∧ 1 < c.regularizationDecrease
     fault := .regularizationFactors c.regularizationIncrease c.regularizationDecrease },
   { holds := 1 ≤ c.lineSearchSteps
     fault := .noLineSearchSteps },
   { holds := 0 < c.acceptanceRatio ∧ c.acceptanceRatio < 1
     fault := .acceptanceRatio c.acceptanceRatio },
   { holds := 1 ≤ c.negativeAcceptanceRatio ∨ c.negativeAcceptanceRatio.isNaN
     fault := .negativeAcceptanceRatio c.negativeAcceptanceRatio }]

/-- The check goes through the requirements one after the other. -/
theorem validate_eq_check (c : Config Float) : c.validate = Requirement.check c.requirements := by
  have hzero : (Zero.toOfNat0.ofNat : Float) = 0 := Double.scalar_zero
  have hone : (One.toOfNat1.ofNat : Float) = 1 := Double.scalar_one
  have hsteps : c.lineSearchSteps = 0 ↔ ¬ 1 ≤ c.lineSearchSteps := by omega
  unfold validate
  simp only [requirements, Requirement.check, ite_not, hzero, hone, hsteps,
    ← Double.not_lt_one_iff]
  rfl

theorem validate_ok_iff_requirements : c.validate = .ok () ↔ ∀ r ∈ c.requirements, r.holds := by
  rw [validate_eq_check, Requirement.check_ok_iff]

/-- A configuration that passes has no value among those compared that is not a number, but perhaps
the one compared last. -/
theorem isNaN_of_validate (h : c.validate = .ok ()) :
    ∀ x ∈ [c.regularizationMin, c.regularizationMax, c.regularizationIncrease,
      c.regularizationDecrease, c.acceptanceRatio], x.isNaN = false := by
  have hholds := validate_ok_iff_requirements.mp h
  simp only [requirements, List.forall_mem_cons] at hholds
  obtain ⟨⟨hmin, -⟩, ⟨hmax, -⟩, ⟨hincrease, hdecrease⟩, -, ⟨hratio, -⟩, -⟩ := hholds
  simp only [List.forall_mem_cons]
  exact ⟨Double.isNaN_of_isFinite hmin, Double.isNaN_of_isFinite hmax,
    (Double.isNaN_of_lt hincrease).2, (Double.isNaN_of_lt hdecrease).2,
    (Double.isNaN_of_lt hratio).2, nofun⟩

/-- How a configuration is validated. -/
structure ValidatesExactly (c : Config Float) : Prop where
  /-- Accepted is what meets all requirements, … -/
  accepts : c.validate = .ok () ↔ ∀ r ∈ c.requirements, r.holds
  /-- … and so the regularization, its factors and the ratio for reductions are numbers. -/
  numbers : c.validate = .ok () →
    ∀ x ∈ [c.regularizationMin, c.regularizationMax, c.regularizationIncrease,
      c.regularizationDecrease, c.acceptanceRatio], x.isNaN = false
  /-- Everything else is refused for the first requirement that it fails, … -/
  refuses : ∀ fault, c.validate = .error fault ↔ Requirement.FirstFails fault c.requirements
  /-- … and then no solve starts: problem, solver and observers stay, and nothing is logged. -/
  starts : ∀ fault, c.validate = .error fault →
    ∀ (s : StateSpace) (nus : List Nat) (sv : Solver Float s nus) (p : Problem Float s nus)
      (g : Guess Float) (clock : Nat → Nat) (budget : Nat), sv.config = c →
      sv.solveWithin p g clock budget =
        ⟨p, sv, [], .error (.error (.solver (.invalidParameters fault)))⟩

/-- **Validation over all doubles.** -/
theorem validates_exactly (c : Config Float) : c.ValidatesExactly := by
  refine ⟨validate_ok_iff_requirements, isNaN_of_validate, ?_, ?_⟩
  · intro fault
    rw [validate_eq_check, Requirement.check_error_iff]
  · intro fault hfault s nus sv p g clock budget hconfig
    have hinit : sv.initialize? p g = .error (.solver (.invalidParameters fault)) := by
      rw [Solver.initialize?_eq, hconfig, hfault]
      rfl
    exact Solver.solveWithin_of_refused hinit clock budget

set_option maxRecDepth 10000 in
/-- **A ratio that is not a number is accepted**, and it is not at least one. -/
theorem accepts_unordered_ratio :
    let c : Config Float := { Config.standard with negativeAcceptanceRatio := 0 / 0 }
    c.validate = .ok () ∧ c.negativeAcceptanceRatio.isNaN = true ∧
      ¬ 1 ≤ c.negativeAcceptanceRatio := by
  decide +kernel

end Config

end Shooting
