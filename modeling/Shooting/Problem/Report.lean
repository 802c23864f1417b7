import Shooting.Problem.Checked
import Shooting.StageReport
import Shooting.Log

/-!
# What a problem says about itself

The data of its stages as lists, and warm starts with the log they produce.
-/

namespace Shooting.Problem

variable {α : Type} [Scalar α] [PseudoInverting α] {s : StateSpace} {nus : List Nat}

/-- The data of running stage `t`, or of the last stage for any `t` beyond. -/
def report (p : Problem α s nus) (t : Nat) : StageReport α :=
  ((p.stages.running fun st => StageReport.ofData st.data)[t]?).getD
    (.ofData p.stages.final.data)

/-- Quasi-static controls along given states: the problem with what the searches left behind, the
log, and the controls. Each stage that got the zero control instead is warned of, after what was
logged of the reason. -/
def quasiStaticControls? (p : Problem α s nus) (xs : List (List α)) (maxIter : Nat) (tol : α) :
    Problem α s nus × List (Event α) × Except (Refusal (ProblemError α)) (List (List α)) :=
  let w := p.warmStart xs maxIter tol
  let events := w.fallbacks.flatMap fun (t, e) => e.events ++ [.zeroControl t e]
  ({ p with stages := w.stages }, events, w.controls)

end Shooting.Problem
