import Shooting.Model.Basic
import Shooting.Linear.PseudoInverse

/-!
# Quasi-static controls

The control that keeps a state where it is, `f(x, u) = x`, by Newton's method on the control: each
step solves the linearized condition with the pseudo-inverse of `fu`, which is the least-squares
step when there are too few controls. The search ends when a step is no longer than the tolerance.

Every step evaluates and expands the stage at the control it starts from, and the stage data of the
last step stay behind whatever the outcome.
-/

namespace Shooting

/-- Why a search for a quasi-static control has no answer. -/
inductive QuasiStaticFailure where
  /-- The model offers none. -/
  | unsupported
  /-- The effect of the control on the next state has no pseudo-inverse. -/
  | noPseudoInverse (refusal : Refusal String)
  | diverged
  | exhausted
  deriving DecidableEq, Repr

/-- The outcome of a search, and the data of its last step if it made one. -/
structure QuasiStatic (α : Type) (s : StateSpace) (nu : Nat) where
  outcome : Except QuasiStaticFailure (Vec α nu)
  left : Option (StageData α s.nx s.ndx nu)

namespace Model

variable {α : Type} [Scalar α] {s : StateSpace} {nu : Nat}

/-- Whether a model offers a quasi-static control. -/
def hasQuasiStatic : {s : StateSpace} → {nu : Nat} → Model α s nu → Bool
  | _, _, lqr _ => true
  | _, _, unicycle _ => false
  | _, _, pendulum _ => true
  | _, _, integrator p => p.hasQuasiStatic
  | _, _, differenced _ inner => inner.hasQuasiStatic
  | _, _, custom c => c.hasQuasiStatic

/-- The data that a search leaves in a stage that held `old`. The last step is written over them by
the model that made it. -/
def dataAfter (m : Model α s nu) (q : QuasiStatic α s nu) (old : StageData α s.nx s.ndx nu) :
    StageData α s.nx s.ndx nu :=
  match q.left with
  | none => old
  | some d =>
    if m.evaluator.expandsControlCost then d
    else { d with expansion := d.expansion.withControlCostOf old.expansion }

variable [PseudoInverting α]

/-- The next control of the search: the current one less the least-squares solution of the
linearized condition. -/
def newtonStep? (s : StateSpace) (x : Vec α s.nx) (d : StageData α s.nx s.ndx nu) :
    Except (Refusal String) (Vec α nu) :=
  (PseudoInverting.pseudoInverse d.expansion.fu 1e-12).map fun inverse =>
    -(inverse * s.diff x d.eval.next)

/-- The search from control `u` with at most the given number of steps; `left` is what earlier steps
left behind. -/
def newton (m : Model α s nu) (x : Vec α s.nx) (tol : α) :
    Nat → Vec α nu → Option (StageData α s.nx s.ndx nu) → QuasiStatic α s nu
  | 0, _, left => ⟨.error .exhausted, left⟩
  | k + 1, u, _ =>
    let d := m.measure x (some u)
    match newtonStep? s x d with
    | .error refusal => ⟨.error (.noPseudoInverse refusal), some d⟩
    | .ok du =>
      -- the step is taken before its length is judged, so the answer includes the last step
      let u := u + du
      if !u.isFinite then ⟨.error .diverged, some d⟩
      else if du.norm ≤ tol then ⟨.ok u, some d⟩
      else m.newton x tol k u (some d)

/-- The control that keeps `x` where it is. A stage without controls has the empty one. The search
uses the model's own derivatives, also where finite differences stand in for them elsewhere. -/
def quasiStatic (m : Model α s nu) (x : Vec α s.nx) (maxIter : Nat) (tol : α) :
    QuasiStatic α s nu :=
  if !m.hasQuasiStatic then ⟨.error .unsupported, none⟩
  else if nu = 0 then ⟨.ok 0, none⟩
  else m.evaluator.newton x tol maxIter 0 none

end Model

/-- A failed search as a refusal by the model of the given name. -/
def QuasiStaticFailure.toRefusal {α : Type} (model : String) (maxIter : Nat) :
    QuasiStaticFailure → Refusal (ProblemError α)
  | unsupported => .error (.unsupportedOperation (.quasiStatic model))
  | noPseudoInverse (.error reason) => .error (.invalidNumericValue (.pseudoInverse model reason))
  | noPseudoInverse .misuse => .misuse
  | diverged => .error (.invalidNumericValue (.quasiStatic model))
  | exhausted => .error (.convergenceFailure (.quasiStatic model maxIter))

end Shooting
