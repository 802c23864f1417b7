import Shooting.Problem.Evaluation
import Shooting.Linear.Cholesky

/-!
# The policy of a quadratic model

Around a path, the dynamics are linear and the cost is quadratic. Going backwards from the end, each
stage turns the quadratic value function of its successor into its own, together with the affine
policy `δu = -k - K δx` that attains it. The state regularization is added to the diagonal of every
value Hessian, the control regularization to that of every `Quu`.

Along an infeasible path the gaps enter: the value gradient is taken at the far side of the gap.

`backward` may end early: when a `Quu` has no Cholesky factor, or when a value gradient is not
finite. The stages it did not reach keep the policy they had.
-/

namespace Shooting

/-- A quadratic value function: its gradient and its Hessian. -/
structure ValueModel (α : Type) (ndx : Nat) where
  gradient : Vec α ndx
  hessian : Mat α ndx ndx
  deriving DecidableEq, Repr

/-- The quadratic model of a stage's cost together with the value after it. -/
structure ActionValue (α : Type) (ndx nu : Nat) where
  qx : Vec α ndx
  qu : Vec α nu
  qxx : Mat α ndx ndx
  qxu : Mat α ndx nu
  quu : Mat α nu nu
  deriving DecidableEq, Repr

/-- An affine policy `δu = -feedforward - feedback δx`. -/
structure Gains (α : Type) (ndx nu : Nat) where
  feedforward : Vec α nu
  feedback : Mat α nu ndx
  deriving DecidableEq, Repr

/-- What the backward pass finds for a running stage. -/
structure StagePolicy (α : Type) (ndx nu : Nat) where
  q : ActionValue α ndx nu
  gains : Gains α ndx nu
  value : ValueModel α ndx
  deriving DecidableEq, Repr

/-- The policy of every running stage and the value function at the end. -/
abbrev Policy (α : Type) (ndx : Nat) (nus : List Nat) : Type :=
  Horizon (StagePolicy α ndx) (ValueModel α ndx) nus

/-- The regularization of states and of controls. -/
structure Damping (α : Type) where
  state : α
  control : α
  deriving DecidableEq, Repr

/-- How a backward pass ends early. -/
inductive BackwardFailure where
  /-- The value gradient at the end is not finite. -/
  | finalGradient
  /-- `Quu` of a stage has no Cholesky factor. -/
  | indefinite (t : Nat)
  /-- The value gradient of a stage is not finite. -/
  | gradient (t : Nat)
  deriving DecidableEq, Repr

variable {α : Type} [Scalar α] {s : StateSpace} {ndx nu : Nat} {nus : List Nat}

/-- The quadratic model of a stage whose successor has the value function `next`. -/
def ActionValue.ofExpansion (e : Expansion α ndx nu) (next : ValueModel α ndx) (damping : α) :
    ActionValue α ndx nu :=
  let fxv := e.fx.transpose * next.hessian
  let fuv := e.fu.transpose * next.hessian
  { qx := e.lx + e.fx.transpose * next.gradient
    qu := e.lu + e.fu.transpose * next.gradient
    qxx := e.lxx + fxv * e.fx
    qxu := e.lxu + fxv * e.fu
    quu := (e.luu + fuv * e.fu).addDiagonal damping }

/-- The minimizing policy of a quadratic model, if `Quu` has a Cholesky factor. -/
def ActionValue.gains? (q : ActionValue α ndx nu) : Option (Gains α ndx nu) :=
  if q.quu.isFinite then
    match cholesky q.quu with
    | .ok l => some ⟨l.solveVec q.qu, l.solve q.qxu.transpose⟩
    | .error _ => none
  else none

/-- A value function with its Hessian regularized and its gradient moved across a gap. -/
def ValueModel.across (gradient : Vec α ndx) (hessian : Mat α ndx ndx) (damping : α)
    (gap : Option (Vec α ndx)) : ValueModel α ndx :=
  let hessian := hessian.addDiagonal damping
  match gap with
  | none => ⟨gradient, hessian⟩
  | some f => ⟨gradient + hessian * f, hessian⟩

/-- The value function of a stage under its policy. -/
def ActionValue.value (q : ActionValue α ndx nu) (g : Gains α ndx nu) (damping : α)
    (gap : Option (Vec α ndx)) : ValueModel α ndx :=
  .across (q.qx - g.feedback.transpose * q.qu) (q.qxx - q.qxu * g.feedback).symmetrized damping gap

/-- The value function at the first stage of a policy, or at the end if there is no stage. -/
def Policy.head (p : Policy α ndx nus) : ValueModel α ndx := p.first StagePolicy.value id

/-- The backward pass from the end to stage `t`, over the policy it overwrites. Gaps count unless
the path is feasible. -/
def backwardFrom (damping : Damping α) (feasible : Bool) :
    {nus : List Nat} → (t : Nat) → Stages α s nus → Gaps α s nus → Policy α s.ndx nus →
      Policy α s.ndx nus × Option BackwardFailure
  | _, _, .last st, .last f, .last old =>
    let e := st.data.expansion
    -- there is no control at the end, hence no policy: only the cost and the gap count
    let v := ValueModel.across e.lx e.lxx damping.state (if feasible then none else some f)
    if v.gradient.isFinite then (.last v, none) else (.last old, some .finalGradient)
  | _, t, .stage st rest, .stage f fs, .stage old olds =>
    match backwardFrom damping feasible (t + 1) rest fs olds with
    | (after, some failure) => (.stage old after, some failure)
    | (after, none) =>
      let q := ActionValue.ofExpansion st.data.expansion after.head damping.control
      match q.gains? with
      | none => (.stage { old with q } after, some (.indefinite t))
      | some gains =>
        let value := q.value gains damping.state (if feasible then none else some f)
        if value.gradient.isFinite then (.stage ⟨q, gains, value⟩ after, none)
        else (.stage { old with q, gains } after, some (.gradient t))

/-- The backward pass over a whole problem. -/
def backward (damping : Damping α) (feasible : Bool) (stages : Stages α s nus) (gaps : Gaps α s nus)
    (old : Policy α s.ndx nus) : Policy α s.ndx nus × Option BackwardFailure :=
  backwardFrom damping feasible 0 stages gaps old

/-- The predicted reduction of the cost by a step of length `a` is `a (first + ½ a second)`; `stop`
is the sum of the squared control gradients. -/
structure ExpectedImprovement (α : Type) where
  first : α
  second : α
  stop : α
  deriving DecidableEq, Repr

namespace ExpectedImprovement

/-- The predicted reduction by a step of the given length. -/
def reduction (e : ExpectedImprovement α) (length : α) : α :=
  length * (e.first + 0.5 * length * e.second)

/-- Adds the part of a running stage's policy. -/
def addStage (e : ExpectedImprovement α) (p : StagePolicy α ndx nu) : ExpectedImprovement α :=
  let k := p.gains.feedforward
  { first := e.first + p.q.qu.dot k
    second := e.second - k.dot (p.q.quu * k)
    stop := e.stop + p.q.qu.normSq }

/-- Adds the part of a gap. -/
def addGap (e : ExpectedImprovement α) (v : ValueModel α ndx) (gap : Vec α ndx) :
    ExpectedImprovement α :=
  { e with
    first := e.first - v.gradient.dot gap
    second := e.second + gap.dot (v.hessian * gap) }

/-- Adds the parts of all gaps. -/
def addGaps : {nus : List Nat} → ExpectedImprovement α → Policy α s.ndx nus → Gaps α s nus →
    ExpectedImprovement α
  | _, e, .last v, .last f => e.addGap v f
  | _, e, .stage p ps, .stage f fs => addGaps (e.addGap p.value f) ps fs

/-- What a policy promises, with the gaps unless the path is feasible. -/
def ofPolicy (policy : Policy α s.ndx nus) (gaps : Gaps α s nus) (feasible : Bool) :
    ExpectedImprovement α :=
  let e := policy.foldl addStage ⟨0, 0, 0⟩
  if feasible then e else addGaps e policy gaps

end ExpectedImprovement

end Shooting
