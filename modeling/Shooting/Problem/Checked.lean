import Shooting.Problem.Evaluation
import Shooting.Model.QuasiStatic

/-!
# Problems and lists of any size

The operations on a problem as they are offered to callers who hold lists. Each of them first finds
out whether the lists fit the stages and says what is wrong if they do not; only then does it
change the problem. `path?` is the check shared by all of them: number of states, number of
controls, sizes of the controls, sizes of the states, in this order.
-/

namespace Shooting.Problem

variable {α : Type} [Scalar α] {s : StateSpace}

/-- Lists as controls of the stages from number `t` on; `count` is the fault to report should their
number be wrong. -/
def controlsFrom (count : SizeFault) :
    (t : Nat) → (nus : List Nat) → List (List α) → Except SizeFault (Controls α nus)
  | _, [], [] => .ok (.last ())
  | t, nu :: nus, u :: us => do
    let u ← Model.control? (.stage t) nu u
    let us ← controlsFrom count (t + 1) nus us
    return .stage u us
  | _, _, _ => .error count

/-- Lists as states of the stages from number `t` on. -/
def statesFrom (s : StateSpace) (count : SizeFault) :
    (t : Nat) → (nus : List Nat) → List (List α) → Except SizeFault (States α s nus)
  | t, [], [x] => do
    let x ← Model.state? (.stage t) s x
    return .last x
  | t, _ :: nus, x :: xs => do
    let x ← Model.state? (.stage t) s x
    let xs ← statesFrom s count (t + 1) nus xs
    return .stage x xs
  | _, _, _ => .error count

variable {nus : List Nat}

/-- Lists as the controls of a problem. -/
def controls? (_ : Problem α s nus) (us : List (List α)) : Except SizeFault (Controls α nus) :=
  let count := SizeFault.controls nus.length us.length
  if us.length = nus.length then controlsFrom count 0 nus us else .error count

/-- Lists as a path of a problem. -/
def path? (p : Problem α s nus) (xs us : List (List α)) : Except SizeFault (Path α s nus) := do
  let count := SizeFault.states (nus.length + 1) xs.length
  if xs.length = nus.length + 1 then
    let us ← p.controls? us
    let xs ← statesFrom s count 0 nus xs
    return .ofParts xs us
  else .error count

/-- Evaluates every stage and sums the costs. -/
def evaluate? (p : Problem α s nus) (xs us : List (List α)) :
    Except SizeFault (Problem α s nus × α) := do
  let path ← p.path? xs us
  let p := p.evaluate path
  return (p, p.totalCost)

/-- Expands every stage and sums the costs, which are still those of the last evaluation. -/
def expand? (p : Problem α s nus) (xs us : List (List α)) :
    Except SizeFault (Problem α s nus × α) := do
  let path ← p.path? xs us
  let p := p.expand path
  return (p, p.totalCost)

/-- The path that given controls produce. -/
def rollout? (p : Problem α s nus) (us : List (List α)) :
    Except SizeFault (Problem α s nus × Path α s nus) := do
  let us ← p.controls? us
  return p.rollout us

/-- Evaluates running stage `t` alone. -/
def evaluateStage? (p : Problem α s nus) (t : Nat) (x u : List α) :
    Except (ProblemError α) (Problem α s nus × Evaluation α s.nx) :=
  let attempt {nu : Nat} (st : Stage α s nu) :
      Stage α s nu × Except SizeFault (Evaluation α s.nx) :=
    match Model.state? (.model st.model.name) s x, Model.control? (.model st.model.name) nu u with
    | .ok x, .ok u => let st := st.evaluate x u; (st, .ok st.data.eval)
    | .error fault, _ => (st, .error fault)
    | _, .error fault => (st, .error fault)
  match p.stages.visit attempt t with
  | (_, none) => .error (.invalidInput (.stageOutside t nus.length))
  | (_, some (.error fault)) => .error (.dimensionMismatch fault)
  | (stages, some (.ok e)) => .ok ({ p with stages }, e)

/-- Evaluates the last stage alone. -/
def evaluateTerminal? (p : Problem α s nus) (x : List α) :
    Except SizeFault (Problem α s nus × Evaluation α s.nx) := do
  let st := p.stages.final
  let x ← Model.state? (.model st.model.name) s x
  let st := st.evaluate x
  return ({ p with stages := p.stages.setFinal st }, st.data.eval)

/-- The states that the last evaluation predicts: the initial one, then one after each stage. -/
def predictions (p : Problem α s nus) : List (Vec α s.nx) :=
  p.start :: p.stages.running fun st => st.data.eval.next

/-- The gaps between given states and the last predictions. Only the number of states is checked;
single states of a size that cannot be compared are a misuse. -/
def gaps? (p : Problem α s nus) (xs : List (List α)) :
    Except (Refusal (ProblemError α)) (List (List α)) :=
  if xs.length = nus.length + 1 then
    match (xs.zip p.predictions).mapM fun (x, predicted) => s.diff? x predicted.toList with
    | some gaps => .ok gaps
    | none => .error .misuse
  else .error (.error (.dimensionMismatch (.states (nus.length + 1) xs.length)))

variable [PseudoInverting α]

/-- Searches for a quasi-static control of one stage; the data of the search stay with it. -/
def quasiStaticOfStage {nu : Nat} (st : Stage α s nu) (x : List α) (maxIter : Nat) (tol : α) :
    Stage α s nu × Except (Refusal (ProblemError α)) (List α) :=
  match Model.state? (.model st.model.name) s x with
  | .error fault => (st, .error (.error (.dimensionMismatch fault)))
  | .ok x =>
    let q := st.model.quasiStatic x maxIter tol
    ({ st with data := st.model.dataAfter q st.data },
      match q.outcome with
      | .ok u => .ok u.toList
      | .error f => .error (f.toRefusal st.model.evaluator.name maxIter))

/-- The control that keeps running stage `t` at `x`. -/
def quasiStatic? (p : Problem α s nus) (t : Nat) (x : List α) (maxIter : Nat) (tol : α) :
    Problem α s nus × Except (Refusal (ProblemError α)) (List α) :=
  match p.stages.visit (fun st => quasiStaticOfStage st x maxIter tol) t with
  | (_, none) => (p, .error (.error (.invalidInput (.stageOutside t nus.length))))
  | (stages, some answer) => ({ p with stages }, answer)

/-- What a warm start found: the stages as the searches left them, the stages whose search failed
with the reason, and the controls or the refusal that ended it. -/
structure WarmStart (α : Type) (s : StateSpace) (nus : List Nat) where
  stages : Stages α s nus
  fallbacks : List (Nat × ProblemError α)
  controls : Except (Refusal (ProblemError α)) (List (List α))

/-- Quasi-static controls at the given states for the stages from number `t` on. A stage without an
answer gets the zero control and a note of the reason; a state of the wrong size ends the search. -/
def warmStartFrom (maxIter : Nat) (tol : α) :
    {nus : List Nat} → (t : Nat) → Stages α s nus → List (List α) → WarmStart α s nus
  | _, _, .last st, _ => ⟨.last st, [], .ok []⟩
  | _, _, stages, [] => ⟨stages, [], .ok []⟩
  | _, t, .stage st rest, x :: xs =>
    let (st, answer) := quasiStaticOfStage st x maxIter tol
    let keep (u : List α) (notes : List (Nat × ProblemError α)) :=
      let w := warmStartFrom maxIter tol (t + 1) rest xs
      ⟨.stage st w.stages, notes ++ w.fallbacks, w.controls.map (u :: ·)⟩
    -- a state of the wrong size is the caller's mistake, all else the model's inability
    match answer with
    | .ok u => keep u []
    | .error .misuse => ⟨.stage st rest, [], .error .misuse⟩
    | .error (.error (.dimensionMismatch fault)) =>
      ⟨.stage st rest, [], .error (.error (.dimensionMismatch fault))⟩
    | .error (.error e) => keep st.zeroControl.toList [(t, e)]

/-- Quasi-static controls along given states, of which there have to be enough. -/
def warmStart (p : Problem α s nus) (xs : List (List α)) (maxIter : Nat) (tol : α) :
    WarmStart α s nus :=
  if xs.length < nus.length then
    ⟨p.stages, [], .error (.error (.dimensionMismatch (.leadingStates nus.length xs.length)))⟩
  else warmStartFrom maxIter tol 0 p.stages xs

end Shooting.Problem
