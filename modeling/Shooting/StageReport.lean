import Shooting.Model.QuasiStatic

/-!
# Stage data as lists

A `StageReport` is the data of one stage in the form in which it is read from outside. A single
model can be tried out on one: `evaluate`, `expand` and `quasiStatic` check the lengths of their
arguments and write what they find into the report.

The derivatives of an integrator are the same at every state, and it is the one model that hands
them out for a state of any size; the report then takes its sizes from that state.
-/

namespace Shooting

/-- The data of one stage, written as lists. -/
structure StageReport (α : Type) where
  cost : α
  next : List α
  fx : List (List α)
  fu : List (List α)
  lx : List α
  lu : List α
  lxx : List (List α)
  luu : List (List α)
  lxu : List (List α)
  deriving DecidableEq, Repr

namespace StageReport

variable {α : Type} {nx ndx nu : Nat}

/-- Overwrites cost and next state. -/
def withEvaluation (r : StageReport α) (e : Evaluation α nx) : StageReport α :=
  { r with cost := e.cost, next := e.next.toList }

/-- Overwrites the derivatives. -/
def withExpansion (r : StageReport α) (e : Expansion α ndx nu) : StageReport α :=
  { r with
    fx := e.fx.toLists, fu := e.fu.toLists, lx := e.lx.toList, lu := e.lu.toList
    lxx := e.lxx.toLists, luu := e.luu.toLists, lxu := e.lxu.toLists }

/-- The report on stage data. -/
def ofData (d : StageData α nx ndx nu) : StageReport α where
  cost := d.eval.cost
  next := d.eval.next.toList
  fx := d.expansion.fx.toLists
  fu := d.expansion.fu.toLists
  lx := d.expansion.lx.toList
  lu := d.expansion.lu.toList
  lxx := d.expansion.lxx.toLists
  luu := d.expansion.luu.toLists
  lxu := d.expansion.lxu.toLists

variable [Scalar α]

/-- The report on a stage of the given sizes that was never evaluated. -/
def zero (nx ndx nu : Nat) : StageReport α := ofData (StageData.zero : StageData α nx ndx nu)

/-- The report on such a stage, if there is room for all its parts. -/
def zero? (nx ndx nu : Nat) : Option (StageReport α) :=
  if [nx, ndx * ndx, ndx * nu, nu * nu].all (· < Vec.sizeLimit) then some (zero nx ndx nu) else none

/-- Whether cost and next state are ordinary numbers. -/
def isEvaluationFinite (r : StageReport α) : Bool :=
  Scalar.isFinite r.cost && r.next.all Scalar.isFinite

/-- Whether everything consists of ordinary numbers. -/
def isFinite (r : StageReport α) : Bool :=
  r.isEvaluationFinite &&
    [r.fx, r.fu, [r.lx], [r.lu], r.lxx, r.luu, r.lxu].all fun rows =>
      rows.all fun row => row.all Scalar.isFinite

/-- A part of a report. -/
inductive Part where
  | cost
  | next
  | fx
  | fu
  | lx
  | lu
  | lxx
  | luu
  | lxu
  deriving DecidableEq, Repr

/-- Overwrites entry `i` of a list, if there is one. -/
def replaceAt? (xs : List α) (i : Nat) (a : α) : Option (List α) :=
  if i < xs.length then some (xs.set i a) else none

/-- Overwrites entry `j` of row `i`, if there is one. -/
def replaceCell? (rows : List (List α)) (i j : Nat) (a : α) : Option (List (List α)) := do
  let row ← rows[i]?
  let row ← replaceAt? row j a
  return rows.set i row

/-- Overwrites one number of a report, if there is one at that place. A vector ignores `j` and the
cost both indices. -/
def set? (r : StageReport α) (part : Part) (i j : Nat) (a : α) : Option (StageReport α) :=
  match part with
  | .cost => some { r with cost := a }
  | .next => (replaceAt? r.next i a).map fun next => { r with next }
  | .fx => (replaceCell? r.fx i j a).map fun fx => { r with fx }
  | .fu => (replaceCell? r.fu i j a).map fun fu => { r with fu }
  | .lx => (replaceAt? r.lx i a).map fun lx => { r with lx }
  | .lu => (replaceAt? r.lu i a).map fun lu => { r with lu }
  | .lxx => (replaceCell? r.lxx i j a).map fun lxx => { r with lxx }
  | .luu => (replaceCell? r.luu i j a).map fun luu => { r with luu }
  | .lxu => (replaceCell? r.lxu i j a).map fun lxu => { r with lxu }

end StageReport

/-- The report after a search for a quasi-static control. -/
def StageReport.afterSearch {α : Type} {s : StateSpace} {nu : Nat} (r : StageReport α)
    (m : Model α s nu) (q : QuasiStatic α s nu) : StageReport α :=
  match q.left with
  | none => r
  | some d =>
    let found := (r.withEvaluation d.eval).withExpansion d.expansion
    if m.evaluator.expandsControlCost then found
    else { found with lu := r.lu, luu := r.luu, lxu := r.lxu }

namespace Model

variable {α : Type} [Scalar α] {s : StateSpace} {nu : Nat}

/-- Evaluates the stage. -/
def evaluateInto (m : Model α s nu) (r : StageReport α) (x : List α) (u : Option (List α)) :
    Except SizeFault (StageReport α) :=
  (m.evaluate? x u).map r.withEvaluation

/-- Expands the stage. -/
def expandInto (m : Model α s nu) (r : StageReport α) (x : List α) (u : Option (List α)) :
    Except SizeFault (StageReport α) :=
  match m with
  | integrator p =>
    .ok { r with
      fx := (Mat.identity x.length : Mat α x.length x.length).toLists
      fu := p.b.toLists
      lx := x
      lxx := (p.stateHessian x.length).toLists }
  | m => (m.expand? x u).map r.withExpansion

variable [PseudoInverting α]

/-- Searches for a quasi-static control. A model that offers none says so before it looks at the
state. -/
def quasiStaticInto (m : Model α s nu) (r : StageReport α) (x : List α) (maxIter : Nat) (tol : α) :
    Except (Refusal (ProblemError α)) (List α) × StageReport α :=
  let name := m.evaluator.name
  if !m.hasQuasiStatic then (.error (QuasiStaticFailure.unsupported.toRefusal name maxIter), r)
  else
    match state? (.model name) s x with
    | .error fault => (.error (.error (.dimensionMismatch fault)), r)
    | .ok x =>
      let q := m.quasiStatic x maxIter tol
      (match q.outcome with
        | .ok u => .ok u.toList
        | .error f => .error (f.toRefusal name maxIter), r.afterSearch m q)

end Model

end Shooting
