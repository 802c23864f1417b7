import Shooting.Proofs.Loose.Differences
import Shooting.Model.QuasiStatic
import Mathlib.Data.Fintype.Basic

/-!
# Models in memory

Each model with its formulas as a program computes them: states and controls are lists of any
length, matrices are put together from their entries, and every product looks at the sizes of its
factors. A model checks its arguments before it computes anything.

`Model.evaluateLoose_toList` and `Model.expandLoose_toList` say that on a state and a control that
pass this check no model clashes, whatever wrappers it is in, and that what it computes are its
evaluation and its expansion. The search for a quasi-static control, which repeats both, comes to
the same outcome and leaves the same data (`Model.quasiStaticLoose_toList`).
-/

namespace Shooting

variable {α ε : Type} [Scalar α] {nx nu : Nat}

namespace Loose

/-- The matrix with the given diagonal. -/
def diagonal (v : List α) : Table α := .ofMat (.diagonal (.ofList v))

/-- The orientation of a state, which needs two entries for it. -/
def rotation (x : List α) : Loose ε (Rotation α) := ofOption (Revolute.rotation? x)

@[simp] theorem rotation_toList (x : Vec α 3) :
    (rotation x.toList : Loose ε (Rotation α)) = .ok (Revolute.rotation x) := by
  rw [rotation, Vec.toList_eq_ofFn]
  rfl

omit [Scalar α] in
theorem ofRows_one (a : α) : (ofRows 1 1 [a] : Loose ε (Table α)) =
    .ok (.ofMat (⟨⟨#v[⟨#v[a]⟩]⟩⟩ : Mat α 1 1)) :=
  ofRows_eq rfl fun i j => by fin_cases i; fin_cases j; rfl

omit [Scalar α] in
theorem ofRows_column (a b : α) : (ofRows 2 1 [a, b] : Loose ε (Table α)) =
    .ok (.ofMat (⟨⟨#v[⟨#v[a]⟩, ⟨#v[b]⟩]⟩⟩ : Mat α 2 1)) :=
  ofRows_eq rfl fun i j => by fin_cases i <;> fin_cases j <;> rfl

omit [Scalar α] in
theorem ofRows_two (a b c d : α) : (ofRows 2 2 [a, b, c, d] : Loose ε (Table α)) =
    .ok (.ofMat (⟨⟨#v[⟨#v[a, b]⟩, ⟨#v[c, d]⟩]⟩⟩ : Mat α 2 2)) :=
  ofRows_eq rfl fun i j => by fin_cases i <;> fin_cases j <;> rfl

/-- Passes what has the right sizes, and reports as an error what has not. -/
def sized {β : Type} : Except SizeFault β → Loose (ProblemError α) β :=
  Except.mapError fun fault => .error (.dimensionMismatch fault)

omit [Scalar α] in
@[simp] theorem sized_ok {β : Type} (b : β) :
    (sized (.ok b) : Loose (ProblemError α) β) = .ok b := rfl

end Loose

open Loose

/-! ## Linear-quadratic stages -/

namespace Lqr

variable (p : Lqr α nx nu)

def stateCostLoose (x : List α) : Loose ε α := do
  return 0.5 * (← dot x (← mulVec (.ofMat p.lxx) x)) + (← dot p.lx.toList x)

def evaluateLoose (x : List α) : Option (List α) → Loose ε (LooseEvaluation α)
  | some u => do
    let cost := (← p.stateCostLoose x) + 0.5 * (← dot u (← mulVec (.ofMat p.luu) u)) +
      (← dot x (← mulVec (.ofMat p.lxu) u)) + (← dot p.lu.toList u)
    let next ← add (← add (← mulVec (.ofMat p.fx) x) (← mulVec (.ofMat p.fu) u)) p.f0.toList
    return { cost, next }
  | none => do return { cost := ← p.stateCostLoose x, next := x }

def expandLoose (x : List α) : Option (List α) → Loose ε (LooseExpansion α)
  | some u => do
    let lx ← add (← add (← mulVec (.ofMat p.lxx) x) (← mulVec (.ofMat p.lxu) u)) p.lx.toList
    let lu ← add (← add (← mulVec (.ofMat p.luu) u) (← mulVec (transpose (.ofMat p.lxu)) x))
      p.lu.toList
    return {
      fx := .ofMat p.fx, fu := .ofMat p.fu, lx, lu
      lxx := .ofMat p.lxx, luu := .ofMat p.luu, lxu := .ofMat p.lxu }
  | none => do
    let lx ← add (← mulVec (.ofMat p.lxx) x) p.lx.toList
    return {
      fx := identity nx, fu := zeroMat nx nu, lx, lu := zeros nu
      lxx := .ofMat p.lxx, luu := zeroMat nu nu, lxu := zeroMat nx nu }

theorem evaluateLoose_toList (x : Vec α nx) : ∀ u : Option (Vec α nu),
    (p.evaluateLoose x.toList (u.map Vec.toList) : Loose ε _) = .ok (p.evaluate x u).toLoose
  | some u => by
    simp only [evaluateLoose, stateCostLoose, Option.map_some, mulVec_ofMat, dot_toList, add_toList,
      ok_bind, pure_eq]
    rfl
  | none => by
    simp only [evaluateLoose, stateCostLoose, Option.map_none, mulVec_ofMat, dot_toList, ok_bind,
      pure_eq]
    rfl

theorem expandLoose_toList (x : Vec α nx) : ∀ u : Option (Vec α nu),
    (p.expandLoose x.toList (u.map Vec.toList) : Loose ε _) = .ok (p.expand x u).toLoose
  | some u => by
    simp only [expandLoose, Option.map_some, transpose_ofMat, mulVec_ofMat, add_toList, ok_bind,
      pure_eq]
    rfl
  | none => by
    simp only [expandLoose, Option.map_none, mulVec_ofMat, add_toList, ok_bind, pure_eq, zeros_eq]
    rfl

end Lqr

/-! ## Unicycles -/

namespace Unicycle

variable (p : Unicycle α)

def evaluateLoose (x : List α) : Option (List α) → Loose ε (LooseEvaluation α)
  | some u => do
    let s := Scalar.sin (← entry x 2)
    let c := Scalar.cos (← entry x 2)
    let next := [(← entry x 0) + c * (← entry u 0) * p.dt,
      (← entry x 1) + s * (← entry u 0) * p.dt, (← entry x 2) + (← entry u 1) * p.dt]
    let cost := 0.5 * (p.stateWeight * p.stateWeight) * normSq x +
      0.5 * (p.controlWeight * p.controlWeight) * normSq u
    return { cost, next }
  | none => return { cost := 0.5 * (p.stateWeight * p.stateWeight) * normSq x, next := x }

def expandLoose (x : List α) (u : Option (List α)) : Loose ε (LooseExpansion α) := do
  let ws := p.stateWeight * p.stateWeight
  let wc := p.controlWeight * p.controlWeight
  let lx := scale x ws
  let lxx := scaleMat (identity 3) ws
  let lxu := zeroMat 3 2
  match u with
  | some u =>
    let s := Scalar.sin (← entry x 2)
    let c := Scalar.cos (← entry x 2)
    let fx ← ofRows 3 3 [1, 0, -s * (← entry u 0) * p.dt, 0, 1, c * (← entry u 0) * p.dt, 0, 0, 1]
    let fu ← ofRows 3 2 [c * p.dt, 0, s * p.dt, 0, 0, p.dt]
    return { fx, fu, lx, lu := scale u wc, lxx, luu := scaleMat (identity 2) wc, lxu }
  | none =>
    return { fx := identity 3, fu := zeroMat 3 2, lx, lu := zeros 2, lxx, luu := zeroMat 2 2, lxu }

/-- The derivative of the next state in the state, written row by row. -/
theorem ofRows_fx (x : Vec α 3) (u : Vec α 2) :
    (ofRows 3 3 [1, 0, -Scalar.sin (x.entry 2) * u.entry 0 * p.dt, 0, 1,
      Scalar.cos (x.entry 2) * u.entry 0 * p.dt, 0, 0, 1] : Loose ε (Table α)) =
        .ok (.ofMat (p.expand x (some u)).fx) :=
  ofRows_eq rfl fun i j => by fin_cases i <;> fin_cases j <;> rfl

/-- The derivative in the control. -/
theorem ofRows_fu (x : Vec α 3) (u : Vec α 2) :
    (ofRows 3 2 [Scalar.cos (x.entry 2) * p.dt, 0, Scalar.sin (x.entry 2) * p.dt, 0, 0, p.dt] :
      Loose ε (Table α)) = .ok (.ofMat (p.expand x (some u)).fu) :=
  ofRows_eq rfl fun i j => by fin_cases i <;> fin_cases j <;> rfl

theorem evaluateLoose_toList (x : Vec α 3) : ∀ u : Option (Vec α 2),
    (p.evaluateLoose x.toList (u.map Vec.toList) : Loose ε _) = .ok (p.evaluate x u).toLoose
  | some u => by
    simp (disch := omega) only [evaluateLoose, Option.map_some, entry_toList_of_lt, ok_bind,
      pure_eq, normSq_toList]
    rfl
  | none => by
    simp only [evaluateLoose, Option.map_none, normSq_toList]
    rfl

theorem expandLoose_toList (x : Vec α 3) : ∀ u : Option (Vec α 2),
    (p.expandLoose x.toList (u.map Vec.toList) : Loose ε _) = .ok (p.expand x u).toLoose
  | some u => by
    simp (disch := omega) only [expandLoose, Option.map_some, scale_toList, identity,
      scaleMat_ofMat, entry_toList_of_lt, ok_bind, pure_eq, p.ofRows_fx x u, p.ofRows_fu x u]
    rfl
  | none => by
    simp only [expandLoose, Option.map_none, zeros_eq, identity, scaleMat_ofMat, scale_toList]
    rfl

end Unicycle

/-! ## Pendulums -/

namespace Pendulum

variable (p : Pendulum α)

def angleErrorLoose (x : List α) : Loose ε α := do
  return (p.goal.inverse * (← rotation x)).angle

def stateCostLoose (x : List α) : Loose ε α := do
  let e ← p.angleErrorLoose x
  let ω ← entry x 2
  return 0.5 * p.angleWeight * e * e + 0.5 * p.velocityWeight * ω * ω

def evaluateLoose (x : List α) : Option (List α) → Loose ε (LooseEvaluation α)
  | some u => do
    let τ ← entry u 0
    let ω ← entry x 2
    let a := p.acceleration (← rotation x).im ω τ
    let next ← integrate .revolute x [(ω + a * p.dt) * p.dt, a * p.dt]
    return { cost := (← p.stateCostLoose x) + 0.5 * p.torqueWeight * τ * τ, next }
  | none => do return { cost := ← p.stateCostLoose x, next := x }

def expandLoose (x : List α) (u : Option (List α)) : Loose ε (LooseExpansion α) := do
  let lx := [p.angleWeight * (← p.angleErrorLoose x), p.velocityWeight * (← entry x 2)]
  let lxx := diagonal [p.angleWeight, p.velocityWeight]
  let lxu := zeroMat 2 1
  match u with
  | some u =>
    let dt := p.dt
    let daθ := -p.gravity * (← rotation x).re / p.length
    let daω := -p.damping / p.inertia
    let daτ := 1 / p.inertia
    let fx ← ofRows 2 2 [1 + daθ * dt * dt, dt + daω * dt * dt, daθ * dt, 1 + daω * dt]
    let fu ← ofRows 2 1 [daτ * dt * dt, daτ * dt]
    let luu ← ofRows 1 1 [p.torqueWeight]
    return { fx, fu, lx, lu := [p.torqueWeight * (← entry u 0)], lxx, luu, lxu }
  | none =>
    return { fx := identity 2, fu := zeroMat 2 1, lx, lu := zeros 1, lxx, luu := zeroMat 1 1, lxu }

theorem integrate_pair (x : Vec α 3) (a b : α) :
    (integrate .revolute x.toList [a, b] : Loose ε (List α)) =
      .ok (Revolute.integrate x ⟨#v[a, b]⟩).toList :=
  integrate_toList .revolute x ⟨#v[a, b]⟩

@[simp] theorem angleErrorLoose_toList (x : Vec α 3) :
    (p.angleErrorLoose x.toList : Loose ε α) = .ok (p.angleError x) := by
  simp only [angleErrorLoose, rotation_toList, ok_bind, pure_eq]
  rfl

@[simp] theorem stateCostLoose_toList (x : Vec α 3) :
    (p.stateCostLoose x.toList : Loose ε α) = .ok (p.stateCost x) := by
  simp only [stateCostLoose, angleErrorLoose_toList, ok_bind, pure_eq,
    entry_toList_of_lt x (show 2 < 3 by omega)]
  rfl

theorem evaluateLoose_toList (x : Vec α 3) : ∀ u : Option (Vec α 1),
    (p.evaluateLoose x.toList (u.map Vec.toList) : Loose ε _) = .ok (p.evaluate x u).toLoose
  | some u => by
    simp (disch := omega) only [evaluateLoose, Option.map_some, entry_toList_of_lt, rotation_toList,
      integrate_pair, stateCostLoose_toList, ok_bind, pure_eq]
    rfl
  | none => by
    simp only [evaluateLoose, Option.map_none, stateCostLoose_toList, ok_bind, pure_eq]
    rfl

theorem expandLoose_toList (x : Vec α 3) : ∀ u : Option (Vec α 1),
    (p.expandLoose x.toList (u.map Vec.toList) : Loose ε _) = .ok (p.expand x u).toLoose
  | some u => by
    simp (disch := omega) only [expandLoose, Option.map_some, angleErrorLoose_toList,
      rotation_toList, entry_toList_of_lt, ok_bind, pure_eq, ofRows_two, ofRows_column, ofRows_one]
    rfl
  | none => by
    simp only [expandLoose, Option.map_none, angleErrorLoose_toList, ok_bind, pure_eq, zeros_eq,
      entry_toList_of_lt x (show 2 < 3 by omega)]
    rfl

end Pendulum

/-! ## Integrators -/

namespace Integrator

variable (p : Integrator α nx nu)

def evaluateLoose (x : List α) (u : Option (List α)) : Loose ε (LooseEvaluation α) := do
  let next ← match u with
    | some u => add (← add x (← mulVec (.ofMat p.b) u)) (List.replicate nx p.c)
    | none => pure x
  return { cost := 0.5 * normSq x, next }

def expandLoose (x : List α) : LooseExpansion α where
  fx := identity nx
  fu := .ofMat p.b
  lx := x
  lu := zeros nu
  lxx := .ofMat (p.stateHessian nx)
  luu := zeroMat nu nu
  lxu := zeroMat nx nu

theorem evaluateLoose_toList (x : Vec α nx) : ∀ u : Option (Vec α nu),
    (p.evaluateLoose x.toList (u.map Vec.toList) : Loose ε _) = .ok (p.evaluate x u).toLoose
  | some u => by
    simp only [evaluateLoose, Option.map_some, ← Vec.toList_replicate, mulVec_ofMat, add_toList,
      ok_bind, pure_eq, normSq_toList]
    rfl
  | none => by
    simp only [evaluateLoose, Option.map_none, ok_bind, pure_eq, normSq_toList]
    rfl

theorem expandLoose_toList (x : Vec α nx) : p.expandLoose x.toList = (p.expand x).toLoose := by
  simp only [expandLoose, zeros_eq]
  rfl

end Integrator

/-! ## Models from outside -/

/-- A function of state and control, applied to lists. Nothing is known of it but that these have to
be of the right sizes. -/
def CustomModel.onLists {s : StateSpace} {β : Type} (f : Vec α s.nx → Option (Vec α nu) → β)
    (x : List α) (u : Option (List α)) : Loose ε β := do
  let x ← ofOption (Vec.ofList? x)
  match u with
  | some u => return f x (some (← ofOption (Vec.ofList? u)))
  | none => return f x none

omit [Scalar α] in
theorem CustomModel.onLists_toList {s : StateSpace} {β : Type}
    (f : Vec α s.nx → Option (Vec α nu) → β) (x : Vec α s.nx) : ∀ u : Option (Vec α nu),
    (onLists f x.toList (u.map Vec.toList) : Loose ε β) = .ok (f x u)
  | some u => by simp only [onLists, Option.map_some, Vec.ofList?_toList]; rfl
  | none => by simp only [onLists, Option.map_none, Vec.ofList?_toList]; rfl

/-! ## Models -/

namespace Model

variable {s : StateSpace}

/-- Next state and cost of a model that computes them itself. -/
def formulasLoose : {s : StateSpace} → {nu : Nat} → Model α s nu → List α → Option (List α) →
    Loose ε (LooseEvaluation α)
  | _, _, lqr p, x, u => p.evaluateLoose x u
  | _, _, unicycle p, x, u => p.evaluateLoose x u
  | _, _, pendulum p, x, u => p.evaluateLoose x u
  | _, _, integrator p, x, u => p.evaluateLoose x u
  | _, _, differenced _ inner, x, u => inner.formulasLoose x u
  | _, _, custom c, x, u => CustomModel.onLists (fun x u => (c.evaluate x u).toLoose) x u

/-- Next state and cost, after the model that computes them has checked its arguments. -/
def evaluateLoose (m : Model α s nu) (x : List α) (u : Option (List α)) :
    Loose (ProblemError α) (LooseEvaluation α) := do
  sized (m.evaluator.check x u)
  m.formulasLoose x u

/-- Derivatives by the formulas of a model, or by finite differences. -/
def derivativesLoose : {s : StateSpace} → {nu : Nat} → Model α s nu → List α → Option (List α) →
    Loose (ProblemError α) (LooseExpansion α)
  | _, _, lqr p, x, u => p.expandLoose x u
  | _, _, unicycle p, x, u => p.expandLoose x u
  | _, _, pendulum p, x, u => p.expandLoose x u
  | _, _, integrator p, x, _ => pure (p.expandLoose x)
  | s, nu, differenced d inner, x, u => d.expandLoose s nu inner.evaluateLoose x u
  | _, _, custom c, x, u => CustomModel.onLists (fun x u => (c.expand x u).toLoose) x u

/-- Derivatives, after the model has checked its arguments. -/
def expandLoose (m : Model α s nu) (x : List α) (u : Option (List α)) :
    Loose (ProblemError α) (LooseExpansion α) := do
  sized (m.check x u)
  m.derivativesLoose x u

omit [Scalar α] in
theorem check_toList (m : Model α s nu) (x : Vec α s.nx) (u : Option (Vec α nu)) :
    m.check x.toList (u.map Vec.toList) = .ok () := by
  cases u <;> simp [check, arguments?, state?, control?] <;> rfl

theorem formulasLoose_toList {s : StateSpace} {nu : Nat} (m : Model α s nu) (x : Vec α s.nx)
    (u : Option (Vec α nu)) :
    (m.formulasLoose x.toList (u.map Vec.toList) : Loose ε _) = .ok (m.evaluate x u).toLoose := by
  induction m with
  | lqr p => exact p.evaluateLoose_toList x u
  | unicycle p => exact p.evaluateLoose_toList x u
  | pendulum p => exact p.evaluateLoose_toList x u
  | integrator p => exact p.evaluateLoose_toList x u
  | differenced d inner ih => exact ih x u
  | custom c => exact CustomModel.onLists_toList _ x u

/-- Arguments of the right sizes do not clash in any model. -/
theorem evaluateLoose_toList (m : Model α s nu) (x : Vec α s.nx) (u : Option (Vec α nu)) :
    m.evaluateLoose x.toList (u.map Vec.toList) = .ok (m.evaluate x u).toLoose := by
  rw [evaluateLoose, check_toList, sized_ok, ok_bind]
  exact m.formulasLoose_toList x u

theorem expandLoose_toList (m : Model α s nu) (x : Vec α s.nx) (u : Option (Vec α nu)) :
    m.expandLoose x.toList (u.map Vec.toList) = .ok (m.expand x u).toLoose := by
  rw [expandLoose, check_toList, sized_ok, ok_bind]
  cases m with
  | lqr p => exact p.expandLoose_toList x u
  | unicycle p => exact p.expandLoose_toList x u
  | pendulum p => exact p.expandLoose_toList x u
  | integrator p => exact congrArg Except.ok (p.expandLoose_toList x)
  | differenced d inner => exact Differencing.expandLoose_toList inner.evaluateLoose_toList d x u
  | custom c => exact CustomModel.onLists_toList (fun x u => (c.expand x u).toLoose) x u

end Model

/-! ## Quasi-static controls -/

section

variable [PseudoInverting α]

omit [Scalar α]

/-- The pseudo-inverse, or what is said instead. -/
def Loose.pseudoInverse (a : Table α) (threshold : α) : Except (Refusal String) (Table α) :=
  (PseudoInverting.pseudoInverse a.toMat threshold).map .ofMat

theorem Loose.pseudoInverse_ofMat {m n : Nat} (a : Mat α m n) (threshold : α) :
    pseudoInverse (.ofMat a) threshold =
      (PseudoInverting.pseudoInverse a threshold).map .ofMat :=
  congrArg (fun b : Mat α m n => (PseudoInverting.pseudoInverse b threshold).map Table.ofMat)
    (Table.toMat_ofMat a)

end

omit [Scalar α] in
/-- The same expansion with the control terms of the cost taken from another one. -/
def LooseExpansion.withControlCostOf (e old : LooseExpansion α) : LooseExpansion α :=
  { e with lu := old.lu, luu := old.luu, lxu := old.lxu }

namespace Model

variable {s : StateSpace}

/-- Writes an evaluation and an expansion over the data of a stage. -/
def measureLoose (m : Model α s nu) (d : LooseData α) (x u : List α) :
    Loose (ProblemError α) (LooseData α) := do
  let eval ← m.evaluateLoose x (some u)
  let e ← m.expandLoose x (some u)
  return ⟨eval, if m.expandsControlCost then e else e.withControlCostOf d.expansion⟩

variable [PseudoInverting α]

/-- The search for a quasi-static control from `u` on, in the data of a stage. -/
def newtonLoose (m : Model α s nu) (x : List α) (tol : α) :
    Nat → List α → LooseData α →
      Loose (ProblemError α) (LooseData α × Except QuasiStaticFailure (List α))
  | 0, _, d => return (d, .error .exhausted)
  | k + 1, u, d => do
    let d ← m.measureLoose d x u
    let drift ← diff s x d.eval.next
    match Loose.pseudoInverse d.expansion.fu 1e-12 with
    | .error refusal => return (d, .error (.noPseudoInverse refusal))
    | .ok inverse =>
      let du := neg (← mulVec inverse drift)
      let u ← add u du
      if !u.all Scalar.isFinite then return (d, .error .diverged)
      else if norm du ≤ tol then return (d, .ok u)
      else m.newtonLoose x tol k u d

/-- The control that keeps `x` where it is, and the data that the search for it leaves. -/
def quasiStaticLoose (m : Model α s nu) (d : LooseData α) (x : List α) (maxIter : Nat) (tol : α) :
    Loose (ProblemError α) (LooseData α × Except QuasiStaticFailure (List α)) :=
  if !m.hasQuasiStatic then return (d, .error .unsupported)
  else if nu = 0 then return (d, .ok (zeros nu))
  else m.evaluator.newtonLoose x tol maxIter (zeros nu) d

omit [PseudoInverting α]

/-- What a step of a search makes of the data `old` of a stage. -/
def writeOver (m : Model α s nu) (old d : StageData α s.nx s.ndx nu) : StageData α s.nx s.ndx nu :=
  if m.expandsControlCost then d
  else { d with expansion := d.expansion.withControlCostOf old.expansion }

theorem measureLoose_toList (m : Model α s nu) (d : StageData α s.nx s.ndx nu) (x : Vec α s.nx)
    (u : Vec α nu) :
    m.measureLoose d.toLoose x.toList u.toList =
      .ok (m.writeOver d (m.measure x (some u))).toLoose := by
  have heval := m.evaluateLoose_toList x (some u)
  have hexpand := m.expandLoose_toList x (some u)
  rw [Option.map_some] at heval hexpand
  rw [measureLoose, heval, hexpand, writeOver]
  cases m.expandsControlCost <;> rfl

omit [Scalar α] in
/-- Writing over what a search wrote over the old data is writing over the old data. -/
theorem writeOver_writeOver (m : Model α s nu) (old d d' : StageData α s.nx s.ndx nu) :
    m.writeOver (m.writeOver old d) d' = m.writeOver old d' := by
  unfold writeOver
  cases m.expandsControlCost <;> rfl

variable [PseudoInverting α]

theorem newtonLoose_toList (m : Model α s nu) (x : Vec α s.nx) (tol : α)
    (old : StageData α s.nx s.ndx nu) (k : Nat) (u : Vec α nu)
    (left : Option (StageData α s.nx s.ndx nu)) :
    m.newtonLoose x.toList tol k u.toList (left.elim old (m.writeOver old)).toLoose =
      .ok (((m.newton x tol k u left).left.elim old (m.writeOver old)).toLoose,
        (m.newton x tol k u left).outcome.map Vec.toList) := by
  induction k generalizing u left with
  | zero => rfl
  | succ k ih =>
    have hover : m.writeOver (left.elim old (m.writeOver old)) (m.measure x (some u)) =
        m.writeOver old (m.measure x (some u)) := by
      cases left with
      | none => rfl
      | some d => exact m.writeOver_writeOver old d _
    have hnext : (m.writeOver old (m.measure x (some u))).eval =
        (m.measure x (some u)).eval := by
      unfold writeOver
      cases m.expandsControlCost <;> rfl
    have hfu : (m.writeOver old (m.measure x (some u))).toLoose.expansion.fu =
        .ofMat (m.measure x (some u)).expansion.fu := by
      unfold writeOver
      cases m.expandsControlCost <;> rfl
    have hdrift : (diff s x.toList (m.writeOver old (m.measure x (some u))).toLoose.eval.next :
        Loose (ProblemError α) _) = .ok (s.diff x (m.measure x (some u)).eval.next).toList := by
      rw [← hnext]
      exact diff_toList s x _
    rw [newtonLoose, measureLoose_toList, hover, ok_bind, hdrift, ok_bind, hfu,
      Loose.pseudoInverse_ofMat, newton]
    unfold newtonStep?
    cases PseudoInverting.pseudoInverse (m.measure x (some u)).expansion.fu 1e-12 with
    | error refusal => rfl
    | ok inverse =>
      simp only [Except.map, mulVec_ofMat, ok_bind, neg_toList, add_toList, norm_toList,
        Vec.all_toList]
      generalize -(inverse * s.diff x (m.measure x (some u)).eval.next) = du
      by_cases hinf : (!(u + du).isFinite) = true
      · rw [if_pos hinf, if_pos hinf]
        rfl
      rw [if_neg hinf, if_neg hinf]
      by_cases hsmall : du.norm ≤ tol
      · rw [if_pos hsmall, if_pos hsmall]
        rfl
      rw [if_neg hsmall, if_neg hsmall]
      exact ih (u + du) (some (m.measure x (some u)))

/-- A search on a state of the right size does not clash. -/
theorem quasiStaticLoose_toList (m : Model α s nu) (old : StageData α s.nx s.ndx nu)
    (x : Vec α s.nx) (maxIter : Nat) (tol : α) :
    m.quasiStaticLoose old.toLoose x.toList maxIter tol =
      .ok ((m.dataAfter (m.quasiStatic x maxIter tol) old).toLoose,
        (m.quasiStatic x maxIter tol).outcome.map Vec.toList) := by
  unfold quasiStaticLoose quasiStatic
  split
  next => rfl
  split
  next => rw [zeros_eq]; rfl
  have hdata (q : QuasiStatic α s nu) :
      m.dataAfter q old = q.left.elim old (m.evaluator.writeOver old) := by
    unfold dataAfter
    cases q.left <;> rfl
  rw [hdata, zeros_eq]
  exact m.evaluator.newtonLoose_toList x tol old maxIter 0 none

end Model

end Shooting
