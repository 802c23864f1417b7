import Shooting.Proofs.Loose.Writing
import Shooting.Proofs.StrictModel
import Shooting.StageReport

/-!
# Filling the data of a stage

`AnyModel.evaluate` and `AnyModel.expand` find an evaluation or an expansion and put it in the place
of the old one. In memory a model is handed the data of its stage and writes one part after the
other, some of them twice. A part that it forgot would be left from an earlier call, and what it had
written before it refused would stay. Finite differences evaluate again and again into data of their
own (`aside`), which hold what the evaluation before left in them.

Here the models with formulas of their own are stated in this form. On states and controls that fit,
none of them leaves out a part: evaluating overwrites cost and next state and expanding all seven
derivatives, except that an integrator says nothing about the control terms of its cost.

Of what finite differences do aside it matters only how it ends. `Filling.Answers` says that this is
the same whatever the data were before, and is kept when operations are put together.
-/

namespace Shooting

/-- An operation on the data of a stage that writes as it goes. -/
abbrev Filling (α β : Type) : Type := EStateM (Refusal (ProblemError α)) (LooseData α) β

variable {α β γ : Type}

namespace InPlace

variable {ε σ : Type}

/-- What is found without writing anything. -/
def found : Except ε β → EStateM ε σ β
  | .ok b => pure b
  | .error e => throw e

@[simp] theorem found_ok (b : β) : (found (.ok b) : EStateM ε σ β) = pure b := rfl

theorem found_bind (x : Except ε β) (f : β → Except ε γ) :
    (found (x >>= f) : EStateM ε σ γ) = found x >>= fun b => found (f b) := by
  cases x <;> rfl

theorem run_found {x : Except ε β} {b : β} (h : x = .ok b) (p : σ) :
    (found x : EStateM ε σ β) p = .ok b p := by
  rw [h]
  rfl

theorem run_found_error {x : Except ε β} {e : ε} (h : x = .error e) (p : σ) :
    (found x : EStateM ε σ β) p = .error e p := by
  rw [h]
  rfl

end InPlace

open InPlace

namespace Filling

/-- Writes into the evaluation. -/
def inEval (f : LooseEvaluation α → LooseEvaluation α) : Filling α Unit :=
  modify fun d => { d with eval := f d.eval }

/-- Writes into the expansion. -/
def inExpansion (f : LooseExpansion α → LooseExpansion α) : Filling α Unit :=
  modify fun d => { d with expansion := f d.expansion }

/-- Works on other data, which nobody sees afterwards. -/
def aside (scratch : LooseData α) (op : Filling α β) : Filling α β := fun d =>
  match op scratch with
  | .ok b _ => .ok b d
  | .error refusal _ => .error refusal d

/-- Evaluates into the data, and answers the evaluation that is there then. -/
def probe (evaluate : List α → Option (List α) → Filling α Unit) (x : List α)
    (u : Option (List α)) : Filling α (LooseEvaluation α) := do
  evaluate x u
  return (← get).eval

/-! ## What the data do not matter for -/

/-- The operation ends as `x` does, whatever data it starts with. What it leaves in them is not
looked at. -/
def Answers (op : Filling α β) (x : Loose (ProblemError α) β) : Prop :=
  ∀ d, ∃ d', op d = match x with
    | .ok b => .ok b d'
    | .error refusal => .error refusal d'

theorem answers_found (x : Loose (ProblemError α) β) : Answers (found x) x := by
  intro d
  refine ⟨d, ?_⟩
  cases x <;> rfl

theorem answers_pure (b : β) : Answers (pure b : Filling α β) (.ok b) := fun d => ⟨d, rfl⟩

theorem Answers.bind {op : Filling α β} {x : Loose (ProblemError α) β} {next : β → Filling α γ}
    {y : β → Loose (ProblemError α) γ} (h : Answers op x) (hnext : ∀ b, Answers (next b) (y b)) :
    Answers (op >>= next) (x >>= y) := by
  intro d
  obtain ⟨d₁, hop⟩ := h d
  cases x with
  | ok b =>
    obtain ⟨d₂, hrest⟩ := hnext b d₁
    exact ⟨d₂, (InPlace.run_bind next hop).trans hrest⟩
  | error refusal => exact ⟨d₁, InPlace.run_bind_error next hop⟩

theorem Answers.foldlM {step : γ → β → Filling α γ} {step' : γ → β → Loose (ProblemError α) γ}
    (h : ∀ c b, Answers (step c b) (step' c b)) (bs : List β) :
    ∀ c, Answers (bs.foldlM step c) (bs.foldlM step' c) := by
  induction bs with
  | nil => exact answers_pure
  | cons b bs ih =>
    intro c
    rw [List.foldlM_cons, List.foldlM_cons]
    exact (h c b).bind ih

/-- What is worked out aside leaves the data alone. -/
theorem Answers.run_aside {op : Filling α β} {x : Loose (ProblemError α) β} (h : Answers op x)
    (scratch d : LooseData α) : aside scratch op d = found x d := by
  obtain ⟨d', hop⟩ := h scratch
  unfold aside
  rw [hop]
  cases x <;> rfl

/-- The operation either refuses and leaves the data alone, or it writes the evaluation that is
found. -/
def Evaluates (op : Filling α Unit) (x : Loose (ProblemError α) (LooseEvaluation α)) : Prop :=
  ∀ d, op d = match x with
    | .ok eval => .ok () { d with eval }
    | .error refusal => .error refusal d

/-- An evaluation that is read where it was just written is that one. -/
theorem answers_probe {evaluate : List α → Option (List α) → Filling α Unit}
    {evaluateLoose : List α → Option (List α) → Loose (ProblemError α) (LooseEvaluation α)}
    (h : ∀ x u, Evaluates (evaluate x u) (evaluateLoose x u)) (x : List α) (u : Option (List α)) :
    Answers (probe evaluate x u) (evaluateLoose x u) := by
  intro d
  have hop := h x u d
  cases hx : evaluateLoose x u with
  | ok eval =>
    rw [hx] at hop
    exact ⟨{ d with eval }, InPlace.run_bind _ hop⟩
  | error refusal =>
    rw [hx] at hop
    exact ⟨d, InPlace.run_bind_error _ hop⟩

end Filling

open Filling

variable [Scalar α] {nx nu : Nat} {s : StateSpace}

/-! ## Linear-quadratic stages -/

namespace Lqr

variable (p : Lqr α nx nu)

def evaluateInPlace (x : List α) (u : Option (List α)) : Filling α Unit := do
  let stateCost ← found (p.stateCostLoose x)
  match u with
  | some u =>
    let next ← found do
      Loose.add (← Loose.add (← Loose.mulVec (.ofMat p.fx) x) (← Loose.mulVec (.ofMat p.fu) u))
        p.f0.toList
    inEval ({ · with next })
    let cost ← found do
      return stateCost + 0.5 * (← Loose.dot u (← Loose.mulVec (.ofMat p.luu) u)) +
        (← Loose.dot x (← Loose.mulVec (.ofMat p.lxu) u)) + (← Loose.dot p.lu.toList u)
    inEval ({ · with cost })
  | none =>
    inEval ({ · with next := x })
    inEval ({ · with cost := stateCost })

def expandInPlace (x : List α) (u : Option (List α)) : Filling α Unit := do
  inExpansion ({ · with lxx := .ofMat p.lxx })
  match u with
  | some u =>
    inExpansion ({ · with fx := .ofMat p.fx })
    inExpansion ({ · with fu := .ofMat p.fu })
    let lx ← found do
      Loose.add (← Loose.add (← Loose.mulVec (.ofMat p.lxx) x) (← Loose.mulVec (.ofMat p.lxu) u))
        p.lx.toList
    inExpansion ({ · with lx })
    let lu ← found do
      Loose.add (← Loose.add (← Loose.mulVec (.ofMat p.luu) u)
        (← Loose.mulVec (Loose.transpose (.ofMat p.lxu)) x)) p.lu.toList
    inExpansion ({ · with lu })
    inExpansion ({ · with luu := .ofMat p.luu })
    inExpansion ({ · with lxu := .ofMat p.lxu })
  | none =>
    let nx := x.length
    inExpansion ({ · with fx := Loose.identity nx })
    inExpansion ({ · with fu := Loose.zeroMat nx nu })
    let lx ← found do Loose.add (← Loose.mulVec (.ofMat p.lxx) x) p.lx.toList
    inExpansion ({ · with lx })
    inExpansion ({ · with lu := Loose.zeros nu })
    inExpansion ({ · with luu := Loose.zeroMat nu nu })
    inExpansion ({ · with lxu := Loose.zeroMat nx nu })

theorem run_evaluateInPlace (x : Vec α nx) (d : LooseData α) : ∀ u : Option (Vec α nu),
    p.evaluateInPlace x.toList (u.map Vec.toList) d =
      .ok () { d with eval := (p.evaluate x u).toLoose }
  | some u => by
    simp only [evaluateInPlace, stateCostLoose, Option.map_some, Loose.mulVec_ofMat,
      Loose.dot_toList, Loose.add_toList, Loose.ok_bind, Loose.pure_eq, found_ok, pure_bind]
    rfl
  | none => by
    simp only [evaluateInPlace, stateCostLoose, Option.map_none, Loose.mulVec_ofMat,
      Loose.dot_toList, Loose.ok_bind, Loose.pure_eq, found_ok, pure_bind]
    rfl

theorem run_expandInPlace (x : Vec α nx) (d : LooseData α) : ∀ u : Option (Vec α nu),
    p.expandInPlace x.toList (u.map Vec.toList) d =
      .ok () { d with expansion := (p.expand x u).toLoose }
  | some u => by
    simp only [expandInPlace, Option.map_some, Loose.transpose_ofMat, Loose.mulVec_ofMat,
      Loose.add_toList, Loose.ok_bind, found_ok, pure_bind]
    rfl
  | none => by
    simp only [expandInPlace, Option.map_none, Vec.length_toList, Loose.mulVec_ofMat,
      Loose.add_toList, Loose.ok_bind, found_ok, pure_bind, Loose.zeros_eq]
    rfl

end Lqr

/-! ## Unicycles -/

namespace Unicycle

variable (p : Unicycle α)

def evaluateInPlace (x : List α) (u : Option (List α)) : Filling α Unit := do
  let ws := p.stateWeight * p.stateWeight
  inEval ({ · with cost := 0.5 * ws * Loose.normSq x })
  match u with
  | some u =>
    let next ← found do
      let s := Scalar.sin (← Loose.entry x 2)
      let c := Scalar.cos (← Loose.entry x 2)
      return [(← Loose.entry x 0) + c * (← Loose.entry u 0) * p.dt,
        (← Loose.entry x 1) + s * (← Loose.entry u 0) * p.dt,
        (← Loose.entry x 2) + (← Loose.entry u 1) * p.dt]
    inEval ({ · with next })
    let wc := p.controlWeight * p.controlWeight
    inEval fun e => { e with cost := e.cost + 0.5 * wc * Loose.normSq u }
  | none => inEval ({ · with next := x })

def expandInPlace (x : List α) (u : Option (List α)) : Filling α Unit := do
  let ws := p.stateWeight * p.stateWeight
  inExpansion ({ · with lx := Loose.scale x ws })
  inExpansion ({ · with lxx := Loose.scaleMat (Loose.identity 3) ws })
  inExpansion ({ · with lxu := Loose.zeroMat 3 2 })
  match u with
  | some u =>
    let fx ← found do
      let s := Scalar.sin (← Loose.entry x 2)
      let c := Scalar.cos (← Loose.entry x 2)
      Loose.ofRows 3 3 [1, 0, -s * (← Loose.entry u 0) * p.dt,
        0, 1, c * (← Loose.entry u 0) * p.dt, 0, 0, 1]
    inExpansion ({ · with fx })
    let fu ← found do
      let s := Scalar.sin (← Loose.entry x 2)
      let c := Scalar.cos (← Loose.entry x 2)
      Loose.ofRows 3 2 [c * p.dt, 0, s * p.dt, 0, 0, p.dt]
    inExpansion ({ · with fu })
    let wc := p.controlWeight * p.controlWeight
    inExpansion ({ · with lu := Loose.scale u wc })
    inExpansion ({ · with luu := Loose.scaleMat (Loose.identity 2) wc })
  | none =>
    inExpansion ({ · with fx := Loose.identity 3 })
    inExpansion ({ · with fu := Loose.zeroMat 3 2 })
    inExpansion ({ · with lu := Loose.zeros 2 })
    inExpansion ({ · with luu := Loose.zeroMat 2 2 })

theorem run_evaluateInPlace (x : Vec α 3) (d : LooseData α) : ∀ u : Option (Vec α 2),
    p.evaluateInPlace x.toList (u.map Vec.toList) d =
      .ok () { d with eval := (p.evaluate x u).toLoose }
  | some u => by
    simp (disch := omega) only [evaluateInPlace, Option.map_some, Loose.normSq_toList,
      Loose.entry_toList_of_lt, Loose.ok_bind, Loose.pure_eq, found_ok, pure_bind]
    rfl
  | none => by
    simp only [evaluateInPlace, Option.map_none, Loose.normSq_toList]
    rfl

theorem run_expandInPlace (x : Vec α 3) (d : LooseData α) : ∀ u : Option (Vec α 2),
    p.expandInPlace x.toList (u.map Vec.toList) d =
      .ok () { d with expansion := (p.expand x u).toLoose }
  | some u => by
    simp (disch := omega) only [expandInPlace, Option.map_some, Loose.scale_toList, Loose.identity,
      Loose.scaleMat_ofMat, Loose.entry_toList_of_lt, Loose.ok_bind, p.ofRows_fx x u,
      p.ofRows_fu x u, found_ok, pure_bind]
    rfl
  | none => by
    simp only [expandInPlace, Option.map_none, Loose.zeros_eq, Loose.identity,
      Loose.scaleMat_ofMat, Loose.scale_toList]
    rfl

end Unicycle

/-! ## Pendulums -/

namespace Pendulum

variable (p : Pendulum α)

def evaluateInPlace (x : List α) (u : Option (List α)) : Filling α Unit := do
  let cost ← found (p.stateCostLoose x)
  inEval ({ · with cost })
  match u with
  | some u =>
    let τ ← found (Loose.entry u 0)
    let next ← found do
      let ω ← Loose.entry x 2
      let a := p.acceleration (← Loose.rotation x).im ω τ
      Loose.integrate .revolute x [(ω + a * p.dt) * p.dt, a * p.dt]
    inEval ({ · with next })
    inEval fun e => { e with cost := e.cost + 0.5 * p.torqueWeight * τ * τ }
  | none => inEval ({ · with next := x })

def expandInPlace (x : List α) (u : Option (List α)) : Filling α Unit := do
  let lx ← found do
    return [p.angleWeight * (← p.angleErrorLoose x), p.velocityWeight * (← Loose.entry x 2)]
  inExpansion ({ · with lx })
  inExpansion ({ · with lxx := Loose.diagonal [p.angleWeight, p.velocityWeight] })
  inExpansion ({ · with lxu := Loose.zeroMat 2 1 })
  match u with
  | some u =>
    let dt := p.dt
    let daω := -p.damping / p.inertia
    let daτ := 1 / p.inertia
    let fx ← found do
      let daθ := -p.gravity * (← Loose.rotation x).re / p.length
      Loose.ofRows 2 2 [1 + daθ * dt * dt, dt + daω * dt * dt, daθ * dt, 1 + daω * dt]
    inExpansion ({ · with fx })
    let fu ← found (Loose.ofRows 2 1 [daτ * dt * dt, daτ * dt])
    inExpansion ({ · with fu })
    let lu ← found do return [p.torqueWeight * (← Loose.entry u 0)]
    inExpansion ({ · with lu })
    let luu ← found (Loose.ofRows 1 1 [p.torqueWeight])
    inExpansion ({ · with luu })
  | none =>
    inExpansion ({ · with fx := Loose.identity 2 })
    inExpansion ({ · with fu := Loose.zeroMat 2 1 })
    inExpansion ({ · with lu := Loose.zeros 1 })
    inExpansion ({ · with luu := Loose.zeroMat 1 1 })

theorem run_evaluateInPlace (x : Vec α 3) (d : LooseData α) : ∀ u : Option (Vec α 1),
    p.evaluateInPlace x.toList (u.map Vec.toList) d =
      .ok () { d with eval := (p.evaluate x u).toLoose }
  | some u => by
    simp (disch := omega) only [evaluateInPlace, Option.map_some, stateCostLoose_toList,
      Loose.rotation_toList, Loose.entry_toList_of_lt, integrate_pair, Loose.ok_bind, found_ok,
      pure_bind]
    rfl
  | none => by
    simp only [evaluateInPlace, Option.map_none, stateCostLoose_toList, found_ok, pure_bind]
    rfl

theorem run_expandInPlace (x : Vec α 3) (d : LooseData α) : ∀ u : Option (Vec α 1),
    p.expandInPlace x.toList (u.map Vec.toList) d =
      .ok () { d with expansion := (p.expand x u).toLoose }
  | some u => by
    simp (disch := omega) only [expandInPlace, Option.map_some, angleErrorLoose_toList,
      Loose.rotation_toList, Loose.entry_toList_of_lt, Loose.ofRows_two, Loose.ofRows_column,
      Loose.ofRows_one, Loose.ok_bind, Loose.pure_eq, found_ok, pure_bind]
    rfl
  | none => by
    simp (disch := omega) only [expandInPlace, Option.map_none, angleErrorLoose_toList,
      Loose.entry_toList_of_lt, Loose.ok_bind, Loose.pure_eq, found_ok, pure_bind, Loose.zeros_eq]
    rfl

end Pendulum

/-! ## Integrators -/

namespace Integrator

variable (p : Integrator α nx nu)

def evaluateInPlace (x : List α) (u : Option (List α)) : Filling α Unit := do
  let next ← match u with
    | some u => found do
      Loose.add (← Loose.add x (← Loose.mulVec (.ofMat p.b) u)) (List.replicate nx p.c)
    | none => pure x
  inEval ({ · with next })
  inEval ({ · with cost := 0.5 * Loose.normSq x })

/-- Says nothing about the control terms of the cost. -/
def expandInPlace (x : List α) : Filling α Unit := do
  let n := x.length
  inExpansion ({ · with fx := Loose.identity n })
  inExpansion ({ · with fu := .ofMat p.b })
  inExpansion ({ · with lx := x })
  inExpansion ({ · with lxx := .ofMat (p.stateHessian n) })

theorem run_evaluateInPlace (x : Vec α nx) (d : LooseData α) : ∀ u : Option (Vec α nu),
    p.evaluateInPlace x.toList (u.map Vec.toList) d =
      .ok () { d with eval := (p.evaluate x u).toLoose }
  | some u => by
    simp only [evaluateInPlace, Option.map_some, ← Vec.toList_replicate, Loose.mulVec_ofMat,
      Loose.add_toList, Loose.ok_bind, found_ok, pure_bind, Loose.normSq_toList]
    rfl
  | none => by
    simp only [evaluateInPlace, Option.map_none, pure_bind, Loose.normSq_toList]
    rfl

end Integrator

/-! ## Models from outside -/

namespace CustomModel

variable (c : CustomModel α s nu)

def evaluateInPlace (x : List α) (u : Option (List α)) : Filling α Unit := do
  let eval ← found (onLists (fun x u => (c.evaluate x u).toLoose) x u)
  inEval fun _ => eval

def expandInPlace (x : List α) (u : Option (List α)) : Filling α Unit := do
  let expansion ← found (onLists (fun x u => (c.expand x u).toLoose) x u)
  inExpansion fun _ => expansion

omit [Scalar α] in
theorem run_evaluateInPlace (x : Vec α s.nx) (d : LooseData α) (u : Option (Vec α nu)) :
    c.evaluateInPlace x.toList (u.map Vec.toList) d =
      .ok () { d with eval := (c.evaluate x u).toLoose } :=
  InPlace.run_bind _ (run_found (onLists_toList _ x u) d)

end CustomModel

end Shooting
