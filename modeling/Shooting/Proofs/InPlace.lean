import Shooting.Proofs.Checked
import Shooting.Error.Basic

/-!
# Rollouts in place

`Problem.rollout?` checks its controls, computes a path and answers it together with the problem as
it is then. Where problems are kept in memory, a rollout writes into the stages as it goes: each of
them checks its arguments anew, is evaluated, and stays evaluated even if a later one refuses. This
module states that rollout (`Problem.rolloutInPlace`), over lists and with all its checks, and
proves that the difference cannot be seen: once the controls have passed, no stage refuses anything
(`Problem.run_rolloutInPlace`).
-/

namespace Shooting

/-- An operation that changes a problem as it goes. It may fail with an error, and then what it has
changed stays changed. -/
abbrev InPlace (α : Type) (s : StateSpace) (nus : List Nat) (β : Type) : Type :=
  EStateM (Error α) (Problem α s nus) β

namespace InPlace

variable {ε σ β γ : Type} {op : EStateM ε σ β} {p p' : σ}

/-- What the first of two operations leaves is what the second one starts from. -/
theorem run_bind (next : β → EStateM ε σ γ) {b : β} (h : op p = .ok b p') :
    (op >>= next) p = next b p' := by
  show EStateM.bind op next p = _
  unfold EStateM.bind
  rw [h]

/-- An operation that fails is the last one. -/
theorem run_bind_error (next : β → EStateM ε σ γ) {e : ε} (h : op p = .error e p') :
    (op >>= next) p = .error e p' := by
  show EStateM.bind op next p = _
  unfold EStateM.bind
  rw [h]

theorem run_map (f : β → γ) {b : β} (h : op p = .ok b p') : (f <$> op) p = .ok (f b) p' := by
  show EStateM.map f op p = _
  unfold EStateM.map
  rw [h]

theorem run_map_error (f : β → γ) {e : ε} (h : op p = .error e p') :
    (f <$> op) p = .error e p' := by
  show EStateM.map f op p = _
  unfold EStateM.map
  rw [h]

theorem run_get_bind (next : σ → EStateM ε σ γ) (p : σ) : (get >>= next) p = next p p := rfl

theorem run_modify_bind (f : σ → σ) (next : Unit → EStateM ε σ γ) (p : σ) :
    (modify f >>= next) p = next () (f p) := rfl

end InPlace

namespace Problem

variable {α : Type} {s : StateSpace} {nus : List Nat}

/-- What passes a check of sizes. -/
def InPlace.sized {β : Type} : Except SizeFault β → InPlace α s nus β
  | .ok b => pure b
  | .error fault => throw (.problem (.dimensionMismatch fault))

theorem InPlace.run_sized {β : Type} {x : Except SizeFault β} {b : β} (h : x = .ok b)
    (p : Problem α s nus) : InPlace.sized x p = .ok b p := by
  rw [h]
  rfl

theorem InPlace.run_sized_error {β : Type} {x : Except SizeFault β} {fault : SizeFault}
    (h : x = .error fault) (p : Problem α s nus) :
    InPlace.sized x p = .error (.problem (.dimensionMismatch fault)) p := by
  rw [h]
  rfl

variable [Scalar α]

/-- Evaluates running stage `t` and answers the state it leads to. -/
def evaluateStageInPlace (t : Nat) (x u : List α) : InPlace α s nus (List α) := do
  match (← get).evaluateStage? t x u with
  | .ok (p, e) =>
    set p
    return e.next.toList
  | .error e => throw (.problem e)

/-- Evaluates the last stage. -/
def evaluateTerminalInPlace (x : List α) : InPlace α s nus Unit := do
  let (p, _) ← InPlace.sized ((← get).evaluateTerminal? x)
  set p

/-- Applies controls one after the other, from the state `x` of stage `t` on. -/
def rolloutStagesInPlace : (t : Nat) → (x : List α) → (us : List (List α)) →
    InPlace α s nus (List (List α))
  | _, x, [] => do
    evaluateTerminalInPlace x
    return [x]
  | t, x, u :: us => do
    let next ← evaluateStageInPlace t x u
    let xs ← rolloutStagesInPlace (t + 1) next us
    return x :: xs

/-- Applies controls from the initial state on and answers the states on the way. -/
def rolloutInPlace (us : List (List α)) : InPlace α s nus (List (List α)) := do
  let p ← get
  let _ ← InPlace.sized (p.controls? us)
  rolloutStagesInPlace 0 p.start.toList us

/-! ## One stage -/

/-- The first stage does not refuse a state and a control of its sizes. -/
theorem evaluateStage?_zero (start x : Vec α s.nx) {nu : Nat} (u : Vec α nu) (st : Stage α s nu)
    (rest : Stages α s nus) :
    (⟨start, .stage st rest⟩ : Problem α s (nu :: nus)).evaluateStage? 0 x.toList u.toList =
      .ok (⟨start, .stage (st.evaluate x u) rest⟩, st.model.evaluate x (some u)) := by
  unfold evaluateStage?
  simp only [Horizon.visit, Model.state?_toList, Model.control?_toList]
  rfl

/-- What a stage does not refuse, it does not refuse with one more stage before it. -/
theorem evaluateStage?_succ {start : Vec α s.nx} {nu t : Nat} {x u : List α} (st : Stage α s nu)
    {rest : Stages α s nus} {p' : Problem α s nus} {e : Evaluation α s.nx}
    (h : (⟨start, rest⟩ : Problem α s nus).evaluateStage? t x u = .ok (p', e)) :
    (⟨start, .stage st rest⟩ : Problem α s (nu :: nus)).evaluateStage? (t + 1) x u =
      .ok (⟨start, .stage st p'.stages⟩, e) := by
  unfold evaluateStage? at h ⊢
  simp only [Horizon.visit] at h ⊢
  split at h
  next => cases h
  next => cases h
  next stages' e' hvisit =>
    cases h
    rw [hvisit]

/-- The last stage does not refuse a state of its size. -/
theorem evaluateTerminal?_toList (p : Problem α s nus) (x : Vec α s.nx) :
    p.evaluateTerminal? x.toList =
      .ok ({ p with stages := p.stages.setFinal (p.stages.final.evaluate x) },
        p.stages.final.model.evaluate x none) := by
  unfold evaluateTerminal?
  dsimp only
  rw [Model.state?_toList]
  rfl

/-! ## All stages -/

theorem run_evaluateStageInPlace {p p' : Problem α s nus} {t : Nat} {x u : List α}
    {e : Evaluation α s.nx} (h : p.evaluateStage? t x u = .ok (p', e)) :
    evaluateStageInPlace t x u p = .ok e.next.toList p' := by
  show (match p.evaluateStage? t x u with
    | .ok (p, e) => (do set p; return e.next.toList : InPlace α s nus (List α))
    | .error e => throw (Error.problem e)) p = _
  rw [h]
  rfl

theorem run_evaluateTerminalInPlace (p : Problem α s nus) (x : Vec α s.nx) :
    evaluateTerminalInPlace x.toList p =
      .ok () { p with stages := p.stages.setFinal (p.stages.final.evaluate x) } := by
  have hsized := InPlace.run_sized (evaluateTerminal?_toList p x) p
  exact InPlace.run_bind (fun (p, _) => set p) hsized

/-- Stages number `t` and later, with those before them put in front by `wrap`. -/
structure Follows {nus' : List Nat} (start : Vec α s.nx) (t : Nat)
    (wrap : Stages α s nus → Stages α s nus') : Prop where
  stage : ∀ {k : Nat} {x u : List α} {rest rest' : Stages α s nus} {e : Evaluation α s.nx},
    (⟨start, rest⟩ : Problem α s nus).evaluateStage? k x u = .ok (⟨start, rest'⟩, e) →
      (⟨start, wrap rest⟩ : Problem α s nus').evaluateStage? (t + k) x u =
        .ok (⟨start, wrap rest'⟩, e)
  final : ∀ rest, (wrap rest).final = rest.final
  setFinal : ∀ rest st, (wrap rest).setFinal st = wrap (rest.setFinal st)

/-- A stage that has been evaluated is one more stage in front. -/
theorem Follows.push {nus' : List Nat} {start : Vec α s.nx} {t nu : Nat}
    {wrap : Stages α s (nu :: nus) → Stages α s nus'} (h : Follows start t wrap)
    (st : Stage α s nu) : Follows start (t + 1) fun rest => wrap (.stage st rest) := by
  refine ⟨?_, fun rest => h.final _, fun rest st' => h.setFinal _ st'⟩
  intro k x u rest rest' e hstage
  rw [Nat.add_assoc, Nat.add_comm 1 k]
  exact h.stage (evaluateStage?_succ st hstage)

/-- **No stage refuses controls of the right sizes.** The induction is over the stages that are
left; those in front have been evaluated. -/
theorem run_rolloutStagesInPlace {nus' : List Nat} (start : Vec α s.nx) : ∀ {nus : List Nat}
    {t : Nat} {wrap : Stages α s nus → Stages α s nus'}, Follows start t wrap →
    ∀ (x : Vec α s.nx) (stages : Stages α s nus) (us : Controls α nus),
      rolloutStagesInPlace t x.toList (us.running Vec.toList) ⟨start, wrap stages⟩ =
        .ok ((Stages.rolloutFrom x stages us).2.toList (fun k => k.state.toList) Vec.toList)
          ⟨start, wrap (Stages.rolloutFrom x stages us).1⟩
  | [], t, wrap, h, x, .last st, .last () => by
    have hterminal := run_evaluateTerminalInPlace (⟨start, wrap (.last st)⟩ : Problem α s nus') x
    dsimp only at hterminal
    rw [h.final, h.setFinal] at hterminal
    exact InPlace.run_bind _ hterminal
  | nu :: nus, t, wrap, h, x, .stage st rest, .stage u us => by
    have hstage := run_evaluateStageInPlace (h.stage (evaluateStage?_zero start x u st rest))
    have hrest := run_rolloutStagesInPlace start (h.push (st.evaluate x u))
      (st.evaluate x u).data.eval.next rest us
    exact (InPlace.run_bind _ hstage).trans (InPlace.run_bind _ hrest)

/-- **A rollout in place is a rollout.** Either the controls do not fit, and nothing is changed, or
no stage refuses anything. -/
theorem run_rolloutInPlace (p : Problem α s nus) (us : List (List α)) :
    rolloutInPlace us p =
      match p.rollout? us with
      | .ok (p', path) => .ok path.toTrajectory.states p'
      | .error fault => .error (.problem (.dimensionMismatch fault)) p := by
  unfold rollout?
  cases hcontrols : p.controls? us with
  | error fault =>
    exact InPlace.run_bind_error (fun _ => rolloutStagesInPlace 0 p.start.toList us)
      (InPlace.run_sized_error hcontrols p)
  | ok vs =>
    have hwhole : Follows p.start 0 (id : Stages α s nus → Stages α s nus) := by
      refine ⟨?_, fun _ => rfl, fun _ _ => rfl⟩
      intro k x u rest rest' e h
      rw [Nat.zero_add]
      exact h
    have hstages := run_rolloutStagesInPlace p.start hwhole p.start p.stages vs
    rw [running_of_controls? hcontrols] at hstages
    exact (InPlace.run_bind (fun _ => rolloutStagesInPlace 0 p.start.toList us)
      (InPlace.run_sized hcontrols p)).trans hstages

end Problem

end Shooting
