import Shooting.Proofs.Checked
import Shooting.Proofs.Loose.Models

/-!
# Problems in memory

A problem as it is kept in memory: its models and the data of its stages in two lists, with those of
the last stage next to them. Nothing in the type of a `LooseProblem` says that the two lists are of
one length, that the data of a stage have the sizes of its model, or that the states of one stage
are states of the next. `LooseProblem.new` looks at the last of these once, when a problem is made.

`Problem.toLoose` forgets the sizes of a problem. What a problem in memory does is then what the
problem does: it accepts the same models and the same trajectories (`new_eq`,
`checkTrajectory_toLoose`), and finds the same costs, derivatives and gaps (`evaluate_toLoose`,
`expand_toLoose`, `gaps_toLoose`).
-/

namespace Shooting

variable {α : Type}

theorem Horizon.map_running {F : Nat → Type} {G β γ : Type} (r : ∀ {nu}, F nu → β) (f : β → γ) :
    ∀ {nus : List Nat} (h : Horizon F G nus), (h.running r).map f = h.running fun a => f (r a)
  | _, last _ => rfl
  | _, stage _ rest => congrArg (_ :: ·) (map_running r f rest)

/-- What the values of the stages say, if that depends on the numbers of controls only. -/
theorem Horizon.running_eq_map {F : Nat → Type} {G β : Type} (r : ∀ {nu}, F nu → β)
    (size : Nat → β) (hsize : ∀ {nu} (a : F nu), r a = size nu) : ∀ {nus : List Nat}
    (h : Horizon F G nus), h.running r = nus.map size
  | _, last _ => rfl
  | _, stage a rest => congrArg₂ List.cons (hsize a) (running_eq_map r size hsize rest)

/-! ## Stages -/

/-- The model of a stage and its data. -/
structure LooseStage (α : Type) where
  model : AnyModel α
  data : LooseData α

variable {s : StateSpace} {nu : Nat} {nus : List Nat}

def Stage.toLoose (st : Stage α s nu) : LooseStage α := ⟨⟨s, nu, st.model⟩, st.data.toLoose⟩

def TerminalStage.toLoose (st : TerminalStage α s) : LooseStage α :=
  ⟨⟨s, st.nu, st.model⟩, st.data.toLoose⟩

/-- The running stages in order. -/
def Stages.toLoose (stages : Stages α s nus) : List (LooseStage α) := stages.running Stage.toLoose

@[simp] theorem Stages.length_toLoose (stages : Stages α s nus) :
    stages.toLoose.length = nus.length := stages.length_running _

theorem Stages.toLoose_stage (st : Stage α s nu) (rest : Stages α s nus) :
    Stages.toLoose (.stage st rest) = st.toLoose :: rest.toLoose := rfl

theorem Path.states_stage (k : Knot α s nu) (ks : Path α s nus) :
    (Path.toTrajectory (.stage k ks)).states = k.state.toList :: ks.toTrajectory.states := rfl

theorem Path.controls_stage (k : Knot α s nu) (ks : Path α s nus) :
    (Path.toTrajectory (.stage k ks)).controls = k.control.toList :: ks.toTrajectory.controls := rfl

variable [Scalar α]

/-- A stage that was never evaluated. -/
def LooseStage.fresh (m : AnyModel α) : LooseStage α := ⟨m, .new m.space.nx m.space.ndx m.nu⟩

namespace AnyModel

/-- Evaluates a stage, whose expansion stays. -/
def evaluate (m : AnyModel α) (d : LooseData α) (x : List α) (u : Option (List α)) :
    Loose (ProblemError α) (LooseData α) := do
  return { d with eval := ← m.model.evaluateLoose x u }

/-- Expands a stage, whose evaluation stays. -/
def expand (m : AnyModel α) (d : LooseData α) (x : List α) (u : Option (List α)) :
    Loose (ProblemError α) (LooseData α) := do
  return { d with expansion := ← m.model.expandLoose x u }

end AnyModel

@[simp] theorem Stage.evaluate_toLoose (st : Stage α s nu) (x : Vec α s.nx) (u : Vec α nu) :
    st.toLoose.model.evaluate st.toLoose.data x.toList (some u.toList) =
      .ok (st.evaluate x u).toLoose.data := by
  have h := st.model.evaluateLoose_toList x (some u)
  rw [Option.map_some] at h
  rw [AnyModel.evaluate, toLoose, h]
  rfl

@[simp] theorem Stage.expand_toLoose (st : Stage α s nu) (x : Vec α s.nx) (u : Vec α nu) :
    st.toLoose.model.expand st.toLoose.data x.toList (some u.toList) =
      .ok (st.expand x u).toLoose.data := by
  have h := st.model.expandLoose_toList x (some u)
  rw [Option.map_some] at h
  rw [AnyModel.expand, toLoose, h]
  rfl

@[simp] theorem TerminalStage.evaluate_toLoose (st : TerminalStage α s) (x : Vec α s.nx) :
    st.toLoose.model.evaluate st.toLoose.data x.toList none = .ok (st.evaluate x).toLoose.data := by
  have h := st.model.evaluateLoose_toList x none
  rw [Option.map_none] at h
  rw [AnyModel.evaluate, toLoose, h]
  rfl

@[simp] theorem TerminalStage.expand_toLoose (st : TerminalStage α s) (x : Vec α s.nx) :
    st.toLoose.model.expand st.toLoose.data x.toList none = .ok (st.expand x).toLoose.data := by
  have h := st.model.expandLoose_toList x none
  rw [Option.map_none] at h
  rw [AnyModel.expand, toLoose, h]
  rfl

/-! ## Problems -/

/-- A problem in memory. -/
structure LooseProblem (α : Type) where
  start : List α
  models : List (AnyModel α)
  terminalModel : AnyModel α
  datas : List (LooseData α)
  terminalData : LooseData α

namespace LooseProblem

/-- The problem with the given running stages and the given last one. -/
def ofStages (start : List α) (running : List (LooseStage α)) (terminal : LooseStage α) :
    LooseProblem α where
  start
  models := running.map LooseStage.model
  terminalModel := terminal.model
  datas := running.map LooseStage.data
  terminalData := terminal.data

/-- Compares the sizes of every model, from number `t` on, with those of its successor. -/
def checkNeighbours : (t : Nat) → List (AnyModel α) → Except SizeFault Unit
  | t, m :: next :: rest =>
    if m.space.nx = next.space.nx ∧ m.space.ndx = next.space.ndx then
      checkNeighbours (t + 1) (next :: rest)
    else .error (.neighbours t m.space.nx m.space.ndx next.space.nx next.space.ndx)
  | _, _ => .ok ()

/-- A problem with fresh data for every model. -/
def new (x₀ : List α) (running : List (AnyModel α)) (terminal : AnyModel α) :
    Except SizeFault (LooseProblem α) := do
  checkNeighbours 0 (running ++ [terminal])
  let first := running.head?.getD terminal
  if x₀.length = first.space.nx then
    return .ofStages x₀ (running.map .fresh) (.fresh terminal)
  else throw (.initialState x₀.length first.space.nx)

/-- The number of running stages. -/
def horizon (p : LooseProblem α) : Nat := p.models.length

/-- The state spaces of all stages. -/
def spaces (p : LooseProblem α) : List StateSpace :=
  p.models.map AnyModel.space ++ [p.terminalModel.space]

/-- The model of stage `t`, which is the last one for all `t` past the running stages. -/
def stageModel (p : LooseProblem α) (t : Nat) : AnyModel α := p.models[t]?.getD p.terminalModel

/-- Replaces the initial state. -/
def setStart (p : LooseProblem α) (x₀ : List α) : Except SizeFault (LooseProblem α) :=
  if x₀.length = (p.stageModel 0).space.nx then .ok { p with start := x₀ }
  else .error (.initialState x₀.length (p.stageModel 0).space.nx)

/-- Checks controls against models, both from stage `t` on. -/
def checkControlSizes : (t : Nat) → List (List α) → List (AnyModel α) → Except SizeFault Unit
  | t, u :: us, m :: ms =>
    if u.length = m.nu then checkControlSizes (t + 1) us ms
    else .error (.control (.stage t) u.length m.nu)
  | _, _, _ => .ok ()

def checkControls (p : LooseProblem α) (us : List (List α)) : Except SizeFault Unit :=
  if us.length = p.horizon then checkControlSizes 0 us p.models
  else .error (.controls p.horizon us.length)

/-- Checks the states from stage `t` on. -/
def checkStateSizes (p : LooseProblem α) : (t : Nat) → List (List α) → Except SizeFault Unit
  | _, [] => .ok ()
  | t, x :: xs =>
    if x.length = (p.stageModel t).space.nx then p.checkStateSizes (t + 1) xs
    else .error (.state (.stage t) x.length (p.stageModel t).space.nx)

def checkTrajectory (p : LooseProblem α) (xs us : List (List α)) : Except SizeFault Unit :=
  if xs.length = p.horizon + 1 then do
    p.checkControls us
    p.checkStateSizes 0 xs
  else .error (.states (p.horizon + 1) xs.length)

/-- The sum of the stored costs. -/
def totalCost (p : LooseProblem α) : α :=
  p.datas.foldl (fun acc d => acc + d.eval.cost) 0 + p.terminalData.eval.cost

/-- What a pass over the stages does in one of them. -/
abbrev Pass (α : Type) : Type :=
  AnyModel α → LooseData α → List α → Option (List α) → Loose (ProblemError α) (LooseData α)

/-- Goes through models, data, states and controls side by side. -/
def passFrom (f : Pass α) : List (AnyModel α) → List (LooseData α) → List (List α) →
    List (List α) → Loose (ProblemError α) (List (LooseData α))
  | m :: ms, d :: ds, x :: xs, u :: us => do
    let d ← f m d x (some u)
    let ds ← passFrom f ms ds xs us
    return d :: ds
  | _, ds, _, _ => return ds

/-- Goes through the running stages, does the last one, and sums the costs. -/
def pass (p : LooseProblem α) (f : Pass α) (xs us : List (List α)) :
    Loose (ProblemError α) (LooseProblem α × α) := do
  Loose.sized (p.checkTrajectory xs us)
  let datas ← passFrom f p.models p.datas xs us
  let terminalData ← f p.terminalModel p.terminalData (← Loose.entry xs p.horizon) none
  let p := { p with datas, terminalData }
  return (p, p.totalCost)

/-- Evaluates every stage and sums the costs. -/
def evaluate (p : LooseProblem α) (xs us : List (List α)) :
    Loose (ProblemError α) (LooseProblem α × α) :=
  p.pass AnyModel.evaluate xs us

/-- Expands every stage and sums the costs, which are still those of the last evaluation. -/
def expand (p : LooseProblem α) (xs us : List (List α)) :
    Loose (ProblemError α) (LooseProblem α × α) :=
  p.pass AnyModel.expand xs us

/-- The gaps behind the stages from number `t` on. -/
def gapsFrom (xs : List (List α)) : (t : Nat) → List (AnyModel α) → List (LooseData α) →
    Loose (ProblemError α) (List (List α))
  | t, m :: ms, d :: ds => do
    let f ← Loose.diff m.space (← Loose.entry xs (t + 1)) d.eval.next
    let fs ← gapsFrom xs (t + 1) ms ds
    return f :: fs
  | _, _, _ => return []

/-- The gaps between given states and the last predictions. -/
def gaps (p : LooseProblem α) (xs : List (List α)) : Loose (ProblemError α) (List (List α)) := do
  if xs.length = p.horizon + 1 then
    let f ← Loose.diff (p.stageModel 0).space (← Loose.entry xs 0) p.start
    let fs ← gapsFrom xs 0 p.models p.datas
    return f :: fs
  else .error (.error (.dimensionMismatch (.states (p.horizon + 1) xs.length)))

end LooseProblem

omit [Scalar α] in
/-- Forgets the sizes of a problem. -/
def Problem.toLoose (p : Problem α s nus) : LooseProblem α :=
  .ofStages p.start.toList p.stages.toLoose p.stages.final.toLoose

omit [Scalar α] in
/-- Forgets that a problem has sizes at all. -/
def AnyProblem.toLoose (p : AnyProblem α) : LooseProblem α := p.problem.toLoose

namespace LooseProblem

open Problem (stagesFrom)

/-! ## Making a problem -/

theorem toLoose_of_stagesFrom : ∀ {s : StateSpace} {t : Nat} {running : List (AnyModel α)}
    {terminal : AnyModel α} {nus : List Nat} {stages : Stages α s nus},
    stagesFrom s t running terminal = .ok ⟨nus, stages⟩ →
      stages.toLoose = running.map .fresh ∧ stages.final.toLoose = .fresh terminal
  | _, _, [], ⟨_, _, m⟩, _, _, h => by
    unfold stagesFrom at h
    split at h
    next hspace =>
      cases hspace
      cases h
      exact ⟨rfl, congrArg (LooseStage.mk _) StageData.toLoose_zero⟩
    next => cases h
  | _, t, ⟨_, _, m⟩ :: rest, terminal, _, _, h => by
    unfold stagesFrom at h
    split at h
    next hspace =>
      cases hspace
      obtain ⟨⟨nus, stages⟩, hrest, h⟩ := exists_of_bind_ok h
      cases h
      obtain ⟨hstages, hfinal⟩ := toLoose_of_stagesFrom hrest
      refine ⟨?_, hfinal⟩
      rw [Stages.toLoose_stage, hstages, List.map_cons]
      exact congrArg (LooseStage.mk _ · :: _) StageData.toLoose_zero
    next => cases h

omit [Scalar α] in
theorem checkNeighbours_pair (t : Nat) (m next : AnyModel α) (rest : List (AnyModel α)) :
    checkNeighbours t (m :: next :: rest) =
      if next.space = m.space then checkNeighbours (t + 1) (next :: rest)
      else .error (.neighbours t m.space.nx m.space.ndx next.space.nx next.space.ndx) := by
  rw [checkNeighbours]
  exact if_congr ((StateSpace.eq_iff_sizes _ _).symm.trans eq_comm) rfl rfl

/-- Comparing neighbours is comparing all models with the first one. -/
theorem checkNeighbours_cons (terminal : AnyModel α) : ∀ (t : Nat) (m : AnyModel α)
    (running : List (AnyModel α)), checkNeighbours t (m :: (running ++ [terminal])) =
      (stagesFrom m.space (t + 1) running terminal).map fun _ => ()
  | t, ⟨_, _, m⟩, [] => by
    rw [List.nil_append, checkNeighbours_pair, stagesFrom]
    split <;> rfl
  | t, ⟨s, _, m⟩, ⟨s', _, m'⟩ :: rest => by
    rw [List.cons_append, checkNeighbours_pair, stagesFrom]
    dsimp only
    by_cases h : s' = s
    · subst h
      rw [if_pos rfl, dif_pos rfl, checkNeighbours_cons terminal (t + 1)]
      cases stagesFrom s' (t + 1 + 1) rest terminal <;> rfl
    · rw [if_neg h, dif_neg h]
      rfl

theorem checkNeighbours_eq (running : List (AnyModel α)) (terminal : AnyModel α) :
    checkNeighbours 0 (running ++ [terminal]) =
      (stagesFrom (running.head?.getD terminal).space 0 running terminal).map fun _ => () := by
  cases running with
  | nil =>
    have hown : terminal.space = (([] : List (AnyModel α)).head?.getD terminal).space := rfl
    rw [stagesFrom, dif_pos hown]
    rfl
  | cons m rest =>
    have hown : m.space = ((m :: rest).head?.getD terminal).space := rfl
    rw [List.cons_append, checkNeighbours_cons]
    conv_rhs => rw [stagesFrom, dif_pos hown]
    show _ = Except.map _ (stagesFrom m.space (0 + 1) rest terminal >>= _)
    cases stagesFrom m.space (0 + 1) rest terminal <;> rfl

/-- **A problem in memory is made where a problem is made**, of the same models, and refused with
the same fault. -/
theorem new_eq (x₀ : List α) (running : List (AnyModel α)) (terminal : AnyModel α) :
    new x₀ running terminal =
      (Problem.ofModels? x₀ running terminal).map AnyProblem.toLoose := by
  unfold new Problem.ofModels?
  rw [checkNeighbours_eq]
  dsimp only
  cases hstages : stagesFrom (running.head?.getD terminal).space 0 running terminal with
  | error fault => rfl
  | ok found =>
    obtain ⟨nus, stages⟩ := found
    obtain ⟨hrunning, hfinal⟩ := toLoose_of_stagesFrom hstages
    show (if x₀.length = (running.head?.getD terminal).space.nx then _ else _) =
      Except.map _ ((Problem.start? _ x₀).bind _)
    unfold Problem.start?
    split
    next hlength =>
      have hsome := (Vec.ofList?_isSome_iff x₀).mpr hlength
      obtain ⟨x, hx⟩ := Option.isSome_iff_exists.mp hsome
      rw [hx]
      show Except.ok _ = Except.ok (ofStages x.toList stages.toLoose stages.final.toLoose)
      rw [hrunning, hfinal, Vec.ofList?_eq_some_iff.mp hx]
    next hlength =>
      rw [Vec.ofList?_eq_none hlength]
      rfl

omit [Scalar α] in
theorem checkNeighbours_ok_iff : ∀ (t : Nat) (m : AnyModel α) (ms : List (AnyModel α)),
    checkNeighbours t (m :: ms) = .ok () ↔ ∀ m' ∈ ms, m'.space = m.space
  | _, m, [] => by simp [checkNeighbours]
  | t, m, next :: rest => by
    rw [checkNeighbours_pair, List.forall_mem_cons]
    split
    next h =>
      rw [checkNeighbours_ok_iff (t + 1) next rest, h]
      exact (and_iff_right rfl).symm
    next h => exact ⟨fun hok => (nomatch hok), fun hall => absurd hall.1 h⟩

/-- **What is accepted.** All stages, the last one included, have states of one size and tangents of
one size, and the initial state is of that size. -/
theorem new_ok_iff (x₀ : List α) (running : List (AnyModel α)) (terminal : AnyModel α) :
    (∃ p, new x₀ running terminal = .ok p) ↔
      ∃ nx ndx, (∀ m ∈ running ++ [terminal], m.space.nx = nx ∧ m.space.ndx = ndx) ∧
        x₀.length = nx := by
  obtain ⟨first, rest, hlist, hfirst⟩ : ∃ first rest, running ++ [terminal] = first :: rest ∧
      running.head?.getD terminal = first := by
    cases running with
    | nil => exact ⟨terminal, [], rfl, rfl⟩
    | cons m ms => exact ⟨m, ms ++ [terminal], rfl, rfl⟩
  unfold new
  rw [hlist, hfirst]
  constructor
  · rintro ⟨p, h⟩
    obtain ⟨⟨⟩, hspaces, h⟩ := exists_of_bind_ok h
    rw [checkNeighbours_ok_iff] at hspaces
    refine ⟨first.space.nx, first.space.ndx, ?_, ?_⟩
    · rw [List.forall_mem_cons]
      exact ⟨⟨rfl, rfl⟩, fun m hm => hspaces m hm ▸ ⟨rfl, rfl⟩⟩
    · by_contra hlength
      dsimp only at h
      rw [if_neg hlength] at h
      cases h
  · rintro ⟨nx, ndx, hsizes, hlength⟩
    rw [List.forall_mem_cons] at hsizes
    obtain ⟨⟨rfl, rfl⟩, hsizes⟩ := hsizes
    have hspaces : checkNeighbours 0 (first :: rest) = .ok () :=
      (checkNeighbours_ok_iff 0 first rest).mpr fun m hm =>
        (StateSpace.eq_iff_sizes _ _).mpr (hsizes m hm)
    rw [hspaces]
    exact ⟨_, if_pos hlength⟩

/-! ## Sizes of the stages -/

omit [Scalar α] in
theorem space_toLoose : ∀ {nus : List Nat} (stages : Stages α s nus),
    ∀ m ∈ stages.toLoose.map LooseStage.model, m.space = s
  | _, .last _, _, h => nomatch h
  | _, .stage _ rest, m, h => by
    rw [Stages.toLoose_stage, List.map_cons, List.mem_cons] at h
    obtain rfl | h := h
    · rfl
    · exact space_toLoose rest m h

variable (p : Problem α s nus)

omit [Scalar α] in
/-- What depends on the numbers of controls only. -/
theorem map_models {β : Type} (f : AnyModel α → β) (size : Nat → β)
    (hsize : ∀ {nu} (m : Model α s nu), f ⟨s, nu, m⟩ = size nu) :
    p.toLoose.models.map f = nus.map size := by
  show ((p.stages.running Stage.toLoose).map LooseStage.model).map f = _
  rw [Horizon.map_running, Horizon.map_running]
  exact Horizon.running_eq_map _ size (fun st => hsize st.model) p.stages

omit [Scalar α] in
theorem nu_toLoose : p.toLoose.models.map AnyModel.nu = nus :=
  (map_models p AnyModel.nu id fun _ => rfl).trans (List.map_id nus)

omit [Scalar α] in
theorem spaces_toLoose : p.toLoose.spaces = List.replicate (nus.length + 1) s := by
  unfold spaces
  rw [map_models p AnyModel.space (fun _ => s) fun _ => rfl, List.map_const',
    List.replicate_succ']
  rfl

omit [Scalar α] in
@[simp] theorem horizon_toLoose : p.toLoose.horizon = nus.length := by
  simp [horizon, Problem.toLoose, ofStages]

omit [Scalar α] in
@[simp] theorem space_stageModel (t : Nat) : (p.toLoose.stageModel t).space = s := by
  show ((p.stages.toLoose.map LooseStage.model)[t]?.getD _).space = s
  cases h : (p.stages.toLoose.map LooseStage.model)[t]? with
  | none => rfl
  | some m => exact space_toLoose p.stages m (List.mem_of_getElem? h)

theorem foldl_toLoose : ∀ {nus : List Nat} (stages : Stages α s nus) (acc : α),
    (stages.toLoose.map LooseStage.data).foldl (fun acc d => acc + d.eval.cost) acc =
      stages.foldl (fun acc st => acc + st.data.eval.cost) acc
  | _, .last _, _ => rfl
  | _, .stage _ rest, _ => foldl_toLoose rest _

theorem totalCost_toLoose : p.toLoose.totalCost = p.totalCost :=
  congrArg (· + _) (foldl_toLoose p.stages 0)

omit [Scalar α] in
theorem setStart_toLoose (x₀ : List α) :
    p.toLoose.setStart x₀ = (p.withStart? x₀).map Problem.toLoose := by
  unfold setStart Problem.withStart? Problem.start?
  rw [space_stageModel]
  split
  next h =>
    obtain ⟨x, hx⟩ := Option.isSome_iff_exists.mp ((Vec.ofList?_isSome_iff x₀).mpr h)
    rw [hx, ← Vec.ofList?_eq_some_iff.mp hx]
    rfl
  next h =>
    rw [Vec.ofList?_eq_none h]
    rfl

/-! ## Checks -/

omit [Scalar α] in
/-- A list is a state if it is as long as one. -/
theorem state?_cases (owner : SizeOwner) (s : StateSpace) (x : List α) :
    (x.length = s.nx ∧ ∃ v, Model.state? owner s x = .ok v) ∨
      (x.length ≠ s.nx ∧ Model.state? owner s x = .error (.state owner x.length s.nx)) := by
  unfold Model.state?
  by_cases h : x.length = s.nx
  · obtain ⟨v, hv⟩ := Option.isSome_iff_exists.mp ((Vec.ofList?_isSome_iff x).mpr h)
    exact .inl ⟨h, v, by rw [hv]⟩
  · exact .inr ⟨h, by rw [Vec.ofList?_eq_none h]⟩

omit [Scalar α] in
/-- A list is a control if it is as long as one. -/
theorem control?_cases (owner : SizeOwner) (nu : Nat) (u : List α) :
    (u.length = nu ∧ ∃ v, Model.control? owner nu u = .ok v) ∨
      (u.length ≠ nu ∧ Model.control? owner nu u = .error (.control owner u.length nu)) := by
  unfold Model.control?
  by_cases h : u.length = nu
  · obtain ⟨v, hv⟩ := Option.isSome_iff_exists.mp ((Vec.ofList?_isSome_iff u).mpr h)
    exact .inl ⟨h, v, by rw [hv]⟩
  · exact .inr ⟨h, by rw [Vec.ofList?_eq_none h]⟩

omit [Scalar α] in
theorem checkControlSizes_eq (count : SizeFault) : ∀ (t : Nat) {nus : List Nat}
    (us : List (List α)) (ms : List (AnyModel α)), ms.map AnyModel.nu = nus →
    us.length = nus.length →
    checkControlSizes t us ms = (Problem.controlsFrom count t nus us).map fun _ => ()
  | _, [], [], [], _, _ => rfl
  | t, nu :: nus, u :: us, m :: ms, hnus, hlength => by
    obtain ⟨hnu, hnus⟩ := List.cons.inj hnus
    have hrest := checkControlSizes_eq count (t + 1) us ms hnus (Nat.succ.inj hlength)
    unfold checkControlSizes Problem.controlsFrom
    rw [hnu, hrest]
    obtain ⟨hfits, v, hv⟩ | ⟨hfits, hv⟩ := control?_cases (.stage t) nu u
    · rw [if_pos hfits, hv]
      show _ = Except.map _ (Problem.controlsFrom count (t + 1) nus us >>= _)
      cases Problem.controlsFrom count (t + 1) nus us <;> rfl
    · rw [if_neg hfits, hv]
      rfl
  | _, _ :: _, [], _, _, h => nomatch h
  | _, [], _ :: _, _, _, h => nomatch h
  | _, _ :: _, _, [], h, _ => nomatch h

omit [Scalar α] in
theorem checkControls_toLoose (us : List (List α)) :
    p.toLoose.checkControls us = (p.controls? us).map fun _ => () := by
  unfold checkControls Problem.controls?
  rw [horizon_toLoose]
  dsimp only
  split
  next h => exact checkControlSizes_eq _ 0 us _ (nu_toLoose p) h
  next => rfl

omit [Scalar α] in
theorem checkStateSizes_eq (count : SizeFault) : ∀ (t : Nat) (ns : List Nat) (xs : List (List α)),
    xs.length = ns.length + 1 →
    p.toLoose.checkStateSizes t xs = (Problem.statesFrom s count t ns xs).map fun _ => ()
  | t, [], [x], _ => by
    rw [checkStateSizes, checkStateSizes, space_stageModel, Problem.statesFrom]
    obtain ⟨hfits, v, hv⟩ | ⟨hfits, hv⟩ := state?_cases (.stage t) s x
    · rw [if_pos hfits, hv]
      rfl
    · rw [if_neg hfits, hv]
      rfl
  | t, _ :: ns, x :: xs, hlength => by
    have hrest := checkStateSizes_eq count (t + 1) ns xs (Nat.succ.inj hlength)
    unfold checkStateSizes Problem.statesFrom
    rw [space_stageModel, hrest]
    obtain ⟨hfits, v, hv⟩ | ⟨hfits, hv⟩ := state?_cases (.stage t) s x
    · rw [if_pos hfits, hv]
      show _ = Except.map _ (Problem.statesFrom s count (t + 1) ns xs >>= _)
      cases Problem.statesFrom s count (t + 1) ns xs <;> rfl
    · rw [if_neg hfits, hv]
      rfl
  | _, [], [], h => nomatch h
  | _, [], _ :: _ :: _, h => nomatch h
  | _, _ :: _, [], h => nomatch h

omit [Scalar α] in
theorem checkTrajectory_toLoose (xs us : List (List α)) :
    p.toLoose.checkTrajectory xs us = (p.path? xs us).map fun _ => () := by
  unfold checkTrajectory Problem.path?
  rw [horizon_toLoose, checkControls_toLoose]
  dsimp only
  split
  next h =>
    rw [checkStateSizes_eq p (.states (nus.length + 1) xs.length) 0 nus xs h]
    cases p.controls? us with
    | error fault => rfl
    | ok us =>
      show Except.map _ _ = Except.map _ (Problem.statesFrom s _ 0 nus xs >>= _)
      cases Problem.statesFrom s (.states (nus.length + 1) xs.length) 0 nus xs <;> rfl
  next => rfl

/-! ## Passes over all stages -/

omit [Scalar α] in
/-- A pass that does in every stage what `g` and `e` do does what they do in all stages. -/
theorem passFrom_toLoose {f : Pass α} {g : ∀ {nu}, Stage α s nu → Knot α s nu → Stage α s nu}
    (e : TerminalStage α s → Vec α s.nx → TerminalStage α s)
    (h : ∀ {nu} (st : Stage α s nu) (k : Knot α s nu),
      f st.toLoose.model st.toLoose.data k.state.toList (some k.control.toList) =
        .ok (g st k).toLoose.data) : ∀ {nus : List Nat} (stages : Stages α s nus)
    (path : Path α s nus),
    passFrom f (stages.toLoose.map LooseStage.model) (stages.toLoose.map LooseStage.data)
        path.toTrajectory.states path.toTrajectory.controls =
      .ok ((Stages.toLoose (stages.zipWith g e path)).map LooseStage.data)
  | _, .last _, .last _ => rfl
  | _, .stage st rest, .stage k ks => by
    rw [Stages.toLoose_stage, List.map_cons, List.map_cons, Path.states_stage, Path.controls_stage,
      passFrom, h st k, Loose.ok_bind, passFrom_toLoose e h rest ks]
    rfl

omit [Scalar α] in
theorem entry_final {ε : Type} (path : Path α s nus) :
    (Loose.entry path.toTrajectory.states nus.length : Loose ε (List α)) =
      .ok path.final.toList :=
  Loose.entry_append (Horizon.length_running _ path)

omit [Scalar α] in
theorem models_zipWith {g : ∀ {nu}, Stage α s nu → Knot α s nu → Stage α s nu}
    (e : TerminalStage α s → Vec α s.nx → TerminalStage α s)
    (h : ∀ {nu} (st : Stage α s nu) (k : Knot α s nu), (g st k).model = st.model) :
    ∀ {nus : List Nat} (stages : Stages α s nus) (path : Path α s nus),
      (Stages.toLoose (stages.zipWith g e path)).map LooseStage.model =
        stages.toLoose.map LooseStage.model
  | _, .last _, .last _ => rfl
  | _, .stage st rest, .stage k ks =>
    congrArg₂ List.cons (congrArg (AnyModel.mk s _) (h st k)) (models_zipWith e h rest ks)

omit [Scalar α] in
theorem final_zipWith {g : ∀ {nu}, Stage α s nu → Knot α s nu → Stage α s nu}
    {e : TerminalStage α s → Vec α s.nx → TerminalStage α s} : ∀ {nus : List Nat}
    (stages : Stages α s nus) (path : Path α s nus),
      Horizon.final (stages.zipWith g e path) = e stages.final path.final
  | _, .last _, .last _ => rfl
  | _, .stage _ rest, .stage _ ks => final_zipWith rest ks

theorem pass_toLoose {f : Pass α} {g : ∀ {nu}, Stage α s nu → Knot α s nu → Stage α s nu}
    {e : TerminalStage α s → Vec α s.nx → TerminalStage α s}
    (h : ∀ {nu} (st : Stage α s nu) (k : Knot α s nu),
      f st.toLoose.model st.toLoose.data k.state.toList (some k.control.toList) =
        .ok (g st k).toLoose.data ∧ (g st k).model = st.model)
    (h' : ∀ st x, f st.toLoose.model st.toLoose.data x.toList none = .ok (e st x).toLoose.data ∧
      (e st x).toLoose.model = st.toLoose.model) (xs us : List (List α)) :
    p.toLoose.pass f xs us = Loose.sized ((p.path? xs us).map fun path =>
      let q : Problem α s nus := { p with stages := p.stages.zipWith g e path }
      (q.toLoose, q.totalCost)) := by
  unfold pass
  rw [checkTrajectory_toLoose]
  cases hpath : p.path? xs us with
  | error fault => rfl
  | ok path =>
    have hlists := Problem.toTrajectory_of_path? hpath
    have hstages := passFrom_toLoose e (fun st k => (h st k).1) p.stages path
    have hentry := entry_final (ε := ProblemError α) path
    rw [hlists] at hstages hentry
    dsimp only at hstages hentry
    have hterminal := (h' p.stages.final path.final).1
    have hq : { p.toLoose with
        datas := (Stages.toLoose (p.stages.zipWith g e path)).map LooseStage.data
        terminalData := (e p.stages.final path.final).toLoose.data } =
          Problem.toLoose { p with stages := p.stages.zipWith g e path } := by
      unfold Problem.toLoose ofStages
      dsimp only
      rw [models_zipWith e (fun st k => (h st k).2), final_zipWith,
        (h' p.stages.final path.final).2]
    show (passFrom f (p.stages.toLoose.map LooseStage.model) (p.stages.toLoose.map LooseStage.data)
      xs us >>= _) = _
    rw [hstages, Loose.ok_bind, horizon_toLoose, hentry, Loose.ok_bind]
    show (f p.stages.final.toLoose.model p.stages.final.toLoose.data _ _ >>= _) = _
    rw [hterminal, Loose.ok_bind]
    dsimp only
    rw [hq, totalCost_toLoose]
    rfl

/-- **Evaluating a problem in memory evaluates the problem.** -/
theorem evaluate_toLoose (xs us : List (List α)) :
    p.toLoose.evaluate xs us =
      Loose.sized ((p.evaluate? xs us).map fun (q, cost) => (q.toLoose, cost)) := by
  have h := pass_toLoose p (f := AnyModel.evaluate)
    (g := fun st k => st.evaluate k.state k.control) (e := TerminalStage.evaluate)
    (fun st k => ⟨st.evaluate_toLoose k.state k.control, rfl⟩)
    (fun st x => ⟨st.evaluate_toLoose x, rfl⟩) xs us
  unfold evaluate Problem.evaluate?
  rw [h]
  cases p.path? xs us <;> rfl

/-- **Expanding a problem in memory expands the problem.** -/
theorem expand_toLoose (xs us : List (List α)) :
    p.toLoose.expand xs us =
      Loose.sized ((p.expand? xs us).map fun (q, cost) => (q.toLoose, cost)) := by
  have h := pass_toLoose p (f := AnyModel.expand)
    (g := fun st k => st.expand k.state k.control) (e := TerminalStage.expand)
    (fun st k => ⟨st.expand_toLoose k.state k.control, rfl⟩)
    (fun st x => ⟨st.expand_toLoose x, rfl⟩) xs us
  unfold expand Problem.expand?
  rw [h]
  cases p.path? xs us <;> rfl

/-! ## Gaps -/

theorem gapsFrom_head (predicted : Vec α s.nx) (stages : Stages α s nus) (path : Path α s nus) :
    (Stages.gapsFrom predicted stages path).toList Vec.toList Vec.toList =
      (s.diff (path.first Knot.state id) predicted).toList ::
        ((Stages.gapsFrom predicted stages path).toList Vec.toList Vec.toList).tail := by
  cases stages with
  | last st =>
    cases path with
    | last x => rfl
  | stage st rest =>
    cases path with
    | stage k ks => rfl

omit [Scalar α] in
theorem states_head (path : Path α s nus) : path.toTrajectory.states =
    (path.first Knot.state id).toList :: path.toTrajectory.states.tail := by
  cases path <;> rfl

/-- The gaps behind the stages that are left. -/
theorem gapsFrom_toLoose : ∀ {nus : List Nat} (pre : List (List α)) (predicted : Vec α s.nx)
    (stages : Stages α s nus) (path : Path α s nus),
    gapsFrom (pre ++ path.toTrajectory.states) pre.length (stages.toLoose.map LooseStage.model)
        (stages.toLoose.map LooseStage.data) =
      .ok ((Stages.gapsFrom predicted stages path).toList Vec.toList Vec.toList).tail
  | _, _, _, .last _, .last _ => rfl
  | _, pre, predicted, .stage st rest, .stage k ks => by
    have hrest := gapsFrom_toLoose (pre ++ [k.state.toList]) st.data.eval.next rest ks
    rw [List.append_assoc, List.length_append] at hrest
    have hentry : (Loose.entry (pre ++ k.state.toList :: (Path.toTrajectory ks).states)
        (pre.length + 1) : Loose (ProblemError α) (List α)) =
          .ok (ks.first Knot.state id).toList := by
      rw [states_head ks, List.append_cons]
      exact Loose.entry_append (by simp)
    have hdiff : (Loose.diff s (ks.first Knot.state id).toList st.toLoose.data.eval.next :
        Loose (ProblemError α) (List α)) =
          .ok (s.diff (ks.first Knot.state id) st.data.eval.next).toList :=
      Loose.diff_toList s _ _
    rw [Stages.toLoose_stage, List.map_cons, List.map_cons, Path.states_stage, gapsFrom, hentry,
      Loose.ok_bind]
    show (Loose.diff s _ _ >>= _) =
      .ok ((Stages.gapsFrom st.data.eval.next rest ks).toList Vec.toList Vec.toList)
    rw [hdiff, Loose.ok_bind, gapsFrom_head]
    exact (congrArg (· >>= _) hrest).trans rfl

/-- **The gaps of a problem in memory are the gaps of the problem.** -/
theorem gaps_toLoose (path : Path α s nus) :
    p.toLoose.gaps path.toTrajectory.states =
      .ok ((p.gaps path).toList Vec.toList Vec.toList) := by
  have hlength : path.toTrajectory.states.length = p.toLoose.horizon + 1 := by
    rw [horizon_toLoose]
    exact Horizon.length_toList _ _ path
  have hentry : (Loose.entry path.toTrajectory.states 0 : Loose (ProblemError α) (List α)) =
      .ok (path.first Knot.state id).toList := by
    rw [states_head path]
    exact Loose.entry_append (show ([] : List (List α)).length = 0 from rfl)
  have hdiff : (Loose.diff s (path.first Knot.state id).toList p.toLoose.start :
      Loose (ProblemError α) (List α)) = .ok (s.diff (path.first Knot.state id) p.start).toList :=
    Loose.diff_toList s _ _
  have hrest := gapsFrom_toLoose [] p.start p.stages path
  rw [List.nil_append, List.length_nil] at hrest
  rw [gaps, if_pos hlength, hentry, Loose.ok_bind, space_stageModel, hdiff, Loose.ok_bind,
    Problem.gaps, gapsFrom_head]
  exact (congrArg (· >>= _) hrest).trans rfl

end LooseProblem

end Shooting
