import Shooting.Proofs.Loose.Policy
import Shooting.Proofs.Solver.Trial

/-!
# The line search in memory

A solver in memory has room for two trajectories: the current one and a candidate. A candidate is
written entry by entry while it is rolled out, and exchanged for the current trajectory when it is
accepted; one that is given up half way leaves a trajectory that is partly the candidate and partly
what stood there before.

So the memory knows more than a `Workspace`. `Workspace.toLoose` forgets the sizes of a workspace
and takes the other trajectory as an argument; `tryStep_toLoose` and `lineSearch_toLoose` say that
nothing clashes, that what is found is what `Workspace.tryStep` and `lineSearch` find, and that the
other trajectory remains one that fits.
-/

namespace Shooting

/-- The state of a solve in memory. -/
structure LooseWorkspace (α : Type) where
  spaces : List StateSpace
  current : Trajectory α
  trial : Trajectory α
  gaps : List (List α)
  policy : LoosePolicy α
  damping : Damping α
  expected : ExpectedImprovement α
  cost : α
  feasible : Bool

/-- A line search in memory. -/
structure LooseSearch (α : Type) where
  problem : LooseProblem α
  workspace : LooseWorkspace α
  tried : Nat
  length : α
  /-- Step length and cost of the candidate that was accepted. -/
  found : Option (α × α)

variable {α ε : Type} {s : StateSpace} {nu : Nat} {nus : List Nat}

/-- Forgets the sizes of a workspace; `trial` is what is in the room for candidates. -/
def Workspace.toLoose (w : Workspace α s nus) (trial : Path α s nus) : LooseWorkspace α where
  spaces := List.replicate (nus.length + 1) s
  current := w.path.toTrajectory
  trial := trial.toTrajectory
  gaps := w.gaps.toLists
  policy := w.policy.toLoose
  damping := w.damping
  expected := w.expected
  cost := w.cost
  feasible := w.feasible

namespace LooseWorkspace

/-- What is read for the stages from number `t` on are the given path, gaps and policy. -/
structure ReadsFrom (w : LooseWorkspace α) (t : Nat) (path : Path α s nus) (gaps : Gaps α s nus)
    (policy : Policy α s.ndx nus) : Prop where
  spaces : w.spaces.drop t = List.replicate (nus.length + 1) s
  states : w.current.states.drop t = path.toTrajectory.states
  controls : w.current.controls.drop t = path.toTrajectory.controls
  gaps : w.gaps.drop t = gaps.toLists
  feedforward : w.policy.feedforward.drop t =
    policy.looseStages.map LooseStagePolicy.feedforward
  feedback : w.policy.feedback.drop t = policy.looseStages.map LooseStagePolicy.feedback

theorem ReadsFrom.next {w : LooseWorkspace α} {t : Nat} {k : Knot α s nu} {ks : Path α s nus}
    {f : Vec α s.ndx} {fs : Gaps α s nus} {p : StagePolicy α s.ndx nu} {ps : Policy α s.ndx nus}
    (h : w.ReadsFrom t (.stage k ks) (.stage f fs) (.stage p ps)) : w.ReadsFrom (t + 1) ks fs ps where
  spaces := Loose.drop_succ h.spaces
  states := Loose.drop_succ h.states
  controls := Loose.drop_succ h.controls
  gaps := Loose.drop_succ h.gaps
  feedforward := Loose.drop_succ h.feedforward
  feedback := Loose.drop_succ h.feedback

variable [Scalar α]

/-- The state in which a candidate meets stage `t`. -/
def landing (w : LooseWorkspace α) (length : α) (closing : Bool) (t : Nat) (predicted : List α) :
    Loose ε (List α) := do
  if closing then return predicted
  else
    Loose.integrate (← Loose.entry w.spaces t) predicted
      (Loose.scale (← Loose.entry w.gaps t) (length - 1))

/-- The control of a candidate in the state `x` of stage `t`. -/
def steer (w : LooseWorkspace α) (length : α) (t : Nat) (x : List α) : Loose ε (List α) := do
  let dx ← Loose.diff (← Loose.entry w.spaces t) (← Loose.entry w.current.states t) x
  let u ← Loose.sub (← Loose.entry w.current.controls t)
    (Loose.scale (← Loose.entry w.policy.feedforward t) length)
  Loose.sub u (← Loose.mulVec (← Loose.entry w.policy.feedback t) dx)

/-- Rolls a candidate out over `n` more running stages, the next of them number `t`, and over the
last one. -/
def tryFrom (w : LooseWorkspace α) (length : α) (closing : Bool) :
    (n t : Nat) → (predicted : List α) → (cost : α) → LooseProblem α → (trial : Trajectory α) →
      Loose (ProblemError α) (LooseProblem α × Trajectory α × Option α)
  | 0, t, predicted, cost, p, trial => do
    let x ← w.landing length closing t predicted
    let (p, e) ← p.evaluateTerminal x
    if e.isFinite && x.all Scalar.isFinite then
      let states ← Loose.put trial.states t x
      return (p, { trial with states }, some (cost + e.cost))
    else return (p, trial, none)
  | n + 1, t, predicted, cost, p, trial => do
    let x ← w.landing length closing t predicted
    let u ← w.steer length t x
    let (p, e) ← p.evaluateStage t x u
    if e.isFinite && x.all Scalar.isFinite && u.all Scalar.isFinite then
      let states ← Loose.put trial.states t x
      let controls ← Loose.put trial.controls t u
      w.tryFrom length closing n (t + 1) e.next (cost + e.cost) p ⟨states, controls⟩
    else return (p, trial, none)

/-- Rolls a candidate of the given step length out, and says at which cost if all is finite. -/
def tryStep (w : LooseWorkspace α) (p : LooseProblem α) (length : α) :
    Loose (ProblemError α) (LooseProblem α × LooseWorkspace α × Option α) := do
  let closing := w.feasible || length == 1
  let (p, trial, outcome) ←
    w.tryFrom length closing w.current.horizon 0 p.start 0 p w.trial
  return (p, { w with trial }, outcome)

/-- Whether a candidate of the given cost and step length is accepted. -/
def acceptable (w : LooseWorkspace α) (c : Config α) (cost length : α) : Bool :=
  c.accepts (w.cost - cost) (w.expected.reduction length) w.expected.first

/-- Tries `n` more step lengths, the next of them with `i` halvings. -/
def lineSearchFrom (c : Config α) : (n i : Nat) → (length : α) → LooseProblem α →
    LooseWorkspace α → Loose (ProblemError α) (LooseSearch α)
  | 0, i, length, p, w => return ⟨p, w, i, length, none⟩
  | n + 1, i, _, p, w => do
    let length := stepLength i
    let (p, w, outcome) ← w.tryStep p length
    match outcome with
    | some cost =>
      if w.acceptable c cost length then return ⟨p, w, i + 1, length, some (length, cost)⟩
      else lineSearchFrom c n (i + 1) length p w
    | none => lineSearchFrom c n (i + 1) length p w

/-- Tries the step lengths of the configuration. -/
def lineSearch (w : LooseWorkspace α) (c : Config α) (p : LooseProblem α) :
    Loose (ProblemError α) (LooseSearch α) :=
  lineSearchFrom c c.lineSearchSteps 0 1 p w

/-- Exchanges the current trajectory for the candidate. -/
def accept (w : LooseWorkspace α) (cost length : α) : LooseWorkspace α :=
  { w with current := w.trial, trial := w.current, cost, feasible := w.feasible || length == 1 }

/-! ## One candidate -/

section

variable {w : LooseWorkspace α} {t : Nat} (length : α) (closing : Bool) (predicted : Vec α s.nx)

theorem landing_eq {gap : Vec α s.ndx} (hspace : (Loose.entry w.spaces t : Loose ε _) = .ok s)
    (hgap : (Loose.entry w.gaps t : Loose ε _) = .ok gap.toList) :
    (w.landing length closing t predicted.toList : Loose ε _) =
      .ok (trialState length closing predicted gap).toList := by
  unfold landing trialState
  cases closing with
  | true => rfl
  | false =>
    rw [hspace, hgap]
    simp only [Bool.false_eq_true, if_false, Loose.ok_bind, Loose.scale_toList,
      Loose.integrate_toList]

theorem steer_eq {k : Knot α s nu} {ks : Path α s nus} {f : Vec α s.ndx} {fs : Gaps α s nus}
    {p : StagePolicy α s.ndx nu} {ps : Policy α s.ndx nus}
    (h : w.ReadsFrom t (.stage k ks) (.stage f fs) (.stage p ps)) :
    (w.steer length t (trialState length closing predicted f).toList : Loose ε _) =
      .ok (trialKnot length closing predicted k f p).control.toList := by
  have hfeedforward : (Loose.entry w.policy.feedforward t : Loose ε _) =
      .ok p.gains.feedforward.toList := Loose.entry_of_drop h.feedforward
  have hfeedback : (Loose.entry w.policy.feedback t : Loose ε _) =
      .ok (.ofMat p.gains.feedback) := Loose.entry_of_drop h.feedback
  unfold steer trialKnot
  rw [Loose.entry_of_drop h.spaces, Loose.entry_of_drop h.states, Loose.entry_of_drop h.controls,
    hfeedforward, hfeedback]
  simp only [Loose.ok_bind, Loose.diff_toList, Loose.scale_toList, Loose.sub_toList,
    Loose.mulVec_ofMat]

/-- The candidate meets the last stage, and takes its place in the room if all is finite. -/
theorem tryFrom_zero {x : Vec α s.nx} {t : Nat} {xs : List (List α)} (hxs : xs.length = t)
    (hlanding : (w.landing length closing t predicted.toList : Loose (ProblemError α) _) =
      .ok x.toList) (start : List α) (pre : List (LooseStage α)) (st : TerminalStage α s)
    (cost : α) (y : List α) (us : List (List α)) :
    let st' := st.evaluate x
    let p := LooseProblem.ofStages start pre st'.toLoose
    w.tryFrom length closing 0 t predicted.toList cost (.ofStages start pre st.toLoose)
        ⟨xs ++ [y], us⟩ =
      .ok (if st'.data.eval.isFinite && x.isFinite then
          (p, ⟨xs ++ [x.toList], us⟩, some (cost + st'.data.eval.cost))
        else (p, ⟨xs ++ [y], us⟩, none)) := by
  rw [tryFrom, hlanding, Loose.ok_bind, LooseProblem.evaluateTerminal_ofStages, Loose.ok_bind]
  dsimp only
  rw [Vec.all_toList, Evaluation.isFinite_toLoose, Evaluation.cost_toLoose, Loose.put_append hxs,
    Loose.ok_bind]
  split <;> rfl

/-- The candidate meets a running stage, and takes its place in the room if all is finite. -/
theorem tryFrom_succ {k : Knot α s nu} {t : Nat} {pre : List (LooseStage α)}
    {xs us : List (List α)} (ht : pre.length = t) (hxs : xs.length = t) (hus : us.length = t)
    (hlanding : (w.landing length closing t predicted.toList : Loose (ProblemError α) _) =
      .ok k.state.toList)
    (hsteer : (w.steer length t k.state.toList : Loose (ProblemError α) _) = .ok k.control.toList)
    (start : List α) (st : Stage α s nu) (rest : List (LooseStage α)) (terminal : LooseStage α)
    (n : Nat) (cost : α) (y v : List α) (ys vs : List (List α)) :
    let st' := st.evaluate k.state k.control
    let p := LooseProblem.ofStages start (pre ++ st'.toLoose :: rest) terminal
    w.tryFrom length closing (n + 1) t predicted.toList cost
        (.ofStages start (pre ++ st.toLoose :: rest) terminal) ⟨xs ++ y :: ys, us ++ v :: vs⟩ =
      if st'.data.eval.isFinite && k.state.isFinite && k.control.isFinite then
        w.tryFrom length closing n (t + 1) st'.data.eval.next.toList
          (cost + st'.data.eval.cost) p ⟨xs ++ k.state.toList :: ys, us ++ k.control.toList :: vs⟩
      else .ok (p, ⟨xs ++ y :: ys, us ++ v :: vs⟩, none) := by
  rw [tryFrom, hlanding, Loose.ok_bind, hsteer, Loose.ok_bind,
    LooseProblem.evaluateStage_ofStages start pre rest terminal ht, Loose.ok_bind]
  dsimp only
  rw [Vec.all_toList, Vec.all_toList, Evaluation.isFinite_toLoose, Loose.put_append hxs,
    Loose.ok_bind, Loose.put_append hus, Loose.ok_bind]
  rfl

/-- The stages in `pre` are behind the candidate, and `xs` and `us` are its states and controls
there. What is in the room for it afterwards fits the stages to come, and is the candidate itself if
it was not given up. -/
theorem tryFrom_toLoose (start : List α) : ∀ {nus : List Nat} (pre : List (LooseStage α))
    (xs us : List (List α)) (predicted : Vec α s.nx) (cost : α) (stages : Stages α s nus)
    (path : Path α s nus) (gaps : Gaps α s nus) (policy : Policy α s.ndx nus)
    (trial : Path α s nus), w.ReadsFrom pre.length path gaps policy → xs.length = pre.length →
    us.length = pre.length →
    ∃ trial' : Path α s nus,
      w.tryFrom length closing nus.length pre.length predicted.toList cost
          (.ofStages start (pre ++ stages.toLoose) stages.final.toLoose)
          ⟨xs ++ trial.toTrajectory.states, us ++ trial.toTrajectory.controls⟩ =
        .ok (.ofStages start
            (pre ++ (tryStepFrom length closing predicted cost stages path gaps policy).1.toLoose)
            (Horizon.final
              (tryStepFrom length closing predicted cost stages path gaps policy).1).toLoose,
          ⟨xs ++ trial'.toTrajectory.states, us ++ trial'.toTrajectory.controls⟩,
          (tryStepFrom length closing predicted cost stages path gaps policy).2.map Prod.fst) ∧
      ∀ found ∈ (tryStepFrom length closing predicted cost stages path gaps policy).2,
        trial' = found.2
  | _, pre, xs, us, predicted, cost, .last st, .last x, .last f, .last v, .last y, h, hxs, hus => by
    have hmeet := tryFrom_zero (x := trialState length closing predicted f) length closing predicted
      hxs (landing_eq length closing predicted (Loose.entry_of_drop h.spaces)
        (Loose.entry_of_drop h.gaps)) start (pre ++ []) st cost y.toList (us ++ [])
    rw [tryStepFrom_last]
    dsimp only at hmeet ⊢
    generalize trialState length closing predicted f = x' at hmeet ⊢
    by_cases hfin : ((st.evaluate x').data.eval.isFinite && x'.isFinite) = true
    · rw [if_pos hfin] at hmeet ⊢
      refine ⟨.last x', hmeet, ?_⟩
      intro found hmem
      exact congrArg Prod.snd (Option.some.inj hmem)
    · -- given up, so the room keeps what was there
      rw [if_neg hfin] at hmeet ⊢
      exact ⟨.last y, hmeet, nofun⟩
  | _ :: nus, pre, xs, us, predicted, cost, .stage st rest, .stage k ks, .stage f fs, .stage p ps,
      .stage y ys, h, hxs, hus => by
    have hmeet := tryFrom_succ (k := trialKnot length closing predicted k f p) length closing
      predicted rfl hxs hus
      (landing_eq length closing predicted (Loose.entry_of_drop h.spaces)
        (Loose.entry_of_drop h.gaps))
      (steer_eq length closing predicted h) start st (Stages.toLoose rest)
      (Horizon.final rest).toLoose nus.length cost y.state.toList y.control.toList
      (Path.toTrajectory ys).states (Path.toTrajectory ys).controls
    rw [tryStepFrom_stage]
    dsimp only at hmeet ⊢
    generalize trialKnot length closing predicted k f p = k' at hmeet ⊢
    generalize st.evaluate k'.state k'.control = st' at hmeet ⊢
    by_cases hfin : (st'.data.eval.isFinite && k'.state.isFinite && k'.control.isFinite) = true
    · -- the stage just met joins those behind, and its knot the part of the candidate there
      obtain ⟨trial', hrest, hfound⟩ := tryFrom_toLoose start (pre ++ [st'.toLoose])
        (xs ++ [k'.state.toList]) (us ++ [k'.control.toList]) st'.data.eval.next
        (cost + st'.data.eval.cost) rest ks fs ps ys
        (by rw [List.length_append]; exact h.next) (by simp [hxs]) (by simp [hus])
      rw [List.length_append, ← LooseProblem.ofStages_snoc, ← List.append_cons, ← List.append_cons]
        at hrest
      rw [if_pos hfin] at hmeet ⊢
      dsimp only
      generalize tryStepFrom length closing st'.data.eval.next (cost + st'.data.eval.cost) rest ks
        fs ps = after at hrest hfound ⊢
      refine ⟨.stage k' trial', hmeet.trans (hrest.trans ?_), ?_⟩
      · rw [List.append_assoc, List.append_assoc, List.append_assoc, Option.map_map]
        rfl
      · rintro found hmem
        obtain ⟨⟨c, path'⟩, hafter, rfl⟩ := Option.map_eq_some_iff.mp hmem
        exact congrArg (Horizon.stage k') (hfound _ hafter)
    · rw [if_neg hfin] at hmeet ⊢
      exact ⟨.stage y ys, hmeet, nofun⟩

end

omit [Scalar α] in
theorem readsFrom_toLoose (w : Workspace α s nus) (trial : Path α s nus) :
    (w.toLoose trial).ReadsFrom 0 w.path w.gaps w.policy := ⟨rfl, rfl, rfl, rfl, rfl, rfl⟩

/-- **Trying a step in memory tries the step.** -/
theorem tryStep_toLoose (w : Workspace α s nus) (trial : Path α s nus) (p : Problem α s nus)
    (length : α) :
    ∃ trial' : Path α s nus,
      (w.toLoose trial).tryStep p.toLoose length =
        .ok ((w.tryStep p length).1.toLoose, w.toLoose trial',
          (w.tryStep p length).2.map Prod.fst) ∧
      ∀ found ∈ (w.tryStep p length).2, trial' = found.2 := by
  obtain ⟨trial', hstep, hfound⟩ := tryFrom_toLoose length (w.feasible || length == 1)
    p.start.toList [] [] [] p.start 0 p.stages w.path w.gaps w.policy trial
    (readsFrom_toLoose w trial) rfl rfl
  refine ⟨trial', ?_, hfound⟩
  have hhorizon : (w.toLoose trial).current.horizon = nus.length :=
    Horizon.length_running _ w.path
  unfold tryStep
  rw [hhorizon]
  exact (congrArg (· >>= _) hstep).trans rfl

theorem lineSearchFrom_toLoose (c : Config α) (w : Workspace α s nus) : ∀ (n i : Nat) (length : α)
    (p : Problem α s nus) (trial : Path α s nus),
    ∃ trial' : Path α s nus,
      lineSearchFrom c n i length p.toLoose (w.toLoose trial) =
        .ok ⟨(Shooting.lineSearchFrom c w n i length p).problem.toLoose, w.toLoose trial',
          (Shooting.lineSearchFrom c w n i length p).tried,
          (Shooting.lineSearchFrom c w n i length p).length,
          (Shooting.lineSearchFrom c w n i length p).found.map fun f => (f.length, f.cost)⟩ ∧
      ∀ f ∈ (Shooting.lineSearchFrom c w n i length p).found, trial' = f.path
  | 0, i, length, p, trial => ⟨trial, rfl, nofun⟩
  | n + 1, i, _, p, trial => by
    obtain ⟨trial', hstep, hfound⟩ := tryStep_toLoose w trial p (stepLength i)
    rw [lineSearchFrom, hstep, Loose.ok_bind, Shooting.lineSearchFrom]
    generalize w.tryStep p (stepLength i) = tried at hfound ⊢
    obtain ⟨p', outcome⟩ := tried
    cases outcome with
    | none => exact lineSearchFrom_toLoose c w n (i + 1) (stepLength i) p' trial'
    | some found =>
      obtain rfl := hfound found rfl
      have haccept : (w.toLoose found.2).acceptable c found.1 (stepLength i) =
          w.acceptable c found.1 (stepLength i) := rfl
      dsimp only [Option.map_some]
      rw [haccept]
      split
      next =>
        refine ⟨found.2, rfl, ?_⟩
        intro f hf
        rw [← Option.some.inj hf]
      next => exact lineSearchFrom_toLoose c w n (i + 1) (stepLength i) p' found.2

/-- **The line search in memory is the line search.** -/
theorem lineSearch_toLoose (c : Config α) (w : Workspace α s nus) (p : Problem α s nus)
    (trial : Path α s nus) :
    ∃ trial' : Path α s nus,
      (w.toLoose trial).lineSearch c p.toLoose =
        .ok ⟨(Shooting.lineSearch c w p).problem.toLoose, w.toLoose trial',
          (Shooting.lineSearch c w p).tried, (Shooting.lineSearch c w p).length,
          (Shooting.lineSearch c w p).found.map fun f => (f.length, f.cost)⟩ ∧
      ∀ f ∈ (Shooting.lineSearch c w p).found, trial' = f.path :=
  lineSearchFrom_toLoose c w c.lineSearchSteps 0 1 p trial

theorem accept_toLoose (w : Workspace α s nus) (path : Path α s nus) (cost length : α) :
    (w.toLoose path).accept cost length = (w.accept cost path length).toLoose w.path := rfl

end LooseWorkspace

end Shooting
