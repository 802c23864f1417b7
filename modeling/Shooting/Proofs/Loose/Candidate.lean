import Shooting.Proofs.Loose.Sweep

/-!
# Rolling a candidate out in memory

`LooseWorkspace.tryFrom` passes on the problem and the candidate that it has got so far. In memory
there is one problem and one workspace, and both are written while the candidate is rolled out: a
stage fills its data part by part, then state and control go into the room for the candidate. When
something is not finite the rollout ends where it is, with whatever is written by then.

`LooseWorkspace.tryStepInPlace` states it in this way, and `run_tryStepInPlace` says that it comes to
what `LooseWorkspace.tryStep` comes to. Nothing else of the workspace is written. A candidate that
gets to the end stands in the data of all stages as if the problem had been evaluated along it, and
is a function of what it was made of (`LooseWorkspace.candidate_agrees`): the initial state, the
models, the current trajectory, the gains, the gaps, the flag and the step length.
-/

namespace Shooting

open InPlace

/-- An operation on a problem and a workspace in memory that writes as it goes. -/
abbrev Trying (α β : Type) : Type :=
  EStateM (Refusal (ProblemError α)) (LooseProblem α × LooseWorkspace α) β

variable {α β : Type}

namespace Trying

/-- Works on the problem alone. -/
def onProblem (op : Writing α β) : Trying α β := fun (p, w) =>
  match op p with
  | .ok b p => .ok b (p, w)
  | .error refusal p => .error refusal (p, w)

/-- Writes the state of the candidate at stage `t`. -/
def putState (t : Nat) (x : List α) : Trying α Unit := do
  let states ← found (Loose.put (← get).2.trial.states t x)
  modify fun (p, w) => (p, { w with trial.states := states })

/-- Writes the control of the candidate at stage `t`. -/
def putControl (t : Nat) (u : List α) : Trying α Unit := do
  let controls ← found (Loose.put (← get).2.trial.controls t u)
  modify fun (p, w) => (p, { w with trial.controls := controls })

theorem run_onProblem {op : Writing α β} {p q : LooseProblem α} {b : β} (h : op p = .ok b q)
    (w : LooseWorkspace α) : onProblem op (p, w) = .ok b (q, w) := by
  unfold onProblem
  dsimp only
  rw [h]

theorem run_putState {w : LooseWorkspace α} {t : Nat} {x : List α} {states : List (List α)}
    (h : (Loose.put w.trial.states t x : Loose (ProblemError α) _) = .ok states)
    (p : LooseProblem α) : putState t x (p, w) = .ok () (p, { w with trial.states := states }) := by
  unfold putState
  rw [run_get_bind, run_bind _ (run_found h (p, w))]
  rfl

theorem run_putControl {w : LooseWorkspace α} {t : Nat} {u : List α} {controls : List (List α)}
    (h : (Loose.put w.trial.controls t u : Loose (ProblemError α) _) = .ok controls)
    (p : LooseProblem α) :
    putControl t u (p, w) = .ok () (p, { w with trial.controls := controls }) := by
  unfold putControl
  rw [run_get_bind, run_bind _ (run_found h (p, w))]
  rfl

end Trying

variable [Scalar α]

/-! ## One stage -/

namespace LooseProblem

/-- Evaluates running stage `t` alone. -/
def fillStage (t : Nat) (x u : List α) : Writing α (LooseEvaluation α) := do
  let p ← get
  match p.models[t]? with
  | none => throw (.error (.invalidInput (.stageOutside t p.horizon)))
  | some m =>
    found (Loose.sized (m.model.check x (some u)))
    onStage t (m.model.evaluateInPlace x (some u))
    let d ← found (Loose.entry (← get).datas t)
    return d.eval

/-- Evaluates the last stage alone. -/
def fillTerminal (x : List α) : Writing α (LooseEvaluation α) := do
  let p ← get
  found (Loose.sized (p.terminalModel.model.check x none))
  onTerminal (p.terminalModel.model.evaluateInPlace x none)
  return (← get).terminalData.eval

variable {p q : LooseProblem α} {e : LooseEvaluation α} {x : List α}

/-- Data that are evaluated successfully are filled that way. -/
theorem run_evaluateInPlace_of_ok {m : AnyModel α} {d d' : LooseData α} {u : Option (List α)}
    (h : m.evaluate d x u = .ok d') : m.model.evaluateInPlace x u d = .ok () d' := by
  obtain ⟨e, he, h⟩ := exists_of_bind_ok h
  obtain rfl := Except.ok.inj h
  have hop := m.model.evaluates x u d
  rw [he] at hop
  exact hop

theorem run_fillStage {t : Nat} {u : List α} (h : p.evaluateStage t x u = .ok (q, e)) :
    fillStage t x u p = .ok e q := by
  unfold evaluateStage at h
  unfold fillStage
  rw [run_get_bind]
  cases hmodel : p.models[t]? with
  | none =>
    rw [hmodel] at h
    cases h
  | some m =>
    rw [hmodel] at h
    obtain ⟨⟨⟩, hcheck, h⟩ := exists_of_bind_ok h
    obtain ⟨d, hd, h⟩ := exists_of_bind_ok h
    obtain ⟨d', hd', h⟩ := exists_of_bind_ok h
    obtain ⟨datas, hdatas, h⟩ := exists_of_bind_ok h
    obtain ⟨rfl, rfl⟩ := Prod.mk.inj (Except.ok.inj h)
    obtain ⟨ht, rfl⟩ := Loose.put_eq_ok_iff.mp hdatas
    have hstage : onStage t (m.model.evaluateInPlace x (some u)) p =
        .ok () { p with datas := p.datas.set t d' } :=
      onStage_ok (Loose.entry_eq_ok_iff.mp hd) (run_evaluateInPlace_of_ok hd')
    have hentry : (Loose.entry (p.datas.set t d') t : Loose (ProblemError α) _) = .ok d' :=
      Loose.entry_eq_ok_iff.mpr (List.getElem?_set_self ht)
    dsimp only
    rw [run_bind _ (run_found hcheck p), run_bind _ hstage, run_get_bind,
      run_bind _ (run_found hentry _)]
    rfl

theorem run_fillTerminal (h : p.evaluateTerminal x = .ok (q, e)) :
    fillTerminal x p = .ok e q := by
  obtain ⟨⟨⟩, hcheck, h⟩ := exists_of_bind_ok h
  obtain ⟨d, hd, h⟩ := exists_of_bind_ok h
  obtain ⟨rfl, rfl⟩ := Prod.mk.inj (Except.ok.inj h)
  have hterminal := onTerminal_ok (run_evaluateInPlace_of_ok hd)
  unfold fillTerminal
  rw [run_get_bind, run_bind _ (run_found hcheck p), run_bind _ hterminal, run_get_bind]
  rfl

end LooseProblem

/-! ## One candidate -/

namespace LooseWorkspace

open Trying

/-- Rolls a candidate out over `n` more running stages, the next of them number `t`, and over the
last one. -/
def tryFromInPlace (length : α) (closing : Bool) :
    (n t : Nat) → (predicted : List α) → (cost : α) → Trying α (Option α)
  | 0, t, predicted, cost => do
    let w := (← get).2
    let x ← found (w.landing length closing t predicted)
    let e ← onProblem (LooseProblem.fillTerminal x)
    if e.isFinite && x.all Scalar.isFinite then
      putState t x
      return some (cost + e.cost)
    else return none
  | n + 1, t, predicted, cost => do
    let w := (← get).2
    let x ← found (w.landing length closing t predicted)
    let u ← found (w.steer length t x)
    let e ← onProblem (LooseProblem.fillStage t x u)
    if e.isFinite && x.all Scalar.isFinite && u.all Scalar.isFinite then
      putState t x
      putControl t u
      tryFromInPlace length closing n (t + 1) e.next (cost + e.cost)
    else return none

/-- Rolls a candidate of the given step length out, and says at which cost if all is finite. -/
def tryStepInPlace (length : α) : Trying α (Option α) := do
  let (p, w) ← get
  tryFromInPlace length (w.feasible || length == 1) w.current.horizon 0 p.start 0

/-- What is read of a workspace is not what is written. -/
theorem tryFrom_withTrial (w : LooseWorkspace α) (trial : Trajectory α) (length : α)
    (closing : Bool) (n : Nat) : ∀ (t : Nat) (predicted : List α) (cost : α) (p : LooseProblem α)
    (room : Trajectory α),
    ({ w with trial }).tryFrom length closing n t predicted cost p room =
      w.tryFrom length closing n t predicted cost p room := by
  induction n with
  | zero =>
    intro t predicted cost p room
    rfl
  | succ n ih =>
    intro t predicted cost p room
    unfold tryFrom
    simp only [ih]
    rfl

theorem run_tryFromInPlace (length : α) (closing : Bool) (n : Nat) : ∀ {t : Nat}
    {predicted : List α} {cost : α} {p q : LooseProblem α} {w : LooseWorkspace α}
    {trial : Trajectory α} {outcome : Option α},
    w.tryFrom length closing n t predicted cost p w.trial = .ok (q, trial, outcome) →
    tryFromInPlace length closing n t predicted cost (p, w) =
      .ok outcome (q, { w with trial }) := by
  induction n with
  | zero =>
    intro t predicted cost p q w trial outcome h
    obtain ⟨x, hx, h⟩ := exists_of_bind_ok h
    obtain ⟨⟨p', e⟩, he, h⟩ := exists_of_bind_ok h
    unfold tryFromInPlace
    rw [run_get_bind, run_bind _ (run_found hx (p, w)),
      run_bind _ (run_onProblem (LooseProblem.run_fillTerminal he) w)]
    dsimp only at h
    by_cases hfinite : (e.isFinite && x.all Scalar.isFinite) = true
    · rw [if_pos hfinite] at h
      obtain ⟨states, hstates, h⟩ := exists_of_bind_ok h
      obtain ⟨rfl, hleft⟩ := Prod.mk.inj (Except.ok.inj h)
      obtain ⟨rfl, rfl⟩ := Prod.mk.inj hleft
      rw [if_pos hfinite, run_bind _ (run_putState hstates p')]
      rfl
    · rw [if_neg hfinite] at h
      obtain ⟨rfl, hleft⟩ := Prod.mk.inj (Except.ok.inj h)
      obtain ⟨rfl, rfl⟩ := Prod.mk.inj hleft
      rw [if_neg hfinite]
      rfl
  | succ n ih =>
    intro t predicted cost p q w trial outcome h
    obtain ⟨x, hx, h⟩ := exists_of_bind_ok h
    obtain ⟨u, hu, h⟩ := exists_of_bind_ok h
    obtain ⟨⟨p', e⟩, he, h⟩ := exists_of_bind_ok h
    unfold tryFromInPlace
    rw [run_get_bind, run_bind _ (run_found hx (p, w)), run_bind _ (run_found hu (p, w)),
      run_bind _ (run_onProblem (LooseProblem.run_fillStage he) w)]
    dsimp only at h
    by_cases hfinite : (e.isFinite && x.all Scalar.isFinite && u.all Scalar.isFinite) = true
    · rw [if_pos hfinite] at h
      obtain ⟨states, hstates, h⟩ := exists_of_bind_ok h
      obtain ⟨controls, hcontrols, h⟩ := exists_of_bind_ok h
      rw [if_pos hfinite, run_bind _ (run_putState hstates p'),
        run_bind _ (run_putControl (w := { w with trial.states := states }) hcontrols p')]
      -- the rest reads the workspace as it is now, which differs in the candidate alone
      rw [← tryFrom_withTrial w ⟨states, controls⟩] at h
      exact ih h
    · rw [if_neg hfinite] at h
      obtain ⟨rfl, hleft⟩ := Prod.mk.inj (Except.ok.inj h)
      obtain ⟨rfl, rfl⟩ := Prod.mk.inj hleft
      rw [if_neg hfinite]
      rfl

/-- **Rolling a candidate out in place comes to what rolling it out comes to.** -/
theorem run_tryStepInPlace {w w' : LooseWorkspace α} {p q : LooseProblem α} {length : α}
    {outcome : Option α} (h : w.tryStep p length = .ok (q, w', outcome)) :
    tryStepInPlace length (p, w) = .ok outcome (q, w') := by
  obtain ⟨⟨p', trial, found⟩, hfrom, h⟩ := exists_of_bind_ok h
  obtain ⟨rfl, hleft⟩ := Prod.mk.inj (Except.ok.inj h)
  obtain ⟨rfl, rfl⟩ := Prod.mk.inj hleft
  exact run_tryFromInPlace length _ _ hfrom

end LooseWorkspace

/-! ## What fits was typed -/

variable {s : StateSpace} {nus : List Nat}

omit [Scalar α] in
theorem Table.exists_ofMat_eq {t : Table α} {m n : Nat} (h : t.shape = (m, n)) :
    ∃ a : Mat α m n, .ofMat a = t := by
  obtain ⟨rows, cols, entry⟩ := t
  obtain ⟨rfl, rfl⟩ := Prod.mk.inj h
  refine ⟨.ofFn entry, congrArg (Table.mk rows cols) ?_⟩
  funext i j
  exact Mat.get_ofFn entry i j

/-- Gains of the right sizes are those of a policy. -/
theorem exists_gains {ndx : Nat} (nus : List Nat) : ∀ {ks : List (List α)} {Ks : List (Table α)},
    ks.map List.length = nus → Ks.map Table.shape = nus.map (fun nu => (nu, ndx)) →
    ∃ policy : Policy α ndx nus, policy.looseStages.map LooseStagePolicy.feedforward = ks ∧
      policy.looseStages.map LooseStagePolicy.feedback = Ks := by
  induction nus with
  | nil =>
    intro ks Ks hks hKs
    obtain rfl := List.map_eq_nil_iff.mp hks
    obtain rfl := List.map_eq_nil_iff.mp hKs
    exact ⟨.last ⟨0, 0⟩, rfl, rfl⟩
  | cons nu nus ih =>
    intro ks Ks hks hKs
    obtain ⟨k, ks, rfl, hk, hrest⟩ := List.map_eq_cons_iff.mp hks
    obtain ⟨K, Ks, rfl, hK, hRest⟩ := List.map_eq_cons_iff.mp hKs
    obtain ⟨v, rfl⟩ := Vec.exists_toList_eq hk
    obtain ⟨a, rfl⟩ := Table.exists_ofMat_eq hK
    obtain ⟨ps, hff, hfb⟩ := ih hrest hRest
    exact ⟨.stage ⟨⟨0, 0, 0, 0, 0⟩, ⟨v, a⟩, ⟨0, 0⟩⟩ ps, congrArg (v.toList :: ·) hff,
      congrArg (Table.ofMat a :: ·) hfb⟩

namespace LooseWorkspace

/-- A workspace that fits is read as a path, its gaps and a policy. -/
theorem Fits.exists_reads {p : Problem α s nus} {w : LooseWorkspace α} (h : w.Fits p.toLoose) :
    ∃ (path : Path α s nus) (gaps : Gaps α s nus) (policy : Policy α s.ndx nus),
      w.ReadsFrom 0 path gaps policy := by
  have hmodels {β : Type} (f : AnyModel α → β) (size : Nat → β)
      (hsize : ∀ {nu} (m : Model α s nu), f ⟨s, nu, m⟩ = size nu) :
      p.toLoose.models.map f = nus.map size := LooseProblem.map_models p f size hsize
  have hspaces := LooseProblem.spaces_toLoose p
  have hgaps := h.gaps
  rw [hspaces, List.map_replicate, List.eq_replicate_iff, List.length_map, List.forall_mem_map]
    at hgaps
  have hfeedforward := h.policy.feedforward
  rw [hmodels AnyModel.nu id fun _ => rfl, List.map_id] at hfeedforward
  have hfeedback := h.policy.feedback
  rw [hmodels _ (fun nu => (nu, s.ndx)) fun _ => rfl] at hfeedback
  obtain ⟨path, hpath⟩ := LooseProblem.exists_path_of_fits p h.current
  obtain ⟨gaps, hgaps⟩ := exists_vectors hgaps.1 hgaps.2
  obtain ⟨policy, hff, hfb⟩ := exists_gains nus hfeedforward hfeedback
  exact ⟨path, gaps, policy, h.spaces.trans hspaces, (congrArg Trajectory.states hpath).symm,
    (congrArg Trajectory.controls hpath).symm, hgaps.symm, hff.symm, hfb.symm⟩

/-- What a candidate is made of, the step length and the problem apart, is the same in two
workspaces. -/
structure Agrees (w w' : LooseWorkspace α) : Prop where
  current : w.current = w'.current
  gaps : w.gaps = w'.gaps
  feedforward : w.policy.feedforward = w'.policy.feedforward
  feedback : w.policy.feedback = w'.policy.feedback
  feasible : w.feasible = w'.feasible

omit [Scalar α] in
/-- Workspaces that agree are read in the same way. -/
theorem Agrees.reads {w w' : LooseWorkspace α} {p : Problem α s nus} {path : Path α s nus}
    {gaps : Gaps α s nus} {policy : Policy α s.ndx nus} (h : w'.Agrees w)
    (hfits : w'.Fits p.toLoose) (hreads : w.ReadsFrom 0 path gaps policy) :
    w'.ReadsFrom 0 path gaps policy where
  spaces := hfits.spaces.trans (LooseProblem.spaces_toLoose p)
  states := by rw [h.current]; exact hreads.states
  controls := by rw [h.current]; exact hreads.controls
  gaps := by rw [h.gaps]; exact hreads.gaps
  feedforward := by rw [h.feedforward]; exact hreads.feedforward
  feedback := by rw [h.feedback]; exact hreads.feedback

/-- Trying a step from what is read tries the step of a typed workspace. Which one it is besides does
not matter. -/
theorem tryStep_of_reads (typed : Workspace α s nus) {w : LooseWorkspace α} {p : Problem α s nus}
    (hreads : w.ReadsFrom 0 typed.path typed.gaps typed.policy)
    (hfeasible : w.feasible = typed.feasible) (htrial : w.trial.Fits p.toLoose) (length : α) :
    ∃ trial : Path α s nus,
      w.tryStep p.toLoose length =
        .ok ((typed.tryStep p length).1.toLoose, { w with trial := trial.toTrajectory },
          (typed.tryStep p length).2.map Prod.fst) ∧
      ∀ found ∈ (typed.tryStep p length).2, trial = found.2 := by
  obtain ⟨room, hroom⟩ := LooseProblem.exists_path_of_fits p htrial
  obtain ⟨trial, hfrom, hfound⟩ := tryFrom_toLoose length (w.feasible || length == 1)
    p.start.toList [] [] [] p.start 0 p.stages typed.path typed.gaps typed.policy room hreads rfl
    rfl
  have hcontrols : w.current.controls = typed.path.toTrajectory.controls := hreads.controls
  have hhorizon : w.current.horizon = nus.length := by
    unfold Trajectory.horizon
    rw [hcontrols]
    exact Horizon.length_running _ typed.path
  simp only [List.nil_append, hroom] at hfrom
  rw [hfeasible] at hfrom hfound
  refine ⟨trial, ?_, hfound⟩
  unfold tryStep
  rw [hhorizon, hfeasible]
  exact (congrArg (· >>= _) hfrom).trans rfl

end LooseWorkspace

/-- Evaluating along a complete candidate again changes nothing, and answers its cost. -/
theorem Workspace.evaluate_tryStep {w : Workspace α s nus} {p q : Problem α s nus} {length cost : α}
    {path : Path α s nus} (h : w.tryStep p length = (q, some (cost, path))) :
    q.evaluate path = q ∧ q.totalCost = cost := by
  have hsame : q.Reevaluates p := by
    have hq := w.tryStep_reevaluates p length
    rw [h] at hq
    exact hq
  have hstored := storedEvaluations_tryStep h
  constructor
  · refine congrArg (Problem.mk q.start) (Stages.eq_of_stored ?_ ?_ ?_)
    · exact Stages.models_evaluate _ _
    · rw [Stages.storedEvaluations_evaluate, hstored]
    · exact Stages.storedExpansions_evaluate _ _
  · rw [Problem.totalCost_eq_costAlong hstored, hsame.toSame.costAlong, cost_tryStep h]

namespace LooseWorkspace

/-- **A candidate agrees with an evaluation of the whole path.** Rolling it out comes to an end, and
writes nothing of the workspace but the candidate. If all was finite, evaluating the problem along
the candidate answers the same cost and changes nothing, and from any other data, with anything else
in the room for candidates, the same candidate comes out at the same cost. -/
theorem candidate_agrees {p : Problem α s nus} (hlib : p.stages.models.ofLibrary = true)
    {w : LooseWorkspace α} (hfits : w.Fits p.toLoose) (length : α) :
    ∃ (q : Problem α s nus) (trial : Trajectory α) (outcome : Option α),
      tryStepInPlace length (p.toLoose, w) = .ok outcome (q.toLoose, { w with trial }) ∧
      q.Reevaluates p ∧ trial.Fits q.toLoose ∧
      ∀ cost, outcome = some cost →
        q.evaluate? trial.states trial.controls = .ok (q, cost) ∧
        LooseProblem.sweepInPlace .evaluate (List.range nus.length) trial.states trial.controls
          q.toLoose = .ok cost q.toLoose ∧
        ∀ (p' : Problem α s nus) (w' : LooseWorkspace α), p'.Same p → w'.Fits p'.toLoose →
          w'.Agrees w → ∃ q' : Problem α s nus, q'.Reevaluates p' ∧
            tryStepInPlace length (p'.toLoose, w') =
              .ok (some cost) (q'.toLoose, { w' with trial }) := by
  obtain ⟨path, gaps, policy, hreads⟩ := hfits.exists_reads
  -- in memory nothing is typed; what a candidate reads is that of this workspace
  let typed : Workspace α s nus :=
    ⟨path, gaps, policy, w.damping, w.expected, w.cost, w.feasible⟩
  obtain ⟨trial, htry, hfound⟩ :=
    tryStep_of_reads typed hreads rfl hfits.trial length
  have hsame := typed.tryStep_reevaluates p length
  refine ⟨(typed.tryStep p length).1, trial.toTrajectory, _, run_tryStepInPlace htry, hsame,
    trial.fits_toTrajectory _, ?_⟩
  intro cost hcost
  obtain ⟨⟨c, candidate⟩, hsome, rfl⟩ := Option.map_eq_some_iff.mp hcost
  obtain rfl : trial = candidate := hfound _ hsome
  obtain ⟨hevaluated, htotal⟩ := Workspace.evaluate_tryStep (Prod.ext rfl hsome)
  have hagain : Sweep.evaluate.problem (typed.tryStep p length).1 trial =
      (typed.tryStep p length).1 := hevaluated
  have hpath := Problem.path?_toTrajectory (p := (typed.tryStep p length).1) trial
  refine ⟨?_, ?_, ?_⟩
  -- the typed evaluation, the sweep in memory, and the same candidate from other data
  · have hevaluate := Sweep.evaluate.problem?_of_path hpath
    rw [hagain, htotal] at hevaluate
    exact hevaluate
  · have hmodels : (typed.tryStep p length).1.stages.models.ofLibrary = true :=
      (congrArg Models.ofLibrary hsame.models).trans hlib
    have hsweep := LooseProblem.run_sweepInPlace hmodels trial .evaluate (List.range nus.length)
    rw [Sweep.inOrder_eq .evaluate (.refl _), hagain, htotal] at hsweep
    exact hsweep
  · intro p' w' hp' hw' hagrees
    obtain ⟨trial', htry', hfound'⟩ := tryStep_of_reads typed
      (hagrees.reads hw' hreads) hagrees.feasible hw'.trial length
    have hcandidate := typed.tryStep_congr hp' length
    rw [hsome] at hcandidate
    obtain rfl : trial' = trial := hfound' _ hcandidate
    rw [hcandidate] at htry'
    exact ⟨(typed.tryStep p' length).1, typed.tryStep_reevaluates p' length,
      run_tryStepInPlace htry'⟩

/-- A full step of one stage, with two different trajectories in the room for it. -/
theorem candidate_agrees_push :
    let p := Problem.push Float
    let w := LooseWorkspace.start p.toLoose ⟨[[1], [2]], [[3]]⟩ false 0
    let w' := { w with trial := ⟨[[4], [5]], [[6]]⟩ }
    p.stages.models.ofLibrary = true ∧ w.Fits p.toLoose ∧ w'.Fits p.toLoose ∧ w'.Agrees w ∧
      ∃ (q q' : Problem Float (.euclidean 1) [1]) (trial : Trajectory Float) (cost : Float),
        tryStepInPlace 1 (p.toLoose, w) = .ok (some cost) (q.toLoose, { w with trial }) ∧
        q.evaluate? trial.states trial.controls = .ok (q, cost) ∧
        tryStepInPlace 1 (p.toLoose, w') = .ok (some cost) (q'.toLoose, { w' with trial }) := by
  intro p w w'
  have hfits : w.Fits p.toLoose :=
    ⟨rfl, ⟨rfl, rfl⟩, ⟨rfl, rfl⟩, rfl, ⟨rfl, rfl, rfl, rfl, rfl, rfl, rfl, rfl, rfl⟩⟩
  have hfits' : w'.Fits p.toLoose :=
    ⟨rfl, ⟨rfl, rfl⟩, ⟨rfl, rfl⟩, rfl, ⟨rfl, rfl, rfl, rfl, rfl, rfl, rfl, rfl, rfl⟩⟩
  have hagrees : w'.Agrees w := ⟨rfl, rfl, rfl, rfl, rfl⟩
  have hlib : p.stages.models.ofLibrary = true := rfl
  obtain ⟨q, trial, outcome, htry, -, -, hcomplete⟩ := candidate_agrees hlib hfits 1
  have hsome : (match tryStepInPlace 1 (p.toLoose, w) with
      | .ok outcome _ => outcome.isSome
      | .error _ _ => false) = true := by
    decide +kernel
  rw [htry] at hsome
  obtain ⟨cost, rfl⟩ := Option.isSome_iff_exists.mp hsome
  obtain ⟨hevaluate, -, hagain⟩ := hcomplete cost rfl
  obtain ⟨q', -, htry'⟩ := hagain p w' (.refl p) hfits' hagrees
  exact ⟨hlib, hfits, hfits', hagrees, q, q', trial, cost, htry, hevaluate, htry'⟩

end LooseWorkspace

end Shooting
