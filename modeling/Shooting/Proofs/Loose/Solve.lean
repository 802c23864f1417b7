import Shooting.Proofs.Loose.Trial
import Shooting.Proofs.Solver.Course

/-!
# Solving in memory

A solver in memory keeps the workspace of its last solve, which may have been one of quite another
problem. A solve that gets past the checks of its arguments puts a workspace of its own in its place
(`LooseWorkspace.start`); one that does not leaves it alone.

A solve in memory then goes through the same iterations as a solve: one step on each side leads from
a run and its lists to a run and its lists (`iterate_toLoose`), and the induction over the budget is
the same on both sides (`iterateFrom_toLoose`). `solve_begun` puts it together. As with the line
search, the room for candidates holds a trajectory that the typed solve does not know; that it fits
is all there is to say about it.
-/

namespace Shooting

variable {α ε : Type} [Scalar α] {s : StateSpace} {nu : Nat} {nus : List Nat}

/-! ## The workspace -/

namespace LooseWorkspace

/-- The workspace at the start of a solve. -/
def start (p : LooseProblem α) (current : Trajectory α) (feasible : Bool) (regularization : α) :
    LooseWorkspace α :=
  { spaces := p.spaces
    current
    trial := current
    gaps := p.spaces.map fun s => Loose.zeros s.ndx
    policy := {
      vx := p.spaces.map fun s => Loose.zeros s.ndx
      vxx := p.spaces.map fun s => Loose.zeroMat s.ndx s.ndx
      qx := p.models.map fun m => Loose.zeros m.space.ndx
      qu := p.models.map fun m => Loose.zeros m.nu
      qxx := p.models.map fun m => Loose.zeroMat m.space.ndx m.space.ndx
      qxu := p.models.map fun m => Loose.zeroMat m.space.ndx m.nu
      quu := p.models.map fun m => Loose.zeroMat m.nu m.nu
      feedforward := p.models.map fun m => Loose.zeros m.nu
      feedback := p.models.map fun m => Loose.zeroMat m.nu m.space.ndx }
    damping := ⟨regularization, regularization⟩
    expected := ⟨0, 0, 0⟩
    cost := 0
    feasible }

/-- Raises both regularizations. -/
def raise (w : LooseWorkspace α) (c : Config α) : LooseWorkspace α :=
  { w with damping := ⟨c.raise w.damping.state, c.raise w.damping.control⟩ }

/-- Lowers both regularizations. -/
def lower (w : LooseWorkspace α) (c : Config α) : LooseWorkspace α :=
  { w with damping := ⟨c.lower w.damping.state, c.lower w.damping.control⟩ }

/-- Whether the regularization is at its bound. -/
def isSaturated (w : LooseWorkspace α) (c : Config α) : Bool :=
  decide (c.regularizationMax ≤ w.damping.state)

/-- The status of a feasible trajectory whose policy promises nothing more. -/
def verdict (w : LooseWorkspace α) (c : Config α) : Option Status :=
  if !w.feasible then none
  else if w.expected.stop < c.stopThreshold then some .converged
  else if Scalar.abs w.expected.first < c.gradientThreshold then some .gradientToleranceReached
  else none

/-- Takes a candidate and adapts the regularization to its step length. -/
def take (w : LooseWorkspace α) (c : Config α) (cost length : α) : LooseWorkspace α :=
  let w := w.accept cost length
  let w := if c.shrinkAbove < length then w.lower c else w
  if length ≤ c.growUpTo then w.raise c else w

theorem take_toLoose (w : Workspace α s nus) (c : Config α) (path : Path α s nus)
    (cost length : α) :
    (w.toLoose path).take c cost length =
      (let w := w.accept cost path length
       let w := if c.shrinkAbove < length then w.lower c else w
       if length ≤ c.growUpTo then w.raise c else w : Workspace α s nus).toLoose w.path := by
  unfold take
  rw [accept_toLoose]
  dsimp only
  split <;> split <;> rfl

omit [Scalar α] in
theorem running_replicate {F : Nat → Type} {G β : Type} (f : ∀ nu, F nu) (g : G)
    (r : ∀ {nu}, F nu → β) : ∀ nus : List Nat,
    (Horizon.replicate f g nus).running r = nus.map fun nu => r (f nu)
  | [] => rfl
  | _ :: nus => congrArg (_ :: ·) (running_replicate f g r nus)

omit [Scalar α] in
theorem final_replicate {F : Nat → Type} {G : Type} (f : ∀ nu, F nu) (g : G) : ∀ nus : List Nat,
    (Horizon.replicate f g nus).final = g
  | [] => rfl
  | _ :: nus => final_replicate f g nus

/-- **A solve starts in memory where it starts.** -/
theorem start_toLoose (p : Problem α s nus) (path : Path α s nus) (feasible : Bool)
    (regularization : α) :
    start p.toLoose path.toTrajectory feasible regularization =
      (Workspace.start path feasible regularization).toLoose path := by
  have hmodels {β : Type} (f : AnyModel α → β) (size : Nat → β)
      (hsize : ∀ {nu} (m : Model α s nu), f ⟨s, nu, m⟩ = size nu) :
      p.toLoose.models.map f = nus.map size := LooseProblem.map_models p f size hsize
  unfold start Workspace.toLoose Workspace.start Policy.toLoose Policy.looseStages
    LoosePolicy.ofStages Gaps.toLists Horizon.toList
  simp only [LooseProblem.spaces_toLoose, running_replicate, final_replicate, List.map_map,
    List.replicate_succ']
  rw [hmodels _ (fun _ => Loose.zeros s.ndx) fun _ => rfl,
    hmodels _ (fun nu => Loose.zeros nu) fun _ => rfl,
    hmodels _ (fun _ => Loose.zeroMat s.ndx s.ndx) fun _ => rfl,
    hmodels _ (fun nu => Loose.zeroMat s.ndx nu) fun _ => rfl,
    hmodels _ (fun nu => Loose.zeroMat nu nu) fun _ => rfl,
    hmodels _ (fun nu => Loose.zeroMat nu s.ndx) fun _ => rfl]
  simp only [Loose.zeros_eq, ← List.map_const', List.map_append, List.map_map, List.map_cons,
    List.map_nil]
  rfl

end LooseWorkspace

/-! ## Iterations -/

/-- A solve in memory between two iterations. -/
structure LooseRun (α : Type) where
  problem : LooseProblem α
  workspace : LooseWorkspace α
  unexpanded : Bool
  stale : Bool

/-- What an iteration in memory comes to. -/
inductive LooseStep (α : Type) where
  | next (run : LooseRun α)
  | stop (run : LooseRun α) (status : Status) (iterations : Nat)
  | fail (run : LooseRun α) (cause : SolverError α)

/-- What a solve in memory answers. -/
structure LooseResult (α : Type) where
  trajectory : Trajectory α
  status : Status
  finalCost : α
  iterations : Nat
  gaps : List (List α)

/-- What a solve in memory leaves behind. -/
structure LooseSolved (α : Type) where
  problem : LooseProblem α
  workspace : Option (LooseWorkspace α)
  /-- Whether the arguments were accepted. -/
  begun : Bool
  outcome : Except (Refusal (Error α)) (LooseResult α)

/-- Whether everything stored consists of ordinary numbers. -/
def LooseProblem.isFinite (p : LooseProblem α) : Bool :=
  p.datas.all LooseData.isFinite && p.terminalData.isFinite

namespace LooseRun

/-- Takes the gaps of the current trajectory. -/
def measure (r : LooseRun α) : Loose (ProblemError α) (LooseRun α) := do
  return { r with workspace.gaps := ← r.problem.gaps r.workspace.current.states }

/-- Expands the problem along the current trajectory and takes its gaps, unless that is done
already. -/
def refresh (r : LooseRun α) (iteration : Nat) :
    Loose (ProblemError α) (LooseRun α × Option (SolverError α)) := do
  if r.unexpanded then
    let (problem, _) ← r.problem.expand r.workspace.current.states r.workspace.current.controls
    if problem.isFinite then
      return (← LooseRun.measure { r with problem, unexpanded := false }, none)
    else
      return ({ r with problem },
        some (.invalidNumericValue (.derivatives iteration) r.workspace.current))
  else return (r, none)

/-- The line search of an iteration, and what follows from it. -/
def advance (c : Config α) (r : LooseRun α) (iteration : Nat) :
    Loose (ProblemError α) (LooseStep α) := do
  let search ← r.workspace.lineSearch c r.problem
  let w := search.workspace
  match search.found with
  | some (length, cost) =>
    return .next ⟨search.problem, w.take c cost length, true, false⟩
  | none =>
    let r := { r with problem := search.problem, workspace := w.raise c, stale := true }
    if w.isSaturated c then return .stop r .regularizationSaturated (iteration + 1)
    else return .next r

/-- Ends the solve if the policy promises nothing more, and searches the line otherwise. -/
def conclude (c : Config α) (r : LooseRun α) (iteration : Nat) :
    Loose (ProblemError α) (LooseStep α) :=
  match r.workspace.verdict c with
  | some status => return .stop r status iteration
  | none => r.advance c iteration

/-- One iteration. -/
def iterate (c : Config α) (r : LooseRun α) (iteration : Nat) :
    Loose (ProblemError α) (LooseStep α) := do
  let (r, cause) ← r.refresh iteration
  match cause with
  | some e => return .fail r e
  | none =>
    let w := r.workspace
    let (policy, failure) ← r.problem.backward w.damping w.feasible w.gaps w.policy
    let w := { w with policy }
    match failure with
    | some _ =>
      if w.isSaturated c then
        return .stop { r with workspace := w } .regularizationSaturated iteration
      else return .next { r with workspace := w.raise c }
    | none =>
      let expected ← policy.expected w.gaps w.current.horizon w.feasible
      LooseRun.conclude c { r with workspace := { w with expected } } iteration

/-- Brings the stored evaluations and the gaps back in line with the current trajectory. -/
def settle (r : LooseRun α) : Loose (ProblemError α) (LooseRun α) := do
  if r.stale then
    let (problem, cost) ←
      r.problem.evaluate r.workspace.current.states r.workspace.current.controls
    LooseRun.measure { r with problem, workspace.cost := cost }
  else r.measure

/-- Ends a solve with a result. -/
def finish (r : LooseRun α) (status : Status) (iterations : Nat) :
    Loose (ProblemError α) (LooseSolved α) := do
  let r ← r.settle
  let w := r.workspace
  return ⟨r.problem, some w, true, .ok ⟨w.current, status, w.cost, iterations, w.gaps⟩⟩

/-- Ends a solve with an error. -/
def abort (r : LooseRun α) (e : SolverError α) : LooseSolved α :=
  ⟨r.problem, some r.workspace, true, .error (.error (.solver e))⟩

/-- Iterates at most `budget` more times, the next iteration being number `iteration`. -/
def iterateFrom (c : Config α) (clock : Nat → Nat) :
    (budget iteration : Nat) → LooseRun α → Loose (ProblemError α) (LooseSolved α)
  | 0, iteration, r => r.finish .maxIterationsReached iteration
  | n + 1, iteration, r => do
    if Run.isTimedOut c clock iteration then r.finish .timeout iteration
    else
      match ← r.iterate c iteration with
      | .next r => iterateFrom c clock n (iteration + 1) r
      | .stop r status iterations => r.finish status iterations
      | .fail r e => return r.abort e

end LooseRun

omit [Scalar α] in
/-- Forgets the sizes of a run; `trial` is what is in the room for candidates. -/
def Run.toLoose (r : Run α s nus) (trial : Path α s nus) : LooseRun α :=
  ⟨r.problem.toLoose, r.workspace.toLoose trial, r.unexpanded, r.stale⟩

omit [Scalar α] in
/-- Forgets the sizes of what an iteration comes to. -/
def Step.toLoose (trial : Path α s nus) : Step α s nus → LooseStep α
  | next r => .next (r.toLoose trial)
  | stop r status iterations => .stop (r.toLoose trial) status iterations
  | fail r e => .fail (r.toLoose trial) e

omit [Scalar α] in
/-- Forgets the sizes of a result. -/
def SolveResult.toLoose (res : SolveResult α) : LooseResult α :=
  ⟨res.trajectory, res.status, res.finalCost, res.iterations, res.gaps⟩

omit [Scalar α] in
/-- Forgets the sizes of what a solve leaves behind whose arguments were accepted. -/
def Solved.toLoose (trial : Path α s nus) (solved : Solved α s nus) : LooseSolved α where
  problem := solved.problem.toLoose
  workspace := solved.solver.workspace.map fun w => w.toLoose trial
  begun := true
  outcome := solved.outcome.map SolveResult.toLoose

namespace LooseProblem

theorem isFinite_toLoose (p : Problem α s nus) : p.toLoose.isFinite = p.stages.isFinite := by
  have hrunning : ∀ {nus : List Nat} (stages : Stages α s nus),
      (stages.toLoose.map LooseStage.data).all LooseData.isFinite =
        (stages.running fun st => st.data.isFinite).all id := by
    intro nus stages
    induction stages with
    | last _ => rfl
    | stage st rest ih =>
      rw [Stages.toLoose_stage, List.map_cons, List.all_cons, ih]
      exact congrArg (· && _) st.data.isFinite_toLoose
  unfold isFinite Stages.isFinite
  rw [← hrunning p.stages]
  exact congrArg (_ && ·) p.stages.final.data.isFinite_toLoose

theorem expand_path (p : Problem α s nus) (path : Path α s nus) :
    p.toLoose.expand path.toTrajectory.states path.toTrajectory.controls =
      .ok ((p.expand path).toLoose, (p.expand path).totalCost) := by
  rw [expand_toLoose, Problem.expand?, Problem.path?_toTrajectory]
  rfl

theorem evaluate_path (p : Problem α s nus) (path : Path α s nus) :
    p.toLoose.evaluate path.toTrajectory.states path.toTrajectory.controls =
      .ok ((p.evaluate path).toLoose, (p.evaluate path).totalCost) := by
  rw [evaluate_toLoose, Problem.evaluate?, Problem.path?_toTrajectory]
  rfl

end LooseProblem

namespace LooseRun

variable (c : Config α) (r : Run α s nus) (trial : Path α s nus)

theorem measure_toLoose : (r.toLoose trial).measure = .ok (Run.toLoose { r with
    workspace.gaps := r.problem.gaps r.workspace.path } trial) :=
  (congrArg (· >>= _) (LooseProblem.gaps_toLoose r.problem r.workspace.path)).trans rfl

/-- What preparing a run in memory comes to is what preparing the run comes to. -/
theorem refresh_toLoose (i : Nat) :
    (r.toLoose trial).refresh i = .ok (match r.refresh i with
      | .ok r' => (r'.toLoose trial, none)
      | .error (r', e) => (r'.toLoose trial, some e)) := by
  unfold refresh Run.refresh
  show (if r.unexpanded = true then _ else _) = _
  by_cases hun : r.unexpanded = true
  · rw [if_pos hun, if_pos hun]
    have hexpand := LooseProblem.expand_path r.problem r.workspace.path
    have hmeasure := measure_toLoose { r with
      problem := r.problem.expand r.workspace.path
      unexpanded := false } trial
    have hfinite := LooseProblem.isFinite_toLoose (r.problem.expand r.workspace.path)
    refine (congrArg (· >>= _) hexpand).trans ?_
    rw [Loose.ok_bind]
    dsimp only
    rw [hfinite]
    by_cases hfin : (r.problem.expand r.workspace.path).stages.isFinite = true
    · rw [if_pos hfin, if_pos hfin]
      exact (congrArg (· >>= _) hmeasure).trans rfl
    · rw [if_neg hfin, if_neg hfin]
      rfl
  · rw [if_neg hun, if_neg hun]
    rfl

/-- The line search of a run in memory takes the step that the line search of the run takes. -/
theorem advance_toLoose (i : Nat) (feasibility : α) :
    ∃ trial' : Path α s nus,
      (r.toLoose trial).advance c i = .ok (Step.toLoose trial' (match (r.search c).found with
        | some f => (r.searched c).afterStep c i f feasibility
        | none => (r.searched c).afterRejection c i (r.search c).length feasibility)) := by
  obtain ⟨trial', hsearch, hfound⟩ :=
    LooseWorkspace.lineSearch_toLoose c r.workspace r.problem trial
  have hadvance : (r.toLoose trial).advance c i =
      ((r.workspace.toLoose trial).lineSearch c r.problem.toLoose >>= _) := rfl
  rw [hadvance, hsearch, Loose.ok_bind]
  unfold Run.searched Run.search
  generalize Shooting.lineSearch c r.workspace r.problem = search at hfound ⊢
  dsimp only
  cases hcase : search.found with
  | some f =>
    obtain rfl := hfound f hcase
    rw [Option.map_some]
    dsimp only
    rw [LooseWorkspace.take_toLoose]
    exact ⟨r.workspace.path, rfl⟩
  | none =>
    rw [Option.map_none]
    have hsaturated : (r.workspace.toLoose trial').isSaturated c = r.workspace.isSaturated c := rfl
    dsimp only
    rw [hsaturated]
    unfold Run.afterRejection
    dsimp only
    refine ⟨trial', ?_⟩
    by_cases hbound : r.workspace.isSaturated c = true
    · rw [if_pos hbound, if_pos hbound]
      rfl
    · rw [if_neg hbound, if_neg hbound]
      rfl

theorem conclude_toLoose (i : Nat) (feasibility : α) :
    ∃ trial' : Path α s nus,
      (r.toLoose trial).conclude c i = .ok (Step.toLoose trial' (match r.workspace.verdict c with
        | some status => .stop r status i
        | none => match (r.search c).found with
          | some f => (r.searched c).afterStep c i f feasibility
          | none => (r.searched c).afterRejection c i (r.search c).length feasibility)) := by
  have hverdict : (r.toLoose trial).workspace.verdict c = r.workspace.verdict c := rfl
  unfold conclude
  rw [hverdict]
  cases r.workspace.verdict c with
  | some status => exact ⟨trial, rfl⟩
  | none => exact advance_toLoose c r trial i feasibility

/-- **An iteration in memory is an iteration.** -/
theorem iterate_toLoose (i : Nat) :
    ∃ trial' : Path α s nus,
      (r.toLoose trial).iterate c i = .ok (Step.toLoose trial' (r.iterate c i)) := by
  have hiterate : (r.toLoose trial).iterate c i = ((r.toLoose trial).refresh i >>= _) := rfl
  rw [hiterate, refresh_toLoose, Loose.ok_bind]
  unfold Run.iterate
  cases r.refresh i with
  | error failed => exact ⟨trial, rfl⟩
  | ok r₁ =>
    let w := r₁.workspace
    have hpass : ((r₁.toLoose trial).problem.backward (r₁.toLoose trial).workspace.damping
        (r₁.toLoose trial).workspace.feasible (r₁.toLoose trial).workspace.gaps
        (r₁.toLoose trial).workspace.policy : Loose (ProblemError α) _) = _ :=
      LooseProblem.backward_toLoose w.damping w.feasible r₁.problem w.gaps w.policy
    dsimp only [w] at hpass ⊢
    rw [hpass, Loose.ok_bind]
    generalize Shooting.backward r₁.workspace.damping r₁.workspace.feasible r₁.problem.stages
      r₁.workspace.gaps r₁.workspace.policy = pass
    obtain ⟨policy, failure⟩ := pass
    cases failure with
    | some failure =>
      refine ⟨trial, ?_⟩
      unfold Run.afterBackwardFailure
      show (if r₁.workspace.isSaturated c = true then _ else _) =
        Except.ok (Step.toLoose trial (if r₁.workspace.isSaturated c = true then _ else _))
      split <;> rfl
    | none =>
      have hhorizon : (r₁.toLoose trial).workspace.current.horizon = nus.length :=
        Horizon.length_running _ r₁.workspace.path
      have hexpected : (policy.toLoose.expected (r₁.toLoose trial).workspace.gaps nus.length
          (r₁.toLoose trial).workspace.feasible : Loose (ProblemError α) _) = _ :=
        LoosePolicy.expected_toLoose policy r₁.workspace.gaps r₁.workspace.feasible
      dsimp only
      rw [hhorizon, hexpected, Loose.ok_bind]
      exact conclude_toLoose c (r₁.planned policy) trial i
        (r₁.planned policy).workspace.feasibility

theorem settle_toLoose : (r.toLoose trial).settle = .ok (r.settle.toLoose trial) := by
  unfold settle Run.settle
  show (if r.stale = true then _ else _) = _
  by_cases hstale : r.stale = true
  · rw [if_pos hstale, if_pos hstale]
    refine (congrArg (· >>= _) (LooseProblem.evaluate_path r.problem r.workspace.path)).trans ?_
    exact measure_toLoose { r with
      problem := r.problem.evaluate r.workspace.path
      workspace.cost := (r.problem.evaluate r.workspace.path).totalCost } trial
  · rw [if_neg hstale, if_neg hstale]
    exact measure_toLoose r trial

theorem finish_toLoose (status : Status) (n : Nat) :
    (r.toLoose trial).finish status n = .ok ((r.finish c status n).toLoose trial) :=
  (congrArg (· >>= _) (settle_toLoose r trial)).trans rfl

/-- **All iterations in memory are the iterations of a solve.** -/
theorem iterateFrom_toLoose (clock : Nat → Nat) : ∀ (n i : Nat) (r : Run α s nus)
    (trial : Path α s nus),
    ∃ trial' : Path α s nus, (r.toLoose trial).iterateFrom c clock n i =
      .ok ((r.iterateFrom c clock n i).toLoose trial')
  | 0, i, r, trial => ⟨trial, finish_toLoose c r trial .maxIterationsReached i⟩
  | n + 1, i, r, trial => by
    obtain ⟨trial', hiterate⟩ := iterate_toLoose c r trial i
    unfold iterateFrom Run.iterateFrom
    rw [hiterate]
    by_cases htime : Run.isTimedOut c clock i = true
    · rw [if_pos htime, if_pos htime]
      exact ⟨trial, finish_toLoose c r trial .timeout i⟩
    · rw [if_neg htime, if_neg htime, Loose.ok_bind]
      cases r.iterate c i with
      | next r' => exact iterateFrom_toLoose clock n (i + 1) r' trial'
      | stop r' status iterations => exact ⟨trial', finish_toLoose c r' trial' status iterations⟩
      | fail r' e => exact ⟨trial', rfl⟩

end LooseRun

/-! ## Solves -/

/-- A solver in memory: its configuration and the workspace of its last solve, if there is one. -/
structure LooseSolver (α : Type) where
  config : Config α
  workspace : Option (LooseWorkspace α)

/-- The trajectory a solve starts from and whether it is feasible, unless it does not fit. Without
given states the controls are rolled out, which leaves its evaluation with the problem. -/
def LooseProblem.initialTrajectory (p : LooseProblem α) (g : Guess α) :
    Loose (ProblemError α) (LooseProblem α × Except SizeFault (Trajectory α × Bool)) :=
  let us := g.controls.getD (p.models.map fun m => Loose.zeros m.nu)
  match g.states with
  | some xs => return (p, (p.checkTrajectory xs us).map fun _ => (⟨xs, us⟩, g.feasible))
  | none =>
    match p.checkControls us with
    | .error fault => return (p, .error fault)
    | .ok () => do
      let (p, xs) ← p.rollout us
      return (p, (p.checkTrajectory xs us).map fun _ => (⟨xs, us⟩, true))

namespace LooseSolver

/-- Solves a problem in memory with a budget of iterations. -/
def solve (sv : LooseSolver α) (p : LooseProblem α) (g : Guess α) (clock : Nat → Nat)
    (budget : Nat) : Loose (ProblemError α) (LooseSolved α) := do
  let c := sv.config
  match c.validate >>= fun _ => c.initialRegularization g.regularization with
  | .error fault =>
    return ⟨p, sv.workspace, false, .error (.error (.solver (.invalidParameters fault)))⟩
  | .ok regularization =>
    let (p, guess) ← p.initialTrajectory g
    match guess with
    | .error fault =>
      return ⟨p, sv.workspace, false, .error (.error (.problem (.dimensionMismatch fault)))⟩
    | .ok (current, feasible) =>
      let w := LooseWorkspace.start p current feasible regularization
      if budget < Vec.sizeLimit then
        let (p, initialCost) ← p.evaluate current.states current.controls
        if Scalar.isFinite initialCost then
          LooseRun.iterateFrom c clock budget 0 ⟨p, { w with cost := initialCost }, true, false⟩
        else
          return LooseRun.abort ⟨p, w, true, false⟩
            (.invalidNumericValue (.initialCost initialCost) w.current)
      else return ⟨p, some w, true, .error .misuse⟩

end LooseSolver

theorem LooseProblem.initialTrajectory_toLoose (p : Problem α s nus) (g : Guess α) :
    p.toLoose.initialTrajectory g = .ok (match Solver.initialPath p g with
      | .error fault => (p.toLoose, .error fault)
      | .ok (q, path, feasible) => (q.toLoose, .ok (path.toTrajectory, feasible))) := by
  have hzeros : ∀ {nus : List Nat} (stages : Stages α s nus),
      (stages.toLoose.map LooseStage.model).map (fun m => Loose.zeros m.nu) =
        stages.running fun st => st.zeroControl.toList := by
    intro nus stages
    induction stages with
    | last _ => rfl
    | stage st rest ih => exact congrArg₂ List.cons (Loose.zeros_eq _) ih
  have hmodels : p.toLoose.models = p.stages.toLoose.map LooseStage.model := rfl
  unfold initialTrajectory Solver.initialPath
  rw [hmodels, hzeros]
  generalize g.controls.getD (p.stages.running fun st => st.zeroControl.toList) = us
  cases g.states with
  | some xs =>
    dsimp only
    rw [checkTrajectory_toLoose]
    cases hpath : p.path? xs us with
    | error fault => rfl
    | ok path =>
      rw [← Problem.toTrajectory_of_path? hpath]
      rfl
  | none =>
    dsimp only
    rw [checkControls_toLoose, rollout_toLoose]
    unfold Problem.rollout?
    cases hus : p.controls? us with
    | error fault => rfl
    | ok vs =>
      have hcontrols : (p.rollout vs).2.toTrajectory.controls = us :=
        (Stages.controls_rolloutFrom _ _ vs).trans (Problem.running_of_controls? hus)
      have hcheck : (p.rollout vs).1.toLoose.checkTrajectory
          (p.rollout vs).2.toTrajectory.states us = .ok () := by
        rw [checkTrajectory_toLoose, ← hcontrols, Problem.path?_toTrajectory]
        rfl
      show Except.ok ((p.rollout vs).1.toLoose, Except.map _ ((p.rollout vs).1.toLoose.checkTrajectory
        (p.rollout vs).2.toTrajectory.states us)) = _
      rw [hcheck]
      exact congrArg (fun us => Except.ok ((p.rollout vs).1.toLoose,
        Except.ok (Trajectory.mk (p.rollout vs).2.toTrajectory.states us, true))) hcontrols.symm

namespace LooseSolver

variable (sv : Solver α s nus) (W : Option (LooseWorkspace α)) (p : Problem α s nus) (g : Guess α)
  (clock : Nat → Nat) (budget : Nat)

/-- **A solve is refused in memory for the reason it is refused for**, and leaves all as it was. -/
theorem solve_refused {e : Error α} (h : sv.initialize? p g = .error e) :
    solve ⟨sv.config, W⟩ p.toLoose g clock budget =
      .ok ⟨p.toLoose, W, false, .error (.error e)⟩ := by
  unfold Solver.initialize? at h
  unfold solve
  dsimp only at h ⊢
  cases hreg : (sv.config.validate >>= fun _ =>
      sv.config.initialRegularization g.regularization) with
  | error fault =>
    rw [hreg] at h
    cases h
    rfl
  | ok regularization =>
    rw [hreg] at h
    dsimp only
    rw [LooseProblem.initialTrajectory_toLoose, Loose.ok_bind]
    cases hpath : Solver.initialPath p g with
    | error fault =>
      rw [hpath] at h
      cases h
      rfl
    | ok found =>
      rw [hpath] at h
      cases h

/-- **A solve in memory is a solve**, whatever workspace the solver had before. -/
theorem solve_begun {p' : Problem α s nus} {w : Workspace α s nus}
    (h : sv.initialize? p g = .ok (p', w)) :
    ∃ trial : Path α s nus, solve ⟨sv.config, W⟩ p.toLoose g clock budget =
      .ok ((sv.solveWithin p g clock budget).toLoose trial) := by
  obtain ⟨hvalid, regularization, path, feasible, hreg, hpath, rfl⟩ := Solver.initialize?_ok h
  have hboth : (sv.config.validate >>= fun _ =>
      sv.config.initialRegularization g.regularization) = .ok regularization := by
    rw [hvalid]
    exact hreg
  have hevaluate := LooseProblem.evaluate_path p' path
  unfold solve Solver.solveWithin
  dsimp only
  rw [h, hboth]
  dsimp only
  rw [LooseProblem.initialTrajectory_toLoose, hpath, Loose.ok_bind]
  dsimp only
  rw [LooseWorkspace.start_toLoose]
  have hpath' : (Workspace.start path feasible regularization).path = path := rfl
  rw [hpath']
  by_cases hbudget : budget < Vec.sizeLimit
  · rw [if_pos hbudget, if_pos hbudget, hevaluate, Loose.ok_bind]
    dsimp only
    by_cases hfin : Scalar.isFinite (p'.evaluate path).totalCost = true
    · rw [if_pos hfin, if_pos hfin]
      exact LooseRun.iterateFrom_toLoose sv.config clock budget 0
        (sv.firstRun p' (.start path feasible regularization)) path
    · rw [if_neg hfin, if_neg hfin]
      exact ⟨path, rfl⟩
  · rw [if_neg hbudget, if_neg hbudget]
    exact ⟨path, rfl⟩

end LooseSolver

end Shooting
