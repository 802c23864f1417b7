import Shooting.Proofs.Solver.Course

/-!
# What a solve stores belongs to its current path

Candidates of the line search are evaluated on the stages of the problem itself, whether they are
accepted or not, and expansions are not renewed when nothing was accepted. Two flags of a run,
`stale` and `unexpanded`, are all that keeps track of this. `Run.Consistent` says what they mean:

> cost and models are right at all times; the stored evaluations are those of the current path
> unless `stale`, expansions and gaps unless `unexpanded`; and the two flags are never up together.

One iteration keeps this, whatever it comes to (`iterate_consistent`), and so:

* `backward_inputs_fresh`: every backward pass of every solve works on the expansions and the gaps
  of the current path;
* `result_describes_path`: every answer is about one path, which is also the path of the solver and
  the one whose evaluations the problem is left with.

No law of arithmetic is used: floating-point solves are consistent too.
-/

namespace Shooting

variable {α : Type} [Scalar α] {s : StateSpace} {nus : List Nat}

namespace Run

variable {p : Problem α s nus} {c : Config α} {r r₁ r' : Run α s nus} {i : Nat}

/-- The invariant of a solve of the problem `p`. -/
structure Consistent (p : Problem α s nus) (r : Run α s nus) : Prop where
  same : r.problem.Same p
  cost : r.workspace.cost = p.costAlong r.workspace.path
  evaluated : r.stale = false →
    r.problem.stages.storedEvaluations = p.stages.models.evaluations r.workspace.path
  expanded : r.unexpanded = false →
    r.problem.stages.storedExpansions = p.stages.models.expansions r.workspace.path
  gaps : r.unexpanded = false → r.workspace.gaps.toList id id = p.gapsAlong r.workspace.path
  /-- A path that was just taken has been evaluated last. -/
  fresh : r.unexpanded = true → r.stale = false

/-- What belongs to a path belongs to it in any problem that asks the same. -/
theorem Consistent.of_same {q : Problem α s nus} (h : r.Consistent q) (hsame : q.Same p) :
    r.Consistent p := by
  refine ⟨h.same.trans hsame, ?_, ?_, ?_, ?_, h.fresh⟩
  · rw [h.cost, hsame.costAlong]
  · intro hfresh
    rw [h.evaluated hfresh, hsame.models]
  · intro hdown
    rw [h.expanded hdown, hsame.models]
  · intro hdown
    rw [h.gaps hdown, hsame.gapsAlong]

/-- Expanding the current path stores its expansions beside its evaluations, which are there because
a run is never unexpanded and stale at once. -/
theorem Consistent.stored_expand (h : r.Consistent p) (hun : r.unexpanded = true) :
    (r.problem.expand r.workspace.path).stages.storedEvaluations =
        p.stages.models.evaluations r.workspace.path ∧
      (r.problem.expand r.workspace.path).stages.storedExpansions =
        p.stages.models.expansions r.workspace.path := by
  refine ⟨(Stages.storedEvaluations_expand _ _).trans (h.evaluated (h.fresh hun)), ?_⟩
  rw [← h.same.models]
  exact Stages.storedExpansions_expand _ _

/-- Preparing a run renews expansions and gaps. The gaps are read off the stored evaluations. -/
theorem refresh_consistent (h : r.Consistent p) (hprep : r.refresh i = .ok r₁) :
    r₁.Consistent p ∧ r₁.unexpanded = false := by
  rcases refresh_ok hprep with ⟨hun, rfl⟩ | ⟨hun, rfl⟩
  · exact ⟨h, hun⟩
  · have hsame : (r.problem.expand r.workspace.path).Same p :=
      (Problem.same_expand _ _).trans h.same
    obtain ⟨heval, hexp⟩ := h.stored_expand hun
    refine ⟨⟨hsame, h.cost, fun _ => heval, fun _ => hexp, fun _ => ?_, nofun⟩, rfl⟩
    rw [← hsame.models] at heval
    exact (Problem.gaps_eq_gapsAlong heval).trans (hsame.gapsAlong _)

theorem invalid_consistent {e : SolverError α} (h : r.Consistent p)
    (hprep : r.refresh i = .error (r', e)) : r'.Consistent p := by
  obtain ⟨hun, -, rfl, -⟩ := refresh_error hprep
  have hup (hdown : r.unexpanded = false) : False := by rw [hun] at hdown; cases hdown
  refine ⟨(Problem.same_expand _ _).trans h.same, h.cost, ?_,
    fun hdown => (hup hdown).elim, fun hdown => (hup hdown).elim, h.fresh⟩
  intro hst
  exact (Stages.storedEvaluations_expand _ _).trans (h.evaluated hst)

theorem Keeps.consistent (hk : r.Keeps r') (h : r.Consistent p) (hexp : r.unexpanded = false) :
    r'.Consistent p := by
  refine ⟨hk.problem.toSame.trans h.same, ?_, ?_, ?_, ?_, ?_⟩
  · rw [hk.cost, hk.path, h.cost]
  · intro hst
    obtain ⟨hst', hp⟩ := hk.evaluations hst
    rw [hp, hk.path, h.evaluated hst']
  · intro _
    rw [hk.problem.expansions, hk.path, h.expanded hexp]
  · intro _
    rw [hk.gaps, hk.path, h.gaps hexp]
  · intro hun
    rw [hk.unexpanded, hexp] at hun
    cases hun

/-- The accepted candidate is the last one that was evaluated. -/
theorem Takes.consistent {policy : Policy α s.ndx nus} {f : Found α s nus}
    (ht : r.Takes c policy f r') (h : r.Consistent p) : r'.Consistent p := by
  obtain ⟨p', hp', htry⟩ := ht.found.candidate
  have hsame : r'.problem.Same p := by
    have hstep := (r.planned policy).workspace.tryStep_reevaluates p' f.length
    rw [htry] at hstep
    exact (hstep.trans hp').toSame.trans h.same
  have hup (hdown : r'.unexpanded = false) : False := by rw [ht.unexpanded] at hdown; cases hdown
  refine ⟨hsame, ?_, fun _ => ?_, fun hdown => (hup hdown).elim, fun hdown => (hup hdown).elim,
    fun _ => ht.stale⟩
  · rw [ht.cost, ht.path, ht.found.cost, h.same.costAlong]
  · rw [ht.path, ht.found.storedEvaluations, hsame.models]

theorem Iteration.consistent {step : Step α s nus} (hcase : r.Iteration c i step)
    (h : r.Consistent p) : step.run.Consistent p := by
  cases hcase with
  | invalid hprep => exact invalid_consistent h hprep
  | unplanned hprep hback =>
    obtain ⟨h₁, hexp⟩ := refresh_consistent h hprep
    exact (keeps_afterBackwardFailure c _ _ _ i).consistent h₁ hexp
  | optimal hprep hback hend =>
    obtain ⟨h₁, hexp⟩ := refresh_consistent h hprep
    exact (keeps_planned _ _).consistent h₁ hexp
  | stepped hprep hback hgo hfound =>
    obtain ⟨h₁, -⟩ := refresh_consistent h hprep
    exact (takes_afterStep hfound i _).consistent h₁
  | rejected hprep hback hgo hfound =>
    obtain ⟨h₁, hexp⟩ := refresh_consistent h hprep
    exact (keeps_afterRejection c _ _ i _ _).consistent h₁ hexp

/-- **One iteration keeps a run consistent**, whatever it comes to. -/
theorem iterate_consistent (h : r.Consistent p) : (r.iterate c i).run.Consistent p :=
  (iterate_cases c r i).consistent h

end Run

/-! ## From the first run on -/

namespace Solver

variable {sv : Solver α s nus} {p : Problem α s nus} {g : Guess α} {clock : Nat → Nat}
  {budget : Nat} {r₀ : Run α s nus}

theorem Begins.consistent (h : sv.Begins p g r₀) : r₀.Consistent p := by
  obtain ⟨hinit, -⟩ := h
  rename_i p' w
  obtain ⟨-, -, path, feasible, -, hpath, -⟩ := initialize?_ok hinit
  have hsame : (p'.evaluate w.path).Same p :=
    (Problem.same_evaluate _ _).trans (initialPath_ok hpath).1.toSame
  have heval : (p'.evaluate w.path).stages.storedEvaluations =
      p.stages.models.evaluations w.path := by
    rw [← (initialPath_ok hpath).1.models]
    exact Stages.storedEvaluations_evaluate _ _
  refine ⟨hsame, ?_, fun _ => heval, nofun, nofun, fun _ => rfl⟩
  rw [← hsame.models] at heval
  exact (Problem.totalCost_eq_costAlong heval).trans (hsame.costAlong _)

theorem Begins.consistent_of_reaches (h : sv.Begins p g r₀) {i : Nat} {r : Run α s nus}
    (hr : r₀.Reaches sv.config clock budget i r) : r.Consistent p :=
  hr.induct h.consistent fun _ => Run.iterate_consistent

theorem Begins.consistent_of_ends (h : sv.Begins p g r₀) {r : Run α s nus} {status : Status}
    {n : Nat} (hr : r₀.Ends sv.config clock budget r status n) : r.Consistent p :=
  hr.induct h.consistent fun _ => Run.iterate_consistent

/-- **Every backward pass works on fresh inputs.** Whenever a solve performs an iteration and gets
to its backward pass, the stages hold the expansions that the models give along the current path,
and the gaps are those of the current path. -/
theorem backward_inputs_fresh (hbegin : sv.Begins p g r₀) {i : Nat} {r r₁ : Run α s nus}
    (hperf : r₀.Performs sv.config clock budget i r) (hprep : r.refresh i = .ok r₁) :
    r₁.workspace.path = r.workspace.path ∧
      r₁.problem.stages.storedExpansions = p.stages.models.expansions r₁.workspace.path ∧
      r₁.workspace.gaps.toList id id = p.gapsAlong r₁.workspace.path := by
  obtain ⟨h₁, hexp⟩ := Run.refresh_consistent (hbegin.consistent_of_reaches hperf.reached) hprep
  exact ⟨(Run.stays_refresh hprep).path, h₁.expanded hexp, h₁.gaps hexp⟩

set_option maxRecDepth 100000 in
/-- The second backward pass of a solve whose first iteration takes a step. -/
theorem backward_inputs_fresh_push :
    ∃ r₀ r r₁ : Run Float (.euclidean 1) [1],
      (Solver.new .standard .none).Begins (.push Float) .none r₀ ∧
        r₀.Performs .standard (fun _ => 0) 3 1 r ∧ r.refresh 1 = .ok r₁ ∧ r.tally.accepted = 1 ∧
        r₁.problem.stages.storedExpansions =
          (Problem.push Float).stages.models.expansions r₁.workspace.path := by
  have hcourse : (match (Solver.new .standard .none).initialize? (Problem.push Float) .none with
      | .ok (p', w) =>
        Scalar.isFinite (p'.evaluate w.path).totalCost &&
          match ((Solver.new .standard .none).firstRun p' w).iterate .standard 0 with
          | .next r => (r.refresh 1).isOk && decide (r.tally.accepted = 1)
          | _ => false
      | .error _ => false) = true := by
    decide +kernel
  split at hcourse
  next p' w hinit =>
    obtain ⟨hfin, hcourse⟩ := Bool.and_eq_true_iff.mp hcourse
    split at hcourse
    next r hnext =>
      obtain ⟨hprep, htaken⟩ := Bool.and_eq_true_iff.mp hcourse
      have hbegin := Begins.intro hinit hfin
      have hperf : Run.Performs .standard (fun _ => 0) 3
          ((Solver.new .standard .none).firstRun p' w) 1 r :=
        ⟨.next .start (by decide) rfl hnext, by decide, rfl⟩
      cases hr₁ : r.refresh 1 with
      | error e =>
        rw [hr₁] at hprep
        cases hprep
      | ok r₁ =>
        obtain ⟨-, hexpansions, -⟩ := backward_inputs_fresh hbegin hperf hr₁
        exact ⟨_, r, r₁, hbegin, hperf, hr₁, of_decide_eq_true htaken, hexpansions⟩
    next => cases hcourse
  next => cases hcourse

end Solver

/-! ## The answer -/

namespace Run

variable {p : Problem α s nus} {r : Run α s nus}

/-- Settling a run changes the stored evaluations, their cost, the gaps and a counter, and nothing
else. -/
theorem settle_eq (r : Run α s nus) : ∃ problem cost gaps n, r.settle = { r with
    problem
    workspace := { r.workspace with cost, gaps }
    tally := { r.tally with evaluations := n } } := by
  unfold settle
  dsimp only
  split <;> exact ⟨_, _, _, _, rfl⟩

theorem settle_path (r : Run α s nus) : r.settle.workspace.path = r.workspace.path := by
  obtain ⟨_, _, _, _, h⟩ := r.settle_eq
  rw [h]

theorem settle_observers (r : Run α s nus) : r.settle.observers = r.observers := by
  obtain ⟨_, _, _, _, h⟩ := r.settle_eq
  rw [h]

theorem settle_policy (r : Run α s nus) : r.settle.workspace.policy = r.workspace.policy := by
  obtain ⟨_, _, _, _, h⟩ := r.settle_eq
  rw [h]

theorem settle_expected (r : Run α s nus) : r.settle.workspace.expected = r.workspace.expected := by
  obtain ⟨_, _, _, _, h⟩ := r.settle_eq
  rw [h]

theorem settle_damping (r : Run α s nus) : r.settle.workspace.damping = r.workspace.damping := by
  obtain ⟨_, _, _, _, h⟩ := r.settle_eq
  rw [h]

theorem settle_feasible (r : Run α s nus) : r.settle.workspace.feasible = r.workspace.feasible := by
  obtain ⟨_, _, _, _, h⟩ := r.settle_eq
  rw [h]

/-- Settling a run counts as an evaluation at most. -/
theorem settle_tally (r : Run α s nus) :
    ∃ n, r.settle.tally = { r.tally with evaluations := n } := by
  obtain ⟨_, _, _, n, h⟩ := r.settle_eq
  exact ⟨n, by rw [h]⟩

theorem settle_initialCost (r : Run α s nus) : r.settle.initialCost = r.initialCost := by
  obtain ⟨_, _, _, _, h⟩ := r.settle_eq
  rw [h]

/-- What an answer with a status and a number of iterations says of the counters of a run. -/
structure Answers (r : Run α s nus) (status : Status) (n : Nat) (res : SolveResult α) : Prop where
  status : res.status = status
  iterations : res.iterations = n
  stepLengths : res.stepLengths = r.tally.stepLengths
  expansions : res.info.expansions = r.tally.expansions
  rejected : res.info.rejected = r.tally.rejected
  initialCost : res.initialCost = r.initialCost

/-- An answer says what the run says with which the solve ended. -/
theorem answers_of_finish {status : Status} {n : Nat} {res : SolveResult α}
    (h : (r.finish c status n).outcome = .ok res) : r.Answers status n res := by
  obtain ⟨evaluations, htally⟩ := r.settle_tally
  obtain rfl := Except.ok.inj h
  refine ⟨rfl, rfl, ?_, ?_, ?_, r.settle_initialCost⟩
  · show r.settle.tally.stepLengths = _
    rw [htally]
  · show r.settle.tally.expansions = _
    rw [htally]
  · show r.settle.tally.rejected = _
    rw [htally]

/-- Settling a run evaluates the current path again if the stored evaluations are not its own. -/
theorem settle_consistent (h : r.Consistent p) :
    r.settle.problem.Same p ∧
      r.settle.problem.stages.storedEvaluations = p.stages.models.evaluations r.workspace.path ∧
      r.settle.workspace.cost = p.costAlong r.workspace.path ∧
      r.settle.workspace.gaps.toList id id = p.gapsAlong r.workspace.path := by
  unfold settle
  dsimp only
  split
  next hst =>
    have hsame : (r.problem.evaluate r.workspace.path).Same p :=
      (Problem.same_evaluate _ _).trans h.same
    have heval : (r.problem.evaluate r.workspace.path).stages.storedEvaluations =
        (r.problem.evaluate r.workspace.path).stages.models.evaluations r.workspace.path := by
      rw [(Problem.same_evaluate r.problem r.workspace.path).models]
      exact Stages.storedEvaluations_evaluate _ _
    refine ⟨hsame, ?_, (Problem.totalCost_eq_costAlong heval).trans (hsame.costAlong _),
      (Problem.gaps_eq_gapsAlong heval).trans (hsame.gapsAlong _)⟩
    rw [← hsame.models]
    exact heval
  next hst =>
    have heval := h.evaluated (by simpa using hst)
    refine ⟨h.same, heval, h.cost, ?_⟩
    rw [← h.same.models] at heval
    exact (Problem.gaps_eq_gapsAlong heval).trans (h.same.gapsAlong _)

end Run

omit [Scalar α] in
theorem Gaps.toLists_eq (gaps : Gaps α s nus) :
    gaps.toLists = (gaps.toList id id).map Vec.toList :=
  (Horizon.toList_map id id Vec.toList gaps).symm

theorem Gaps.total_eq (gaps : Gaps α s nus) :
    gaps.total = ((gaps.toList id id).map Vec.norm).foldl (· + ·) 0 := by
  rw [Horizon.toList_map]
  rfl

/-- The answer `r` is about the path `path` of the problem `p`, in all it says about a path. -/
structure SolveResult.Describes (r : SolveResult α) (p : Problem α s nus) (path : Path α s nus) :
    Prop where
  trajectory : r.trajectory = path.toTrajectory
  finalCost : r.finalCost = p.costAlong path
  gaps : r.gaps = (p.gapsAlong path).map Vec.toList
  feasibility : r.info.feasibility = ((p.gapsAlong path).map Vec.norm).foldl (· + ·) 0

/-- A solve leaves its problem with the evaluations of `path`, and asking the same as `p` did. -/
structure Problem.HoldsEvaluations (q p : Problem α s nus) (path : Path α s nus) : Prop where
  same : q.Same p
  evaluations : q.stages.storedEvaluations = p.stages.models.evaluations path
  totalCost : q.totalCost = p.costAlong path

/-- **What a consistent run finishes with describes its path.** -/
theorem Run.Consistent.describes {p : Problem α s nus} {r : Run α s nus} (h : r.Consistent p)
    {c : Config α} {status : Status} {n : Nat} {res : SolveResult α}
    (hout : (r.finish c status n).outcome = .ok res) :
    res.Describes p r.workspace.path ∧
      (r.finish c status n).problem.HoldsEvaluations p r.workspace.path := by
  obtain ⟨hsame, heval, hcost, hgaps⟩ := settle_consistent h
  have hown : r.settle.problem.stages.storedEvaluations =
      r.settle.problem.stages.models.evaluations r.workspace.path := by
    rw [hsame.models]
    exact heval
  obtain rfl := Except.ok.inj hout
  refine ⟨⟨?_, hcost, ?_, ?_⟩, hsame, heval, ?_⟩
  · exact congrArg Path.toTrajectory r.settle_path
  · exact (Gaps.toLists_eq _).trans (congrArg (List.map Vec.toList) hgaps)
  · show r.settle.workspace.gaps.total = _
    rw [Gaps.total_eq, hgaps]
  · exact (Problem.totalCost_eq_costAlong hown).trans (hsame.costAlong _)

namespace Solver

variable {sv : Solver α s nus} {p : Problem α s nus} {g : Guess α} {clock : Nat → Nat}
  {budget : Nat}

/-- **Every answer describes one path**, however the solve came to its end: trajectory, final cost,
gaps and feasibility are those that the models of the problem give for it, the solver is left with
it, and the stages of the problem are left with its evaluations. -/
theorem result_describes_path {res : SolveResult α}
    (h : (sv.solveWithin p g clock budget).outcome = .ok res) :
    ∃ path : Path α s nus,
      res.Describes p path ∧
        (sv.solveWithin p g clock budget).problem.HoldsEvaluations p path ∧
        (sv.solveWithin p g clock budget).solver.trajectory = res.trajectory ∧
        (sv.solveWithin p g clock budget).solver.gaps = res.gaps := by
  obtain ⟨r₀, r, status, n, hbegin, hend, hfinish⟩ := solveWithin_ok h
  rw [hfinish] at h ⊢
  obtain ⟨hdescribes, hholds⟩ := (hbegin.consistent_of_ends hend).describes h
  obtain rfl := Except.ok.inj h
  exact ⟨r.workspace.path, hdescribes, hholds, rfl, rfl⟩

set_option maxRecDepth 100000 in
/-- A solve that answers after one full step. -/
theorem result_describes_path_push :
    ∃ res path, ((Solver.new .standard .none).solveWithin (Problem.push Float) .none
        (fun _ => 0) 3).outcome = .ok res ∧
      res.stepLengths = [1] ∧ res.Describes (.push Float) path := by
  have hsolve : ((Solver.new .standard .none).solveWithin (Problem.push Float) .none
      (fun _ => 0) 3).outcome.toOption.map SolveResult.stepLengths = some [1] := by
    decide +kernel
  cases hout : ((Solver.new .standard .none).solveWithin (Problem.push Float) .none
      (fun _ => 0) 3).outcome with
  | error e =>
    rw [hout] at hsolve
    cases hsolve
  | ok res =>
    rw [hout] at hsolve
    obtain ⟨path, hdescribes, -⟩ := result_describes_path hout
    exact ⟨res, path, rfl, Option.some.inj hsolve, hdescribes⟩

end Solver

end Shooting
