import Shooting.Proofs.Checked
import Shooting.Proofs.Solver.Iteration

/-!
# The course of a solve

A solve that is not refused begins its iterations with a run (`Solver.Begins`) whose path and flag
are those it was given or a rollout (`Guess.Starts`). It goes from one run to the next
(`Run.Reaches`) and ends with a run and a status (`Run.Ends`) or with an error. These relations say
nothing that `Solver.solveWithin` does not do: its result is `Run.finish` of a run with which it
ends (`Solver.solveWithin_ok`).

Every invariant of a solve is proved the same way. It holds of the first run, an iteration keeps it
whatever it comes to, and so it holds of all runs that are reached and of the one with which the
solve ends (`Run.Reaches.induct`, `Run.Ends.induct`).
-/

namespace Shooting

variable {α : Type} [Scalar α] {s : StateSpace} {nus : List Nat}

/-! ## From the first run to the last -/

namespace Run

/-- A solve that begins with `r₀` has the run `r` when iterations before number `i` are done. -/
inductive Reaches (c : Config α) (clock : Nat → Nat) (budget : Nat) (r₀ : Run α s nus) :
    Nat → Run α s nus → Prop where
  | start : Reaches c clock budget r₀ 0 r₀
  | next {i : Nat} {r r' : Run α s nus} (reached : Reaches c clock budget r₀ i r)
      (within : i < budget) (inTime : isTimedOut c clock i = false)
      (hnext : r.iterate c i = .next r') : Reaches c clock budget r₀ (i + 1) r'

/-- A solve that begins with `r₀` performs iteration number `i`, and does so from the run `r`. -/
structure Performs (c : Config α) (clock : Nat → Nat) (budget : Nat) (r₀ : Run α s nus) (i : Nat)
    (r : Run α s nus) : Prop where
  reached : r₀.Reaches c clock budget i r
  within : i < budget
  inTime : isTimedOut c clock i = false

/-- A solve that begins with `r₀` ends with the run `r`, a status and a number of iterations. -/
inductive Ends (c : Config α) (clock : Nat → Nat) (budget : Nat) (r₀ : Run α s nus) :
    Run α s nus → Status → Nat → Prop where
  /-- All iterations are done. -/
  | budget {r : Run α s nus} (reached : r₀.Reaches c clock budget budget r) :
      Ends c clock budget r₀ r .maxIterationsReached budget
  /-- The time limit has passed. -/
  | timeout {i : Nat} {r : Run α s nus} (reached : r₀.Reaches c clock budget i r)
      (within : i < budget) (late : isTimedOut c clock i = true) :
      Ends c clock budget r₀ r .timeout i
  /-- An iteration says so. -/
  | stop {i n : Nat} {r r' : Run α s nus} {status : Status} (h : r₀.Performs c clock budget i r)
      (hstop : r.iterate c i = .stop r' status n) : Ends c clock budget r₀ r' status n

variable {c : Config α} {clock : Nat → Nat} {budget : Nat} {r₀ : Run α s nus}

/-- **What every iteration keeps holds of every run that is reached.** -/
theorem Reaches.induct {P : Run α s nus → Prop} (h₀ : P r₀)
    (hstep : ∀ {i r}, r₀.Performs c clock budget i r → P r → P (r.iterate c i).run) {i : Nat}
    {r : Run α s nus} (h : r₀.Reaches c clock budget i r) : P r := by
  induction h with
  | start => exact h₀
  | next reached within inTime hnext ih =>
    have hrun := hstep ⟨reached, within, inTime⟩ ih
    rwa [hnext] at hrun

/-- **What every iteration keeps holds of the run with which a solve ends.** -/
theorem Ends.induct {P : Run α s nus → Prop} (h₀ : P r₀)
    (hstep : ∀ {i r}, r₀.Performs c clock budget i r → P r → P (r.iterate c i).run)
    {r : Run α s nus} {status : Status} {n : Nat} (h : r₀.Ends c clock budget r status n) :
    P r := by
  cases h with
  | budget reached => exact reached.induct h₀ hstep
  | timeout reached _ _ => exact reached.induct h₀ hstep
  | stop hperf hstop =>
    have hrun := hstep hperf (hperf.reached.induct h₀ hstep)
    rwa [hstop] at hrun

/-- A solve is at one run only at a time. -/
theorem Reaches.unique {i : Nat} {r r' : Run α s nus} (h : r₀.Reaches c clock budget i r)
    (h' : r₀.Reaches c clock budget i r') : r = r' := by
  induction h generalizing r' with
  | start => cases h'; rfl
  | next _ _ _ hnext ih =>
    cases h' with
    | next reached' _ _ hnext' =>
      rw [ih reached', hnext'] at hnext
      exact (Step.next.inj hnext).symm

/-- What every later iteration keeps holds of all later runs once it holds. -/
theorem Reaches.later {P : Run α s nus → Prop} {i j : Nat} {r r' : Run α s nus}
    (hstep : ∀ {k r}, i ≤ k → r₀.Performs c clock budget k r → P r → P (r.iterate c k).run)
    (h : r₀.Reaches c clock budget i r) (h' : r₀.Reaches c clock budget j r') (hle : i ≤ j)
    (hP : P r) : P r' := by
  induction h' with
  | start =>
    obtain rfl := Nat.le_zero.mp hle
    exact h.unique .start ▸ hP
  | @next j r₁ r₂ reached within inTime hnext ih =>
    rcases Nat.lt_or_eq_of_le hle with hlt | rfl
    · have hle' := Nat.le_of_lt_succ hlt
      have hrun := hstep hle' ⟨reached, within, inTime⟩ (ih hle')
      rwa [hnext] at hrun
    · exact h.unique (.next reached within inTime hnext) ▸ hP

/-- A run that is reached was reached through every iteration before it. -/
theorem Reaches.performs_of_lt {i j : Nat} {r' : Run α s nus} (h : r₀.Reaches c clock budget j r')
    (hlt : i < j) : ∃ r r₁, r₀.Performs c clock budget i r ∧ r.iterate c i = .next r₁ ∧
      r₀.Reaches c clock budget (i + 1) r₁ := by
  induction h with
  | start => cases hlt
  | next reached within inTime hnext ih =>
    rcases Nat.lt_or_eq_of_le (Nat.le_of_lt_succ hlt) with hlt | rfl
    · exact ih hlt
    · exact ⟨_, _, ⟨reached, within, inTime⟩, hnext, .next reached within inTime hnext⟩

/-- **What holds after an iteration and is kept by every later one holds of the run with which a
solve ends.** The end is that iteration or comes after it. -/
theorem Ends.after {P : Run α s nus → Prop} {i n : Nat} {r r' : Run α s nus} {status : Status}
    (hstep : ∀ {k r}, i < k → r₀.Performs c clock budget k r → P r → P (r.iterate c k).run)
    (hperf : r₀.Performs c clock budget i r) (hP : P (r.iterate c i).run)
    (hend : r₀.Ends c clock budget r' status n) : P r' := by
  have hlater {j : Nat} {r' : Run α s nus} (h : r₀.Reaches c clock budget j r') (hlt : i < j) :
      P r' := by
    obtain ⟨r₁, r₂, hperf₁, hnext, hreached⟩ := h.performs_of_lt hlt
    rw [hperf.reached.unique hperf₁.reached, hnext] at hP
    exact hreached.later hstep h hlt hP
  cases hend with
  | budget reached => exact hlater reached hperf.within
  | timeout reached _ late =>
    rcases Nat.lt_trichotomy i n with hlt | rfl | hgt
    · exact hlater reached hlt
    · rw [hperf.inTime] at late
      cases late
    · obtain ⟨r₁, r₂, hperf₁, -⟩ := hperf.reached.performs_of_lt hgt
      rw [hperf₁.inTime] at late
      cases late
  | @stop j _ r₁ _ _ hperf₁ hstop =>
    rcases Nat.lt_trichotomy i j with hlt | rfl | hgt
    · have hrun := hstep hlt hperf₁ (hlater hperf₁.reached hlt)
      rwa [hstop] at hrun
    · rwa [hperf.reached.unique hperf₁.reached, hstop] at hP
    · obtain ⟨r₂, r₃, hperf₂, hnext, -⟩ := hperf.reached.performs_of_lt hgt
      rw [hperf₂.reached.unique hperf₁.reached, hstop] at hnext
      cases hnext

/-- A step length that has been noted stays in the list. -/
theorem Ends.mem_stepLengths {i n : Nat} {r r' : Run α s nus} {status : Status} {a : α}
    (hperf : r₀.Performs c clock budget i r) (ha : a ∈ (r.iterate c i).run.tally.stepLengths)
    (hend : r₀.Ends c clock budget r' status n) : a ∈ r'.tally.stepLengths := by
  refine hend.after (P := fun r => a ∈ r.tally.stepLengths) ?_ hperf ha
  intro k r _ _ hmem
  rcases (iterate_cases c r k).stepLengths with ⟨-, zeros, heq, -⟩ | ⟨r₁, policy, f, -, -, heq⟩ <;>
  · rw [heq]
    exact List.mem_append_left _ hmem

omit [Scalar α] in
/-- Without a time limit no time is too late. -/
theorem isTimedOut_of_none (htimeout : c.timeout = none) (clock : Nat → Nat) (i : Nat) :
    isTimedOut c clock i = false := by
  simp [isTimedOut, htimeout]

/-- With a larger budget, a run is reached just the same. -/
theorem Reaches.of_budget {clock' : Nat → Nat} {budget' i : Nat} {r : Run α s nus}
    (htime : ∀ i, isTimedOut c clock' i = isTimedOut c clock i) (hle : budget ≤ budget')
    (h : r₀.Reaches c clock budget i r) : r₀.Reaches c clock' budget' i r := by
  induction h with
  | start => exact .start
  | @next i r r' reached within inTime hnext ih =>
    exact .next ih (Nat.lt_of_lt_of_le within hle) ((htime i).trans inTime) hnext

/-- A solve that ends for want of iterations has done all it may. -/
theorem Ends.reaches_budget {r : Run α s nus} {n : Nat}
    (h : r₀.Ends c clock budget r .maxIterationsReached n) :
    n = budget ∧ r₀.Reaches c clock budget budget r := by
  generalize hstatus : Status.maxIterationsReached = status at h
  cases h with
  | budget reached => exact ⟨rfl, reached⟩
  | timeout => cases hstatus
  | @stop i n r₁ _ _ hperf hstop =>
    exact absurd (.inl hstatus.symm) ((iterate_cases c r₁ i).status_of_stop hstop)

/-- A solve that has reached a run goes on from it. -/
theorem Reaches.iterateFrom_eq {i : Nat} {r : Run α s nus} (h : r₀.Reaches c clock budget i r) :
    r₀.iterateFrom c clock budget 0 = r.iterateFrom c clock (budget - i) i := by
  induction h with
  | start => rfl
  | @next i r r' reached within inTime hnext ih =>
    rw [ih, show budget - i = budget - (i + 1) + 1 by omega]
    rw [iterateFrom, if_neg (by simp [inTime]), hnext]

/-- A solve ends with the first iteration that says so. -/
theorem Performs.iterateFrom_of_stop {i n : Nat} {r r' : Run α s nus} {status : Status}
    (h : r₀.Performs c clock budget i r) (hstop : r.iterate c i = .stop r' status n) :
    r₀.iterateFrom c clock budget 0 = r'.finish c status n := by
  have within := h.within
  rw [h.reached.iterateFrom_eq, show budget - i = budget - (i + 1) + 1 by omega]
  rw [iterateFrom, if_neg (by simp [h.inTime]), hstop]

/-- **A solve finishes with the run with which it ends.** -/
theorem Ends.iterateFrom_eq {r : Run α s nus} {status : Status} {n : Nat}
    (h : r₀.Ends c clock budget r status n) :
    r₀.iterateFrom c clock budget 0 = r.finish c status n := by
  cases h with
  | budget reached =>
    rw [reached.iterateFrom_eq, Nat.sub_self]
    rfl
  | timeout reached within late =>
    rw [reached.iterateFrom_eq, show budget - n = budget - (n + 1) + 1 by omega]
    rw [iterateFrom, if_pos late]
  | stop hperf hstop => exact hperf.iterateFrom_of_stop hstop

/-- A solve performs no iteration after one from which it does not go on. -/
theorem Performs.le_of_not_next {i j : Nat} {r r'' : Run α s nus}
    (hperf : r₀.Performs c clock budget i r) (hend : ∀ r', r.iterate c i ≠ .next r')
    (hlater : r₀.Performs c clock budget j r'') : j ≤ i := by
  refine Nat.not_lt.mp ?_
  intro hlt
  obtain ⟨r₁, r₂, hperf₁, hnext, -⟩ := hlater.reached.performs_of_lt hlt
  rw [← hperf.reached.unique hperf₁.reached] at hnext
  exact hend r₂ hnext

/-- A solve that stopped in iteration number `i` performs none after it. -/
theorem Performs.last {i j n : Nat} {r r' r'' : Run α s nus} {status : Status}
    (hperf : r₀.Performs c clock budget i r) (hstop : r.iterate c i = .stop r' status n)
    (hlater : r₀.Performs c clock budget j r'') : j ≤ i :=
  hperf.le_of_not_next (by rw [hstop]; nofun) hlater

/-- The iterations from a run on come to an end as described by `Ends`, or fail. The induction is on
the iterations that are left. -/
theorem iterateFrom_ends : ∀ (left i : Nat) {r : Run α s nus}, i + left = budget →
    r₀.Reaches c clock budget i r →
    (∃ r' status n, r₀.Ends c clock budget r' status n ∧
        r.iterateFrom c clock left i = r'.finish c status n) ∨
      ∃ j r₁ r' e, r₀.Performs c clock budget j r₁ ∧ r₁.iterate c j = .fail r' e ∧
        r.iterateFrom c clock left i = r'.abort c e
  | 0, i, r, hi, h => by
    rw [Nat.add_zero] at hi
    subst hi
    exact .inl ⟨r, .maxIterationsReached, i, .budget h, rfl⟩
  | left + 1, i, r, hi, h => by
    have within : i < budget := by omega
    unfold iterateFrom
    split
    next hlate => exact .inl ⟨r, .timeout, i, .timeout h within hlate, rfl⟩
    next hlate =>
      have inTime : isTimedOut c clock i = false := by simpa using hlate
      split
      next r' hnext => exact iterateFrom_ends left (i + 1) (by omega) (h.next within inTime hnext)
      next r' status n hstop => exact .inl ⟨r', status, n, .stop ⟨h, within, inTime⟩ hstop, rfl⟩
      next r' e hfail => exact .inr ⟨i, r, r', e, ⟨h, within, inTime⟩, hfail, rfl⟩

end Run

/-! ## The beginning -/

/-- The path a solve of `p` starts from when it is given `g`, and the flag it starts with: it has
the given controls or else zeros, and the given states with the flag as declared, or else it is a
rollout and counts as feasible. -/
structure Guess.Starts (g : Guess α) (p : Problem α s nus) (path : Path α s nus)
    (feasible : Bool) : Prop where
  controls : path.toTrajectory.controls =
    g.controls.getD (p.stages.running fun st => st.zeroControl.toList)
  states : (g.states = none ∧ feasible = true ∧ p.IsRollout path) ∨
    (g.states = some path.toTrajectory.states ∧ feasible = g.feasible)

/-- No guess at all. -/
def Guess.none : Guess α := ⟨.none, .none, false, .none⟩

namespace Solver

/-- The run with which a solve begins that was given the problem `p` and the workspace `w`. -/
def firstRun (sv : Solver α s nus) (p : Problem α s nus) (w : Workspace α s nus) : Run α s nus where
  problem := p.evaluate w.path
  workspace := { w with cost := (p.evaluate w.path).totalCost }
  observers := sv.observers
  tally := ⟨1, 0, 0, 0, 0, []⟩
  initialCost := (p.evaluate w.path).totalCost
  unexpanded := true
  stale := false
  log := [.configuration sv.config, .lineHeader]

/-- A solve with these arguments begins its iterations with the run `r₀`. -/
inductive Begins (sv : Solver α s nus) (p : Problem α s nus) (g : Guess α) :
    Run α s nus → Prop where
  | intro {p' : Problem α s nus} {w : Workspace α s nus}
      (hinit : sv.initialize? p g = .ok (p', w))
      (hfin : Scalar.isFinite (p'.evaluate w.path).totalCost = true) :
      Begins sv p g (sv.firstRun p' w)

variable {sv : Solver α s nus} {p : Problem α s nus} {g : Guess α} {clock : Nat → Nat}
  {budget : Nat}

theorem initialPath_ok {p' : Problem α s nus} {path : Path α s nus} {feasible : Bool}
    (h : initialPath p g = .ok (p', path, feasible)) :
    p'.Reevaluates p ∧ g.Starts p path feasible := by
  unfold initialPath at h
  dsimp only at h
  split at h
  next xs hxs =>
    obtain ⟨path', hpath, h⟩ := exists_of_bind_ok h
    cases h
    have hlists := Problem.toTrajectory_of_path? hpath
    exact ⟨.refl p, by rw [hlists], .inr ⟨by rw [hxs, hlists], rfl⟩⟩
  next hxs =>
    obtain ⟨⟨p₁, path'⟩, hroll, h⟩ := exists_of_bind_ok h
    cases h
    obtain ⟨us, hus, hroll⟩ := exists_of_bind_ok hroll
    cases hroll
    refine ⟨p.reevaluates_rollout us, ?_, .inl ⟨hxs, rfl, p.isRollout_rollout us⟩⟩
    exact (Stages.controls_rolloutFrom _ _ us).trans (Problem.running_of_controls? hus)

/-- Without a guess the zero controls are rolled out. -/
theorem initialPath_none (p : Problem α s nus) :
    initialPath p .none =
      let us : Controls α nus := p.stages.map Stage.zeroControl fun _ => ()
      .ok ((p.rollout us).1, (p.rollout us).2, true) := by
  have hzeros : p.stages.running (fun st => st.zeroControl.toList) =
      Horizon.running Vec.toList (p.stages.map Stage.zeroControl fun _ => ()) :=
    (Horizon.running_map Stage.zeroControl (fun _ => ()) Vec.toList p.stages).symm
  unfold initialPath Guess.none Problem.rollout?
  dsimp only [Option.getD]
  rw [hzeros, Problem.controls?_running]
  rfl

/-- What the arguments of a solve have passed when it starts, and what it starts with. -/
theorem initialize?_ok {p' : Problem α s nus} {w : Workspace α s nus}
    (h : sv.initialize? p g = .ok (p', w)) :
    sv.config.validate = .ok () ∧
      ∃ regularization path feasible,
        sv.config.initialRegularization g.regularization = .ok regularization ∧
        initialPath p g = .ok (p', path, feasible) ∧
        w = .start path feasible regularization := by
  unfold initialize? at h
  dsimp only at h
  obtain ⟨regularization, hreg, h⟩ := exists_of_bind_ok h
  obtain ⟨⟨⟩, hvalid, hreg⟩ := exists_of_bind_ok (ok_of_mapError_ok hreg)
  obtain ⟨⟨p₁, path, feasible⟩, hpath, h⟩ := exists_of_bind_ok h
  cases h
  exact ⟨hvalid, regularization, path, feasible, hreg, ok_of_mapError_ok hpath, rfl⟩

/-- Without a guess only the configuration can be refused. -/
theorem initialize?_none (hvalid : sv.config.validate = .ok ()) (p : Problem α s nus) :
    ∃ p' w, sv.initialize? p .none = .ok (p', w) := by
  unfold initialize?
  dsimp only
  rw [hvalid, initialPath_none]
  exact ⟨_, _, rfl⟩

namespace Begins

variable {r₀ : Run α s nus}

/-- A solve begins with one run only. -/
theorem unique {r₀' : Run α s nus} (h : sv.Begins p g r₀) (h' : sv.Begins p g r₀') : r₀ = r₀' := by
  obtain ⟨hinit, -⟩ := h
  obtain ⟨hinit', -⟩ := h'
  obtain ⟨rfl, rfl⟩ := Prod.mk.inj (Except.ok.inj (hinit.symm.trans hinit'))
  rfl

theorem starts (h : sv.Begins p g r₀) : g.Starts p r₀.workspace.path r₀.workspace.feasible := by
  obtain ⟨hinit, -⟩ := h
  obtain ⟨-, regularization, path, feasible, -, hpath, rfl⟩ := initialize?_ok hinit
  exact (initialPath_ok hpath).2

/-- A solve starts feasible unless it is given states that are not declared to be. -/
theorem feasible (h : sv.Begins p g r₀) (hguess : g.states = .none ∨ g.feasible = true) :
    r₀.workspace.feasible = true := by
  rcases h.starts.states with ⟨-, hflag, -⟩ | ⟨hstates, hflag⟩
  · exact hflag
  · rw [hstates] at hguess
    simpa [hflag] using hguess

theorem validate (h : sv.Begins p g r₀) : sv.config.validate = .ok () := by
  obtain ⟨hinit, -⟩ := h
  exact (initialize?_ok hinit).1

theorem accepted (h : sv.Begins p g r₀) : r₀.tally.accepted = 0 := by
  obtain ⟨-, -⟩ := h
  rfl

theorem observers (h : sv.Begins p g r₀) : r₀.observers = sv.observers := by
  obtain ⟨-, -⟩ := h
  rfl

theorem initialCost (h : sv.Begins p g r₀) : r₀.initialCost = r₀.workspace.cost := by
  obtain ⟨-, -⟩ := h
  rfl

end Begins

theorem solveWithin_of_begins {r₀ : Run α s nus} (h : sv.Begins p g r₀)
    (hbudget : budget < Vec.sizeLimit) :
    sv.solveWithin p g clock budget = r₀.iterateFrom sv.config clock budget 0 := by
  obtain ⟨hinit, hfin⟩ := h
  unfold solveWithin
  simp only [hinit, if_pos hbudget, if_pos hfin]
  rfl

/-- A solve that answers has begun its iterations. -/
theorem begins_of_ok {res : SolveResult α}
    (h : (sv.solveWithin p g clock budget).outcome = .ok res) :
    ∃ r₀, sv.Begins p g r₀ ∧ budget < Vec.sizeLimit := by
  unfold solveWithin at h
  dsimp only at h
  split at h
  next => cases h
  next p' w hinit =>
    split at h
    next hbudget =>
      split at h
      next hfin => exact ⟨_, ⟨hinit, hfin⟩, hbudget⟩
      next => cases h
    next => cases h

/-- **A solve that answers ends with a run, and the answer is what that run finishes with.** -/
theorem solveWithin_ok {res : SolveResult α}
    (h : (sv.solveWithin p g clock budget).outcome = .ok res) :
    ∃ r₀ r status n, sv.Begins p g r₀ ∧ r₀.Ends sv.config clock budget r status n ∧
      sv.solveWithin p g clock budget = r.finish sv.config status n := by
  obtain ⟨r₀, hbegin, hbudget⟩ := begins_of_ok h
  have heq : sv.solveWithin p g clock budget = _ := solveWithin_of_begins hbegin hbudget
  rcases r₀.iterateFrom_ends budget 0 (Nat.zero_add _) .start with
    ⟨r, status, n, hend, hfinish⟩ | ⟨i, r₁, r', e, -, -, habort⟩
  · exact ⟨r₀, r, status, n, hbegin, hend, heq.trans hfinish⟩
  · rw [heq, habort] at h
    cases h

/-- How a solve can come to its end, with what it leaves behind. -/
inductive Concludes (sv : Solver α s nus) (p : Problem α s nus) (g : Guess α) (clock : Nat → Nat)
    (budget : Nat) : Solved α s nus → Prop where
  /-- The arguments are refused. -/
  | refused {e : Error α} (hinit : sv.initialize? p g = .error e) :
      Concludes sv p g clock budget ⟨p, sv, [], .error (.error e)⟩
  /-- There is no room for the budget. -/
  | misused {p' : Problem α s nus} {w : Workspace α s nus}
      (hinit : sv.initialize? p g = .ok (p', w)) (hbudget : ¬ budget < Vec.sizeLimit) :
      Concludes sv p g clock budget ⟨p', { sv with workspace := some w }, [], .error .misuse⟩
  /-- The initial cost is not finite. -/
  | invalid {p' : Problem α s nus} {w : Workspace α s nus} {e : SolverError α}
      (hinit : sv.initialize? p g = .ok (p', w)) (hbudget : budget < Vec.sizeLimit)
      (hinfinite : Scalar.isFinite (p'.evaluate w.path).totalCost = false)
      (he : e = .invalidNumericValue (.initialCost (p'.evaluate w.path).totalCost)
        w.path.toTrajectory) :
      Concludes sv p g clock budget
        ⟨p'.evaluate w.path, { sv with workspace := some w }, [.failure (.solver e)],
          .error (.error (.solver e))⟩
  /-- The iterations end. -/
  | ended {r₀ r : Run α s nus} {status : Status} {n : Nat} (hbegin : sv.Begins p g r₀)
      (hbudget : budget < Vec.sizeLimit) (hend : r₀.Ends sv.config clock budget r status n) :
      Concludes sv p g clock budget (r.finish sv.config status n)
  /-- An iteration fails. -/
  | failed {r₀ r r' : Run α s nus} {i : Nat} {e : SolverError α} (hbegin : sv.Begins p g r₀)
      (hbudget : budget < Vec.sizeLimit) (hperf : r₀.Performs sv.config clock budget i r)
      (hfail : r.iterate sv.config i = .fail r' e) :
      Concludes sv p g clock budget (r'.abort sv.config e)

/-- A solve leaves the configuration. -/
theorem Concludes.config {solved : Solved α s nus} (h : sv.Concludes p g clock budget solved) :
    solved.solver.config = sv.config := by
  cases h <;> rfl

/-- A solve that is not refused leaves a workspace. -/
theorem Concludes.isSome_workspace {solved : Solved α s nus}
    (h : sv.Concludes p g clock budget solved) (hnone : sv.workspace = .none) :
    solved.solver.workspace.isSome = true ↔ ∃ started, sv.initialize? p g = .ok started := by
  cases h with
  | refused hinit => simp [hinit, hnone]
  | misused hinit => simp [hinit]
  | invalid hinit => simp [hinit]
  | ended hbegin =>
    obtain ⟨hinit, -⟩ := hbegin
    exact ⟨fun _ => ⟨_, hinit⟩, fun _ => rfl⟩
  | failed hbegin =>
    obtain ⟨hinit, -⟩ := hbegin
    exact ⟨fun _ => ⟨_, hinit⟩, fun _ => rfl⟩

theorem solveWithin_of_refused {e : Error α} (hinit : sv.initialize? p g = .error e)
    (clock : Nat → Nat) (budget : Nat) :
    sv.solveWithin p g clock budget = ⟨p, sv, [], .error (.error e)⟩ := by
  unfold solveWithin
  simp only [hinit]

theorem solveWithin_of_misused {p' : Problem α s nus} {w : Workspace α s nus}
    (hinit : sv.initialize? p g = .ok (p', w)) (hbudget : ¬ budget < Vec.sizeLimit)
    (clock : Nat → Nat) :
    sv.solveWithin p g clock budget =
      ⟨p', { sv with workspace := some w }, [], .error .misuse⟩ := by
  unfold solveWithin
  simp only [hinit, if_neg hbudget]

theorem solveWithin_of_invalid {p' : Problem α s nus} {w : Workspace α s nus}
    (hinit : sv.initialize? p g = .ok (p', w)) (hbudget : budget < Vec.sizeLimit)
    (hinfinite : Scalar.isFinite (p'.evaluate w.path).totalCost = false) (clock : Nat → Nat) :
    let e := SolverError.invalidNumericValue (.initialCost (p'.evaluate w.path).totalCost)
      w.path.toTrajectory
    sv.solveWithin p g clock budget =
      ⟨p'.evaluate w.path, { sv with workspace := some w }, [.failure (.solver e)],
        .error (.error (.solver e))⟩ := by
  unfold solveWithin
  simp only [hinit, if_pos hbudget, hinfinite, if_neg Bool.false_ne_true]
  rfl

/-- **Every solve comes to one of these ends.** -/
theorem solveWithin_cases (sv : Solver α s nus) (p : Problem α s nus) (g : Guess α)
    (clock : Nat → Nat) (budget : Nat) :
    sv.Concludes p g clock budget (sv.solveWithin p g clock budget) := by
  cases hinit : sv.initialize? p g with
  | error e =>
    rw [solveWithin_of_refused hinit]
    exact .refused hinit
  | ok started =>
    obtain ⟨p', w⟩ := started
    by_cases hbudget : budget < Vec.sizeLimit
    · cases hfin : Scalar.isFinite (p'.evaluate w.path).totalCost with
      | false =>
        rw [solveWithin_of_invalid hinit hbudget hfin]
        exact .invalid hinit hbudget hfin rfl
      | true =>
        have hbegin := Begins.intro hinit hfin
        rw [solveWithin_of_begins hbegin hbudget]
        rcases (sv.firstRun p' w).iterateFrom_ends budget 0 (Nat.zero_add _) .start with
          ⟨r, status, n, hend, heq⟩ | ⟨i, r, r', e, hperf, hfail, heq⟩
        · rw [heq]
          exact .ended hbegin hbudget hend
        · rw [heq]
          exact .failed hbegin hbudget hperf hfail
    · rw [solveWithin_of_misused hinit hbudget]
      exact .misused hinit hbudget

end Solver

/-! ## An example -/

/-- A point on a line at `1`. It can be pushed once, and where it is and how hard it is pushed cost
half their squares. -/
def Problem.push (α : Type) [Scalar α] : Problem α (.euclidean 1) [1] :=
  let m : Model α (.euclidean 1) 1 :=
    .lqr (.driftless (.identity 1) (.identity 1) (.identity 1) (.identity 1))
  ⟨.replicate 1 1, .stage ⟨m, .zero⟩ (.last ⟨1, m, .zero⟩)⟩

end Shooting
