import Shooting.Proofs.Solver.Consistency
import Shooting.Proofs.Exact.Solve
import Shooting.Proofs.Exact.StateSpace

/-!
# The feasibility flag

Whether a path has gaps is not computed. A workspace carries a flag that the caller or a rollout
sets and that a full step raises. The flag can be trusted from the first accepted step on:

* `Run.FlagHolds`, the invariant: while the flag is up, either no step was accepted yet and the path
  is the one the solve started from, or the path is a rollout of its own controls;
* `iterate_feasible`: no iteration lowers the flag;
* `Iteration.converged`: only a run whose flag is up ends as converged.

So a solve that did not start from states declared feasible converges to nothing but a rollout
(`flag_is_sound`). Its gaps are the differences of states from themselves, which over the reals are
zero.
-/

namespace Shooting

variable {α : Type} [Scalar α] {s : StateSpace} {nus : List Nat}

/-- There is no verdict on an infeasible path. -/
theorem Workspace.feasible_of_verdict {w : Workspace α s nus} {c : Config α} {status : Status}
    (h : w.verdict c = some status) : w.feasible = true := by
  unfold verdict at h
  split at h
  next => cases h
  next hflag => simpa using hflag

/-- The gaps of a rollout are the differences of its states from themselves. -/
theorem Problem.IsRollout.gapsAlong {p : Problem α s nus} {path : Path α s nus}
    (h : p.IsRollout path) : p.gapsAlong path = path.stateList.map fun x => s.diff x x := by
  unfold Problem.gapsAlong
  rw [← h, List.zipWith_self]

namespace Run

variable {p : Problem α s nus} {c : Config α} {r₀ r r' : Run α s nus} {i : Nat}

/-- What the flag of the run `r` says in a solve of `p` that began with `r₀`. -/
def FlagHolds (r : Run α s nus) (p : Problem α s nus) (r₀ : Run α s nus) : Prop :=
  r.workspace.feasible = true →
    (r.tally.accepted = 0 ∧ r.workspace.path = r₀.workspace.path ∧
        r₀.workspace.feasible = true) ∨
      p.IsRollout r.workspace.path

theorem Stays.flagHolds (hs : r.Stays r') (h : r.FlagHolds p r₀) : r'.FlagHolds p r₀ := by
  unfold FlagHolds
  rw [hs.feasible, hs.path, hs.accepted]
  exact h

/-- A step that leaves the flag up has closed all gaps. -/
theorem Takes.flagHolds {policy : Policy α s.ndx nus} {f : Found α s nus}
    (ht : r.Takes c policy f r') (hsame : r.problem.Same p) : r'.FlagHolds p r₀ := by
  intro hflag
  rw [ht.feasible] at hflag
  rw [ht.path]
  exact .inr ((hsame.isRollout _).mp (ht.found.isRollout hflag))

theorem iterate_flagHolds (hc : r.Consistent p) (h : r.FlagHolds p r₀) :
    (r.iterate c i).run.FlagHolds p r₀ := by
  rcases (iterate_cases c r i).stays_or_takes with hs | ⟨r₁, policy, f, hprep, -, -, ht⟩
  · exact hs.flagHolds h
  · exact ht.flagHolds (refresh_consistent hc hprep).1.same

/-- **No iteration lowers the flag.** -/
theorem iterate_feasible (h : r.workspace.feasible = true) :
    (r.iterate c i).run.workspace.feasible = true := by
  rcases (iterate_cases c r i).stays_or_takes with hs | ⟨r₁, policy, f, hprep, -, -, ht⟩
  · rw [hs.feasible, h]
  · rw [ht.feasible, (stays_refresh hprep).feasible, h, Bool.true_or]

end Run

namespace Solver

variable {sv : Solver α s nus} {p : Problem α s nus} {g : Guess α} {clock : Nat → Nat}
  {budget : Nat} {r₀ : Run α s nus}

theorem Begins.flagHolds_of_reaches (h : sv.Begins p g r₀) {i : Nat} {r : Run α s nus}
    (hr : r₀.Reaches sv.config clock budget i r) : r.FlagHolds p r₀ := by
  have hstart : r₀.FlagHolds p r₀ := by
    intro hflag
    exact .inl ⟨h.accepted, rfl, hflag⟩
  exact hr.induct (P := fun r => r.FlagHolds p r₀) hstart fun hperf hholds =>
    Run.iterate_flagHolds (h.consistent_of_reaches hperf.reached) hholds

/-- A solve ends as converged with a run whose flag is up and holds. -/
theorem Begins.flag_of_converged (h : sv.Begins p g r₀) {r : Run α s nus} {status : Status}
    {n : Nat} (hend : r₀.Ends sv.config clock budget r status n)
    (hconv : status.isConverged = true) : r.workspace.feasible = true ∧ r.FlagHolds p r₀ := by
  cases hend with
  | budget => cases hconv
  | timeout => cases hconv
  | @stop i n r r' status hperf hstop =>
    obtain ⟨r₁, policy, -, -, -, hverdict⟩ :=
      (Run.iterate_cases sv.config r i).converged hstop hconv
    refine ⟨Workspace.feasible_of_verdict hverdict, ?_⟩
    have hholds := Run.iterate_flagHolds (c := sv.config) (i := i)
      (h.consistent_of_reaches hperf.reached) (h.flagHolds_of_reaches hperf.reached)
    rwa [hstop] at hholds

/-- What the feasibility flag is worth in a solve, whatever the caller declared. -/
structure TrustsFlag (sv : Solver α s nus) (p : Problem α s nus) (g : Guess α)
    (clock : Nat → Nat) (budget : Nat) : Prop where
  /-- The flag comes from the caller, or from a rollout. -/
  start : ∀ {r₀}, sv.Begins p g r₀ → g.Starts p r₀.workspace.path r₀.workspace.feasible
  /-- At the end of every iteration the flag is right, unless there was no step and it still says
  what it said at the start. -/
  holds : ∀ {r₀ i r}, sv.Begins p g r₀ → r₀.Performs sv.config clock budget i r →
    (r.iterate sv.config i).run.FlagHolds p r₀
  /-- Once the flag is up, it is up at the end of every later iteration. -/
  stays : ∀ {r₀ i j r r'}, sv.Begins p g r₀ → r₀.Performs sv.config clock budget i r →
    r₀.Performs sv.config clock budget j r' → i ≤ j → r.workspace.feasible = true →
      (r'.iterate sv.config j).run.workspace.feasible = true
  /-- A solve converges to a rollout, unless the states it was given were declared to be one. -/
  converged : ∀ {res}, (sv.solveWithin p g clock budget).outcome = .ok res →
    g.states = none ∨ g.feasible = false → res.converged = true →
      ∃ path, res.trajectory = path.toTrajectory ∧ p.IsRollout path ∧
        res.gaps = path.stateList.map fun x => (s.diff x x).toList

theorem trustsFlag (sv : Solver α s nus) (p : Problem α s nus) (g : Guess α) (clock : Nat → Nat)
    (budget : Nat) : sv.TrustsFlag p g clock budget := by
  refine ⟨Begins.starts, ?_, ?_, ?_⟩
  · intro r₀ i r hbegin hperf
    have hconsistent := hbegin.consistent_of_reaches hperf.reached
    exact Run.iterate_flagHolds hconsistent (hbegin.flagHolds_of_reaches hperf.reached)
  · intro r₀ i j r r' hbegin hperf hperf' hle hflag
    have hlater := hperf.reached.later (P := fun r => r.workspace.feasible = true)
      (fun _ _ => Run.iterate_feasible) hperf'.reached hle hflag
    exact Run.iterate_feasible hlater
  · intro res hout hguess hconv
    obtain ⟨r₀, r, status, n, hbegin, hend, hfinish⟩ := solveWithin_ok hout
    rw [hfinish] at hout
    obtain ⟨hdescribes, -⟩ := (hbegin.consistent_of_ends hend).describes hout
    have hstatus : status.isConverged = true := by
      obtain rfl := Except.ok.inj hout
      exact hconv
    obtain ⟨hflag, hholds⟩ := hbegin.flag_of_converged hend hstatus
    have hrollout : p.IsRollout r.workspace.path := by
      rcases hholds hflag with ⟨-, hpath, hstart⟩ | hrollout
      · rw [hpath]
        rcases hbegin.starts.states with ⟨-, -, hrollout⟩ | ⟨hstates, hfeasible⟩
        · exact hrollout
        · -- the caller gave states and did not declare them feasible
          rw [hstates, ← hfeasible, hstart] at hguess
          simp at hguess
      · exact hrollout
    refine ⟨_, hdescribes.trajectory, hrollout, ?_⟩
    rw [hdescribes.gaps, hrollout.gapsAlong, List.map_map]
    rfl

/-- **The feasibility flag is sound**, in arithmetic of any kind. Over the reals, whatever does not
start from states declared feasible converges to a path without gaps. -/
theorem flag_is_sound {s : StateSpace} {nus : List Nat} :
    (∀ {α : Type} [Scalar α] (sv : Solver α s nus) (p : Problem α s nus) (g : Guess α)
      (clock : Nat → Nat) (budget : Nat), sv.TrustsFlag p g clock budget) ∧
    ∀ (sv : Solver ℝ s nus) (p : Problem ℝ s nus) (g : Guess ℝ) (clock : Nat → Nat) (budget : Nat)
      {res : SolveResult ℝ}, (sv.solveWithin p g clock budget).outcome = .ok res →
      g.states = none ∨ g.feasible = false → res.converged = true →
        ∀ gap ∈ res.gaps, gap = (0 : Vec ℝ s.ndx).toList := by
  refine ⟨trustsFlag, ?_⟩
  intro sv p g clock budget res hout hguess hconv gap hgap
  obtain ⟨path, -, -, hgaps⟩ := (trustsFlag sv p g clock budget).converged hout hguess hconv
  rw [hgaps] at hgap
  obtain ⟨x, -, rfl⟩ := List.mem_map.mp hgap
  rw [s.diff_self]

/-- Over the reals, a solve of a problem without running stages converges. -/
theorem converges_without_stages {s : StateSpace} (p : Problem ℝ s []) :
    ∃ res, ((Solver.new .standard .none).solveWithin p .none (fun _ => 0) 1).outcome = .ok res ∧
      res.converged = true := by
  obtain ⟨r₀, hbegin⟩ : ∃ r₀, (Solver.new .standard .none).Begins p .none r₀ :=
    exists_begins Config.isValid_standard p
  have hthreshold : 0 < (Config.standard : Config ℝ).stopThreshold := by
    norm_num [Config.standard]
  obtain ⟨r, hstop⟩ : ∃ r, r₀.iterate (Solver.new .standard .none : Solver ℝ s []).config 0 =
      .stop r .converged 0 := Run.iterate_without_stages (hbegin.feasible (.inl rfl)) hthreshold
  have hbudget : 1 < Vec.sizeLimit := by norm_num [Vec.sizeLimit]
  rw [solveWithin_of_begins hbegin hbudget]
  unfold Run.iterateFrom
  rw [if_neg (by simp [Run.isTimedOut])]
  rw [hstop]
  exact ⟨_, rfl, rfl⟩

set_option maxRecDepth 100000 in
/-- A solve that converges to a rollout, and one over the reals that converges without gaps. -/
theorem flag_is_sound_push :
    (∃ res, ((Solver.new .standard .none).solveWithin (Problem.push Float) .none
        (fun _ => 0) 3).outcome = .ok res ∧ res.converged = true ∧
      ∃ path, res.trajectory = path.toTrajectory ∧ (Problem.push Float).IsRollout path) ∧
    ∃ res, ((Solver.new .standard .none).solveWithin
        (⟨0, .last ⟨0, .lqr (.terminal (.identity 1)), .zero⟩⟩ : Problem ℝ (.euclidean 1) []) .none
        (fun _ => 0) 1).outcome = .ok res ∧ res.converged = true ∧
      ∀ gap ∈ res.gaps, gap = (0 : Vec ℝ 1).toList := by
  have hsolve : ((Solver.new .standard .none).solveWithin (Problem.push Float) .none
      (fun _ => 0) 3).outcome.toOption.any SolveResult.converged = true := by
    decide +kernel
  constructor
  · cases hout : ((Solver.new .standard .none).solveWithin (Problem.push Float) .none
        (fun _ => 0) 3).outcome with
    | error e =>
      rw [hout] at hsolve
      cases hsolve
    | ok res =>
      rw [hout] at hsolve
      obtain ⟨path, hpath, hrollout, -⟩ :=
        (flag_is_sound.1 _ _ _ _ _).converged hout (.inl rfl) hsolve
      exact ⟨res, rfl, hsolve, path, hpath, hrollout⟩
  · obtain ⟨res, hout, hconv⟩ := converges_without_stages
      (⟨0, .last ⟨0, .lqr (.terminal (.identity 1)), .zero⟩⟩ : Problem ℝ (.euclidean 1) [])
    exact ⟨res, hout, hconv, flag_is_sound.2 _ _ _ _ _ hout (.inl rfl) hconv⟩

end Solver

end Shooting
