import Shooting.Proofs.Solver.Consistency
import Shooting.Proofs.Solver.Reports

/-!
# What reports say of trajectories

A report comes with a trajectory. Its cost is the cost of that trajectory, whatever the iteration
came to. Its feasibility is measured before the line search, and so it is the length of the gaps of
the trajectory only if that has stayed the same: after a step it is still that of the trajectory
before (`Report.Describes`, `Iteration.adds_or`).

Over a whole solve this is a walk along trajectories (`Problem.Told`), which begins where the solve
begins and ends where it ends (`Solver.reports_describe`).

No law of arithmetic is used.
-/

namespace Shooting

variable {α : Type} [Scalar α] {s : StateSpace} {nus : List Nat}

/-- The sum of the lengths of the gaps along a path. -/
def Problem.gapLengthAlong (p : Problem α s nus) (path : Path α s nus) : α :=
  ((p.gapsAlong path).map Vec.norm).foldl (· + ·) 0

/-- What the report of an iteration says that went from one path to another. -/
structure Report.Describes (report : Report α) (p : Problem α s nus) (before after : Path α s nus) :
    Prop where
  trajectory : report.trajectory = after.toTrajectory
  cost : report.metrics.cost = p.costAlong after
  /-- Without a step all figures are those of the trajectory that is reported. -/
  own : report.metrics.accepted = false →
    after = before ∧ report.metrics.feasibility = p.gapLengthAlong after
  /-- After a step the feasibility is that of the trajectory before. -/
  previous : report.metrics.accepted = true → report.metrics.feasibility = p.gapLengthAlong before

/-- The reports of iterations that went from one path to the next, from the first path of a solve to
its last. -/
inductive Problem.Told (p : Problem α s nus) (first : Path α s nus) :
    List (Report α) → Path α s nus → Prop where
  | start : Told p first [] first
  | next {reports : List (Report α)} {before after : Path α s nus} {report : Report α}
      (told : Told p first reports before) (describes : report.Describes p before after) :
      Told p first (reports ++ [report]) after

namespace Run

variable {p : Problem α s nus} {c : Config α} {clock : Nat → Nat} {budget i n : Nat}
  {r₀ r r' : Run α s nus}

/-! ## One iteration -/

/-- Iteration number `i` from the run `r` leads to the run `r'` and is reported. -/
structure Adds (p : Problem α s nus) (r : Run α s nus) (i : Nat) (r' : Run α s nus)
    (report : Report α) : Prop where
  observers : r'.observers = r.observers.hear report
  iteration : report.metrics.iteration = i
  describes : report.Describes p r.workspace.path r'.workspace.path

/-- The log is no report. -/
theorem Adds.say {report : Report α} (h : r.Adds p i r' report) (events : List (Event α)) :
    r.Adds p i (r'.say events) report :=
  ⟨h.observers, h.iteration, h.describes⟩

/-- An iteration leads from the run `r` to the run `r'`, of the same path, and is not reported. -/
structure Hushes (r r' : Run α s nus) : Prop where
  observers : r'.observers = r.observers
  path : r'.workspace.path = r.workspace.path

theorem observers_refresh {r₁ : Run α s nus} (h : r.refresh i = .ok r₁) :
    r₁.observers = r.observers := by
  rcases refresh_ok h with ⟨-, rfl⟩ | ⟨-, rfl⟩ <;> rfl

/-- Once the gaps of a run have been taken they are those of its path. -/
theorem feasibility_refresh {r₁ : Run α s nus} (hc : r.Consistent p) (h : r.refresh i = .ok r₁) :
    r₁.workspace.feasibility = p.gapLengthAlong r.workspace.path := by
  obtain ⟨hc₁, hexp⟩ := refresh_consistent hc h
  unfold Workspace.feasibility Problem.gapLengthAlong
  rw [Gaps.total_eq, hc₁.gaps hexp, (stays_refresh h).path]

/-- A report without a step. -/
theorem adds_report_of_stays {r₁ q : Run α s nus} {m : Metrics α} (hc : r.Consistent p)
    (hprep : r.refresh i = .ok r₁) (observers : q.observers = r₁.observers) (hs : r₁.Stays q)
    (iteration : m.iteration = i) (cost : m.cost = q.workspace.cost) (accepted : m.accepted = false)
    (feasibility : m.feasibility = r₁.workspace.feasibility) :
    r.Adds p i (q.report m) ⟨m, q.workspace.path.toTrajectory⟩ := by
  have hstay := (stays_refresh hprep).trans hs
  refine ⟨congrArg (Observers.hear · ⟨m, q.workspace.path.toTrajectory⟩)
    (observers.trans (observers_refresh hprep)), iteration, rfl, ?_, fun _ => ⟨hstay.path, ?_⟩,
    fun h => absurd (h.symm.trans accepted) (by decide)⟩
  · show m.cost = p.costAlong q.workspace.path
    rw [cost, hstay.cost, hstay.path, hc.cost]
  · show m.feasibility = p.gapLengthAlong q.workspace.path
    rw [feasibility, hstay.path, feasibility_refresh hc hprep]

/-- **What an iteration reports**, if it reports at all. One that ends the solve without having done
anything, and one that fails, do not. -/
theorem Iteration.adds_or {step : Step α s nus} (hcase : r.Iteration c i step)
    (h : r.Consistent p) :
    (∃ report, r.Adds p i step.run report ∧
        (step = .next step.run ∨ ∃ status, step = .stop step.run status (i + 1))) ∨
      (r.Hushes step.run ∧
        ((∃ status, step = .stop step.run status i) ∨ ∃ e, step = .fail step.run e)) := by
  have hushed {r₁ r' : Run α s nus} (hprep : r.refresh i = .ok r₁)
      (hobservers : r'.observers = r₁.observers) (hpath : r'.workspace.path = r₁.workspace.path) :
      r.Hushes r' := by
    exact ⟨hobservers.trans (observers_refresh hprep), hpath.trans (stays_refresh hprep).path⟩
  cases hcase with
  | @invalid r' e hprep =>
    obtain ⟨-, -, rfl, -⟩ := refresh_error hprep
    exact .inr ⟨⟨rfl, rfl⟩, .inr ⟨e, rfl⟩⟩
  | @unplanned r₁ policy failure hprep hback =>
    rcases afterBackwardFailure_cases c (r₁.withdrawn policy failure) i with
      ⟨-, heq⟩ | ⟨-, heq⟩ <;> rw [heq]
    · exact .inr ⟨hushed hprep rfl rfl, .inl ⟨_, rfl⟩⟩
    · exact .inl ⟨_, adds_report_of_stays h hprep rfl ⟨rfl, rfl, rfl, rfl, rfl⟩ rfl rfl rfl rfl,
        .inl rfl⟩
  | @optimal r₁ policy status hprep hback hend =>
    exact .inr ⟨hushed hprep rfl rfl, .inl ⟨status, rfl⟩⟩
  | @stepped r₁ policy f hprep hback hgo hfound =>
    have ht := takes_afterStep hfound i (r₁.planned policy).workspace.feasibility
    have hcost := (ht.consistent (refresh_consistent h hprep).1).cost
    have hfeasibility : r₁.workspace.feasibility = p.gapLengthAlong r.workspace.path :=
      feasibility_refresh h hprep
    have hobservers : r₁.observers = r.observers := observers_refresh hprep
    -- the cost is that of the step, the feasibility that of the run before it
    exact .inl ⟨⟨_, _⟩, ⟨congrArg (Observers.hear · ⟨_, _⟩) hobservers, rfl, rfl, hcost, nofun,
      fun _ => hfeasibility⟩, .inl rfl⟩
  | @rejected r₁ policy hprep hback hgo hfound =>
    rcases afterRejection_cases c ((r₁.planned policy).searched c) i _ _ with
      ⟨-, heq⟩ | ⟨-, heq⟩ <;> rw [heq]
    · refine .inl ⟨_, Adds.say (by
        exact adds_report_of_stays h hprep rfl ⟨rfl, rfl, rfl, rfl, rfl⟩ rfl rfl rfl rfl) _,
        .inr ⟨_, rfl⟩⟩
    · exact .inl ⟨_, adds_report_of_stays h hprep rfl ⟨rfl, rfl, rfl, rfl, rfl⟩ rfl rfl rfl rfl,
        .inl rfl⟩

/-! ## All iterations -/

/-- What was told in a solve that began with the run `r₀`, up to the run `r` after `n` reports. -/
structure Tells (p : Problem α s nus) (r₀ : Run α s nus) (n : Nat) (r : Run α s nus)
    (reports : List (Report α)) : Prop where
  observers : r.observers = r₀.observers.hearAll reports
  iterations : reports.map (·.metrics.iteration) = List.range n
  told : p.Told r₀.workspace.path reports r.workspace.path

variable {reports : List (Report α)}

theorem Tells.next {report : Report α} (h : Tells p r₀ i r reports) (hadds : r.Adds p i r' report) :
    Tells p r₀ (i + 1) r' (reports ++ [report]) := by
  refine ⟨?_, ?_, h.told.next hadds.describes⟩
  · rw [Observers.hearAll_append, ← h.observers]
    exact hadds.observers
  · rw [List.map_append, h.iterations, List.range_succ]
    exact congrArg (List.range i ++ [·]) hadds.iteration

theorem Tells.hushed (h : Tells p r₀ i r reports) (hhush : r.Hushes r') :
    Tells p r₀ i r' reports :=
  ⟨hhush.observers.trans h.observers, h.iterations, hhush.path ▸ h.told⟩

/-- **What was told up to a run that is reached**: one report for every iteration. -/
theorem Reaches.tells (hc : ∀ {i r}, r₀.Reaches c clock budget i r → r.Consistent p)
    (h : r₀.Reaches c clock budget i r) : ∃ reports, Tells p r₀ i r reports := by
  induction h with
  | start => exact ⟨[], rfl, rfl, .start⟩
  | @next i r r' reached within inTime hnext ih =>
    obtain ⟨reports, htells⟩ := ih
    have hrun : (r.iterate c i).run = r' := congrArg Step.run hnext
    rcases (iterate_cases c r i).adds_or (hc reached) with
      ⟨report, hadds, -⟩ | ⟨-, ⟨status, hstop⟩ | ⟨e, hfail⟩⟩
    · exact ⟨_, htells.next (hrun ▸ hadds)⟩
    · cases hnext.symm.trans hstop
    · cases hnext.symm.trans hfail

/-- What was told up to the run with which a solve ends. -/
theorem Ends.tells (hc : ∀ {i r}, r₀.Reaches c clock budget i r → r.Consistent p) {status : Status}
    (h : r₀.Ends c clock budget r status n) : ∃ reports, Tells p r₀ n r reports := by
  cases h with
  | budget reached => exact reached.tells hc
  | timeout reached => exact reached.tells hc
  | @stop i n r₁ _ status hperf hstop =>
    obtain ⟨reports, htells⟩ := hperf.reached.tells hc
    have hrun : (r₁.iterate c i).run = r := congrArg Step.run hstop
    rcases (iterate_cases c r₁ i).adds_or (hc hperf.reached) with
      ⟨report, hadds, hnext | ⟨status', hstop'⟩⟩ | ⟨hhush, ⟨status', hstop'⟩ | ⟨e, hfail⟩⟩
    · cases hstop.symm.trans hnext
    · cases hstop.symm.trans hstop'
      exact ⟨_, htells.next (hrun ▸ hadds)⟩
    · cases hstop.symm.trans hstop'
      exact ⟨_, htells.hushed (hrun ▸ hhush)⟩
    · cases hstop.symm.trans hfail

end Run

/-- A point at `1` that is taken to be at `3` and then at `5`. -/
def Guess.astray : Guess Float := ⟨some [[3], [5]], some [[0]], false, .none⟩

namespace Solver

variable {sv : Solver α s nus} {p : Problem α s nus} {g : Guess α} {clock : Nat → Nat}
  {budget : Nat} {r₀ : Run α s nus}

/-- **What observers are told in a solve.** They hear one report for every completed iteration, in
order, and nothing else: its figures and right after them its trajectory. Each report is about the
trajectory that comes with it and the one before: its cost is the cost of the former; its
feasibility is the length of the gaps of the former too if no step was accepted, and that of the
gaps of the latter if one was. -/
theorem reports_describe (hbegin : sv.Begins p g r₀) (hbudget : budget < Vec.sizeLimit)
    (clock : Nat → Nat) :
    ∃ reports last,
      sv.observers.Hears (sv.solveWithin p g clock budget).solver.observers reports ∧
        reports.map (·.metrics.iteration) = List.range reports.length ∧
        p.Told r₀.workspace.path reports last ∧
        (sv.solveWithin p g clock budget).solver.trajectory = last.toTrajectory ∧
        ∀ res, (sv.solveWithin p g clock budget).outcome = .ok res →
          res.iterations = reports.length := by
  have hc {i : Nat} {r : Run α s nus} (h : r₀.Reaches sv.config clock budget i r) :
      r.Consistent p := hbegin.consistent_of_reaches h
  have hlength {n : Nat} {r : Run α s nus} {reports : List (Report α)}
      (h : Run.Tells p r₀ n r reports) : reports.length = n := by
    rw [← List.length_map (·.metrics.iteration), h.iterations, List.length_range]
  rw [solveWithin_of_begins hbegin hbudget]
  rcases r₀.iterateFrom_ends budget 0 (Nat.zero_add _) .start with
    ⟨r, status, n, hend, heq⟩ | ⟨i, r, r', e, hperf, hfail, heq⟩
  · obtain ⟨reports, htells⟩ := hend.tells hc
    rw [heq]
    have hheard : (r.finish sv.config status n).solver.observers = sv.observers.hearAll reports :=
      r.settle_observers.trans (hbegin.observers ▸ htells.observers)
    refine ⟨reports, r.workspace.path, ?_, (hlength htells).symm ▸ htells.iterations, htells.told,
      congrArg Path.toTrajectory r.settle_path, ?_⟩
    · rw [hheard]
      exact sv.observers.hears_hearAll reports
    · intro res hout
      exact (Run.answers_of_finish hout).iterations.trans (hlength htells).symm
  · obtain ⟨reports, htells⟩ := hperf.reached.tells hc
    rw [heq]
    have hhush : r.Hushes r' := by
      rcases (Run.iterate_cases sv.config r i).adds_or (hc hperf.reached) with
        ⟨report, -, hnext | ⟨status, hstop⟩⟩ | ⟨hhush, -⟩
      · cases hfail.symm.trans hnext
      · cases hfail.symm.trans hstop
      · rwa [hfail] at hhush
    have htells' := htells.hushed hhush
    have hheard : (r'.abort sv.config e).solver.observers = sv.observers.hearAll reports :=
      hbegin.observers ▸ htells'.observers
    refine ⟨reports, r'.workspace.path, ?_, (hlength htells').symm ▸ htells'.iterations,
      htells'.told, rfl, nofun⟩
    rw [hheard]
    exact sv.observers.hears_hearAll reports

set_option maxRecDepth 100000 in
/-- A solve with one iteration and one report. -/
theorem reports_describe_astray :
    ∃ (r₀ : Run Float (.euclidean 1) [1]) (reports : List (Report Float))
      (last : Path Float (.euclidean 1) [1]),
      (Solver.new .standard (Observers.none.add .history)).Begins (.push Float) .astray r₀ ∧
        1 < Vec.sizeLimit ∧ reports.length = 1 ∧
        (Problem.push Float).Told r₀.workspace.path reports last := by
  have hsolve : ((Solver.new .standard (Observers.none.add .history)).solveWithin
      (Problem.push Float) .astray (fun _ => 0) 1).outcome.toOption.any (·.iterations == 1) =
        true := by
    decide +kernel
  obtain ⟨res, hout, hiterations⟩ := exists_ok_of_any hsolve
  obtain ⟨r₀, hbegin, hbudget⟩ := begins_of_ok hout
  obtain ⟨reports, last, -, -, htold, -, hlength⟩ := reports_describe hbegin hbudget (fun _ => 0)
  have hone : reports.length = 1 := (hlength res hout).symm.trans (beq_iff_eq.mp hiterations)
  exact ⟨r₀, reports, last, hbegin, hbudget, hone, htold⟩

set_option maxRecDepth 100000 in
/-- **The feasibility reported after a step is not that of the trajectory.** One full step closes
two gaps of length two each. The report has the cost after the step and the gaps before it. -/
theorem reported_feasibility_lags :
    ∃ (res : SolveResult Float) (m : Metrics Float),
      ((Solver.new .standard (Observers.none.add .history)).solveWithin (.push Float) .astray
        (fun _ => 0) 1).outcome = .ok res ∧
      ((Solver.new .standard (Observers.none.add .history)).solveWithin (.push Float) .astray
        (fun _ => 0) 1).solver.observers.history = [m] ∧
      m.accepted = true ∧ m.cost = res.finalCost ∧ res.gaps = [[0], [0]] ∧
      res.info.feasibility = 0 ∧ m.feasibility = 4 := by
  have hsolve : ((Solver.new .standard (Observers.none.add .history)).solveWithin
      (.push Float) .astray (fun _ => 0) 1).outcome.toOption.any (fun res =>
        ((Solver.new .standard (Observers.none.add .history)).solveWithin
          (.push Float) .astray (fun _ => 0) 1).solver.observers.history.head?.any fun m =>
            decide (m.accepted = true ∧ m.cost = res.finalCost ∧ res.gaps = [[0], [0]] ∧
              res.info.feasibility = 0 ∧ m.feasibility = 4)) = true := by
    decide +kernel
  have hone : ((Solver.new .standard (Observers.none.add .history)).solveWithin
      (.push Float) .astray (fun _ => 0) 1).solver.observers.history.length = 1 := by
    decide +kernel
  obtain ⟨res, hout, hres⟩ := exists_ok_of_any hsolve
  obtain ⟨m, hhistory⟩ := List.length_eq_one_iff.mp hone
  rw [hhistory] at hres
  exact ⟨res, m, hout, hhistory, of_decide_eq_true hres⟩

end Solver

end Shooting
