import Shooting.Proofs.Solver.Iteration

/-!
# What observers are told

An iteration tells its observers its figures and then the trajectory, or nothing if it ends the
solve before there is anything to tell. `Report` is what they are told at a time, and
`Iteration.reports` says that it is about the run to which the iteration leads.

What a report means call by call is said in `Observers.Hears`: all observers get the figures before
the first of them gets the trajectory, and nobody gets anything else.

No law of arithmetic is used.
-/

namespace Shooting

variable {α : Type} {s : StateSpace} {nus : List Nat}

/-- What observers are told at the end of an iteration. -/
structure Report (α : Type) where
  metrics : Metrics α
  trajectory : Trajectory α

namespace Observers

/-- The observers after a report. -/
def hear (o : Observers α) (report : Report α) : Observers α :=
  (o.announce report.metrics).1.notify report.trajectory report.metrics.iteration

/-- The observers after several reports. -/
def hearAll (o : Observers α) (reports : List (Report α)) : Observers α := reports.foldl hear o

theorem hearAll_append (o : Observers α) (first later : List (Report α)) :
    o.hearAll (first ++ later) = (o.hearAll first).hearAll later :=
  List.foldl_append

end Observers

/-! ## Calls -/

/-- The calls that bring a report to an observer. -/
def Report.calls (report : Report α) : List (Call α) :=
  [.figures report.metrics, .step report.trajectory report.metrics.iteration]

namespace Observers

variable {o o' : Observers α}

theorem toAll_congr (h : o'.members.length = o.members.length) : o'.toAll = o.toAll := by
  unfold toAll
  rw [h]

theorem members_hear (o : Observers α) (report : Report α) :
    (o.hear report).members.length = o.members.length := by
  simp [hear, announce, notify]

theorem calls_hear (o : Observers α) (report : Report α) :
    (o.hear report).calls = o.calls ++ report.calls.flatMap o.toAll := by
  have hsame : (o.announce report.metrics).1.toAll = o.toAll := toAll_congr (by simp [announce])
  unfold hear notify Report.calls
  dsimp only
  rw [hsame]
  simp [announce]

theorem filter_range {i n : Nat} (h : i < n) : (List.range n).filter (· = i) = [i] := by
  induction n with
  | zero => cases h
  | succ n ih =>
    rw [List.range_succ, List.filter_append]
    rcases Nat.lt_or_eq_of_le (Nat.le_of_lt_succ h) with hlt | rfl
    · rw [ih hlt, List.filter_cons_of_neg (by simpa using Nat.ne_of_gt hlt), List.filter_nil,
        List.append_nil]
    · have hnone : (List.range i).filter (· = i) = [] := by
        refine List.filter_eq_nil_iff.mpr fun j hj => ?_
        simpa using Nat.ne_of_lt (List.mem_range.mp hj)
      rw [hnone, List.filter_cons_of_pos (by simp), List.filter_nil, List.nil_append]

/-- A call to all observers is one call to each. -/
theorem filter_toAll {i : Nat} (h : i < o.members.length) (c : Call α) :
    ((o.toAll c).filter (·.1 = i)).map (·.2) = [c] := by
  have hone : (o.toAll c).filter (·.1 = i) = [(i, c)] := by
    unfold toAll
    rw [List.filter_map]
    exact congrArg (List.map fun j => (j, c)) (filter_range h)
  rw [hone]
  rfl

theorem received_hear {i : Nat} (h : i < o.members.length) (report : Report α) :
    (o.hear report).received i = o.received i ++ report.calls := by
  unfold received
  rw [calls_hear]
  simp only [Report.calls, List.flatMap_cons, List.flatMap_nil, List.append_nil,
    List.filter_append, List.map_append, filter_toAll h]
  rfl

/-- Since they were `o` the observers `o'` have heard the given reports, and nothing else. -/
structure Hears (o o' : Observers α) (reports : List (Report α)) : Prop where
  observers : o' = o.hearAll reports
  /-- For each report all of them get the figures, one after the other, and then the trajectory. -/
  calls : o'.calls = o.calls ++ reports.flatMap fun report => report.calls.flatMap o.toAll
  /-- So each of them gets figures and trajectory in turn. -/
  received : ∀ i < o.members.length, o'.received i = o.received i ++ reports.flatMap Report.calls

/-- **What observers hear**, by induction on the reports. -/
theorem hears_hearAll (o : Observers α) (reports : List (Report α)) :
    o.Hears (o.hearAll reports) reports := by
  induction reports generalizing o with
  | nil => exact ⟨rfl, by simp [hearAll], fun i _ => by simp [hearAll]⟩
  | cons report rest ih =>
    obtain ⟨-, hcalls, hreceived⟩ := ih (o.hear report)
    have hmembers := o.members_hear report
    refine ⟨rfl, ?_, ?_⟩
    · show ((o.hear report).hearAll rest).calls = _
      rw [hcalls, calls_hear, toAll_congr hmembers, List.flatMap_cons, List.append_assoc]
    · intro i hi
      show ((o.hear report).hearAll rest).received i = _
      rw [hreceived i (hmembers ▸ hi), received_hear hi, List.flatMap_cons, List.append_assoc]

end Observers

/-- The report is about the cost and the path of a workspace. -/
structure Report.IsAbout (report : Report α) (w : Workspace α s nus) : Prop where
  cost : report.metrics.cost = w.cost
  trajectory : report.trajectory = w.path.toTrajectory

namespace Run

/-- The observers of `r'` are those of `r` after the given reports, each of them about `r'`. -/
structure Reports (r r' : Run α s nus) (reports : List (Report α)) : Prop where
  observers : r'.observers = r.observers.hearAll reports
  about : ∀ report ∈ reports, report.IsAbout r'.workspace

theorem Reports.say {r r' : Run α s nus} {reports : List (Report α)} (h : r.Reports r' reports)
    (events : List (Event α)) : r.Reports (r'.say events) reports :=
  ⟨h.observers, h.about⟩

theorem reports_report {r r' : Run α s nus} {m : Metrics α} (h : r'.observers = r.observers)
    (hcost : m.cost = r'.workspace.cost) :
    r.Reports (r'.report m) [⟨m, r'.workspace.path.toTrajectory⟩] := by
  refine ⟨congrArg (Observers.hear · ⟨m, r'.workspace.path.toTrajectory⟩) h, ?_⟩
  intro report hreport
  obtain rfl := List.mem_singleton.mp hreport
  exact ⟨hcost, rfl⟩

variable [Scalar α]

theorem reports_afterBackwardFailure (c : Config α) (r : Run α s nus) (i : Nat) :
    ∃ reports, r.Reports (r.afterBackwardFailure c i).run reports := by
  rcases afterBackwardFailure_cases c r i with ⟨-, heq⟩ | ⟨-, heq⟩ <;> rw [heq]
  · exact ⟨[], rfl, nofun⟩
  · exact ⟨_, reports_report rfl rfl⟩

theorem reports_afterRejection (c : Config α) (r : Run α s nus) (i : Nat) (length feasibility : α) :
    ∃ reports, r.Reports (r.afterRejection c i length feasibility).run reports := by
  rcases afterRejection_cases c r i length feasibility with ⟨-, heq⟩ | ⟨-, heq⟩ <;> rw [heq]
  · refine ⟨_, Reports.say (reports_report ?_ ?_) _⟩ <;> rfl
  · exact ⟨_, reports_report rfl rfl⟩

/-- **An iteration reports on the run to which it leads**, if it reports at all. -/
theorem Iteration.reports {c : Config α} {r : Run α s nus} {i : Nat} {step : Step α s nus}
    (h : r.Iteration c i step) : ∃ reports, r.Reports step.run reports := by
  have prepared {r₁ r' : Run α s nus} (hprep : r.refresh i = .ok r₁)
      (hreports : ∃ reports, r₁.Reports r' reports) : ∃ reports, r.Reports r' reports := by
    obtain ⟨reports, hobs, habout⟩ := hreports
    refine ⟨reports, ?_, habout⟩
    rcases refresh_ok hprep with ⟨-, rfl⟩ | ⟨-, rfl⟩ <;> exact hobs
  cases h with
  | invalid hprep =>
    obtain ⟨-, -, rfl, -⟩ := refresh_error hprep
    exact ⟨[], rfl, nofun⟩
  | unplanned hprep hback =>
    obtain ⟨reports, hobs, habout⟩ := reports_afterBackwardFailure c _ i
    exact prepared hprep ⟨reports, hobs, habout⟩
  | optimal hprep hback hend => exact prepared hprep ⟨[], rfl, nofun⟩
  | stepped hprep hback hgo hfound => exact prepared hprep ⟨_, reports_report rfl rfl⟩
  | rejected hprep hback hgo hfound =>
    obtain ⟨reports, hobs, habout⟩ := reports_afterRejection c _ i _ _
    exact prepared hprep ⟨reports, hobs, habout⟩

end Run

end Shooting
