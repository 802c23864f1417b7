import Shooting.Proofs.Solver.Course
import Shooting.Proofs.Solver.Reports

/-!
# The ledger of a solve

Observers, the list of step lengths and several counters each keep a record of the iterations of a
solve, and each of the ways to end an iteration writes into some of them. This module says once what
is written:

* an iteration that is completed is reported once, and all records are of that report
  (`Run.Completes`);
* one that is not completed ends the solve and writes nothing (`Run.Breaks`), or fails
  (`Run.Fails`);
* every iteration is one of the three (`Iteration.completes_or`).

Hence all records of a solve can be read off its reports (`Run.Ledger`), after any number of
iterations (`Reaches.ledger`) and at the end (`Ends.closes`).

No law of arithmetic is used.
-/

namespace Shooting

variable {α : Type} {s : StateSpace} {nus : List Nat}

/-- The regularizations that are reported. -/
def Metrics.damping (m : Metrics α) : Damping α := ⟨m.stateRegularization, m.controlRegularization⟩

/-- What the list of step lengths holds for an iteration. -/
def Metrics.entry [Zero α] (m : Metrics α) : α := if m.accepted then m.stepLength else 0

variable [Scalar α]

namespace Run

/-! ## One iteration -/

/-- The backward pass of iteration number `i` from the run `r` ends early. -/
def PassFails (r : Run α s nus) (i : Nat) : Prop :=
  ∃ r₁ policy failure, r.refresh i = .ok r₁ ∧ r₁.backward = (policy, some failure)

theorem not_passFails {r r₁ : Run α s nus} {policy : Policy α s.ndx nus} {i : Nat}
    (hprep : r.refresh i = .ok r₁) (hback : r₁.backward = (policy, none)) : ¬ r.PassFails i := by
  rintro ⟨r₂, policy', failure, hprep', hback'⟩
  obtain rfl := Except.ok.inj (hprep.symm.trans hprep')
  rw [hback] at hback'
  cases (Prod.mk.inj hback').2

/-- Iteration number `i` from the run `r` is completed with the run `r'`, and `m` is reported. -/
structure Completes (c : Config α) (r : Run α s nus) (i : Nat) (r' : Run α s nus) (m : Metrics α) :
    Prop where
  observers : r'.observers = r.observers.hear ⟨m, r'.workspace.path.toTrajectory⟩
  iteration : m.iteration = i
  damping : m.damping = r'.workspace.damping
  stepLengths : r'.tally.stepLengths = r.tally.stepLengths ++ [m.entry]
  stepLength : m.accepted = true → ∃ k < c.lineSearchSteps, m.stepLength = stepLength k
  accepted : r'.tally.accepted = r.tally.accepted + m.accepted.toNat
  /-- A line search that is not begun is not rejected. -/
  failed : r.PassFails i → m.accepted = false ∧ r'.tally.rejected = r.tally.rejected
  passed : ¬ r.PassFails i → r'.tally.rejected = r.tally.rejected + (!m.accepted).toNat
  expansions : r'.tally.expansions = r.tally.expansions + r.unexpanded.toNat
  unexpanded : r'.unexpanded = m.accepted

/-- An iteration from the run `r` ends the solve with the run `r'` and is not completed. -/
structure Breaks (r r' : Run α s nus) : Prop where
  observers : r'.observers = r.observers
  stepLengths : r'.tally.stepLengths = r.tally.stepLengths
  accepted : r'.tally.accepted = r.tally.accepted
  rejected : r'.tally.rejected = r.tally.rejected
  expansions : r'.tally.expansions = r.tally.expansions + r.unexpanded.toNat
  unexpanded : r'.unexpanded = false

/-- The iteration from the run `r` fails with the run `r'`, and nothing is reported. -/
structure Fails (r r' : Run α s nus) : Prop where
  observers : r'.observers = r.observers

/-- The run `r₁` has the records of `r`, but for an expansion that it took if there was none. -/
structure Prepares (r r₁ : Run α s nus) : Prop where
  observers : r₁.observers = r.observers
  damping : r₁.workspace.damping = r.workspace.damping
  stepLengths : r₁.tally.stepLengths = r.tally.stepLengths
  accepted : r₁.tally.accepted = r.tally.accepted
  rejected : r₁.tally.rejected = r.tally.rejected
  expansions : r₁.tally.expansions = r.tally.expansions + r.unexpanded.toNat
  unexpanded : r₁.unexpanded = false

theorem prepares_refresh {r r₁ : Run α s nus} {i : Nat} (h : r.refresh i = .ok r₁) :
    r.Prepares r₁ := by
  rcases refresh_ok h with ⟨hdown, rfl⟩ | ⟨hup, rfl⟩
  · refine ⟨rfl, rfl, rfl, rfl, rfl, ?_, hdown⟩
    rw [hdown]
    rfl
  · refine ⟨rfl, rfl, rfl, rfl, rfl, ?_, rfl⟩
    rw [hup]
    rfl

/-- A report completes an iteration if it agrees with the other records. -/
theorem completes_report {c : Config α} {r q : Run α s nus} {i : Nat} {m : Metrics α}
    (observers : q.observers = r.observers) (iteration : m.iteration = i)
    (damping : m.damping = q.workspace.damping)
    (stepLengths : q.tally.stepLengths = r.tally.stepLengths ++ [m.entry])
    (length : m.accepted = true → ∃ k < c.lineSearchSteps, m.stepLength = stepLength k)
    (accepted : q.tally.accepted = r.tally.accepted + m.accepted.toNat)
    (failed : r.PassFails i → m.accepted = false ∧ q.tally.rejected = r.tally.rejected)
    (passed : ¬ r.PassFails i → q.tally.rejected = r.tally.rejected + (!m.accepted).toNat)
    (expansions : q.tally.expansions = r.tally.expansions + r.unexpanded.toNat)
    (unexpanded : q.unexpanded = m.accepted) : r.Completes c i (q.report m) m :=
  ⟨congrArg (Observers.hear · ⟨m, q.workspace.path.toTrajectory⟩) observers, iteration, damping,
    stepLengths, length, accepted, failed, passed, expansions, unexpanded⟩

/-- The log is not one of the records. -/
theorem Completes.say {c : Config α} {r r' : Run α s nus} {i : Nat} {m : Metrics α}
    (h : r.Completes c i r' m) (events : List (Event α)) : r.Completes c i (r'.say events) m :=
  ⟨h.observers, h.iteration, h.damping, h.stepLengths, h.stepLength, h.accepted, h.failed, h.passed,
    h.expansions, h.unexpanded⟩

/-- **What an iteration can come to for those who keep records.** -/
theorem Iteration.completes_or {c : Config α} {r : Run α s nus} {i : Nat} {step : Step α s nus}
    (h : r.Iteration c i step) :
    (∃ m, r.Completes c i step.run m ∧
        (step = .next step.run ∨
          step = .stop step.run .regularizationSaturated (i + 1) ∧ m.accepted = false)) ∨
      (∃ status, r.Breaks step.run ∧ step = .stop step.run status i) ∨
      ∃ e, r.Fails step.run ∧ step = .fail step.run e := by
  cases h with
  | @invalid r' e hprep =>
    obtain ⟨-, -, rfl, -⟩ := refresh_error hprep
    exact .inr (.inr ⟨e, ⟨rfl⟩, rfl⟩)
  | @unplanned r₁ policy failure hprep hback =>
    have hp := prepares_refresh hprep
    have hfails : r.PassFails i := ⟨r₁, policy, failure, hprep, hback⟩
    rcases afterBackwardFailure_cases c (r₁.withdrawn policy failure) i with
      ⟨-, heq⟩ | ⟨-, heq⟩ <;> rw [heq]
    -- a pass that fails at the bound ends the solve before anything is reported
    · exact .inr (.inl ⟨_, ⟨hp.observers, hp.stepLengths, hp.accepted, hp.rejected, hp.expansions,
        hp.unexpanded⟩, rfl⟩)
    · exact .inl ⟨_, completes_report hp.observers rfl rfl (congrArg (· ++ [0]) hp.stepLengths)
        nofun hp.accepted (fun _ => ⟨rfl, hp.rejected⟩) (fun hpasses => absurd hfails hpasses)
        hp.expansions hp.unexpanded, .inl rfl⟩
  | @optimal r₁ policy status hprep hback hend =>
    have hp := prepares_refresh hprep
    exact .inr (.inl ⟨status, ⟨hp.observers, hp.stepLengths, hp.accepted, hp.rejected,
      hp.expansions, hp.unexpanded⟩, rfl⟩)
  | @stepped r₁ policy f hprep hback hgo hfound =>
    have hp := prepares_refresh hprep
    have hpasses := not_passFails hprep hback
    exact .inl ⟨_, completes_report hp.observers rfl rfl
      (congrArg (· ++ [f.length]) hp.stepLengths) (fun _ => (lineSearch_found hfound).length)
      (congrArg (· + 1) hp.accepted) (fun hfails => absurd hfails hpasses) (fun _ => hp.rejected)
      hp.expansions rfl, .inl rfl⟩
  | @rejected r₁ policy hprep hback hgo hfound =>
    have hp := prepares_refresh hprep
    have hpasses := not_passFails hprep hback
    have hlengths := congrArg (· ++ [(0 : α)]) hp.stepLengths
    have hrejected := congrArg (· + 1) hp.rejected
    rcases afterRejection_cases c ((r₁.planned policy).searched c) i _ _ with
      ⟨-, heq⟩ | ⟨-, heq⟩ <;> rw [heq]
    -- a search that fails at the bound is reported and then ends the solve
    · refine .inl ⟨_, Completes.say (by
        exact completes_report hp.observers rfl rfl hlengths nofun hp.accepted
          (fun hfails => absurd hfails hpasses) (fun _ => hrejected) hp.expansions
          hp.unexpanded) _, .inr ⟨rfl, rfl⟩⟩
    · exact .inl ⟨_, completes_report hp.observers rfl rfl hlengths nofun hp.accepted
        (fun hfails => absurd hfails hpasses) (fun _ => hrejected) hp.expansions hp.unexpanded,
        .inl rfl⟩

open Classical in
/-- **The failed passes are counted**, each of them once and nothing else. -/
theorem backwardFailures_iterate (c : Config α) (r : Run α s nus) (i : Nat) :
    (r.iterate c i).run.tally.backwardFailures =
      r.tally.backwardFailures + if r.PassFails i then 1 else 0 := by
  have prepared {r₁ : Run α s nus} (hprep : r.refresh i = .ok r₁) :
      r₁.tally.backwardFailures = r.tally.backwardFailures := by
    rcases refresh_ok hprep with ⟨-, rfl⟩ | ⟨-, rfl⟩ <;> rfl
  have hcase := iterate_cases c r i
  generalize r.iterate c i = step at hcase ⊢
  cases hcase with
  | invalid hprep =>
    rw [if_neg (by rintro ⟨r₁, policy, failure, hprep', -⟩; cases hprep.symm.trans hprep')]
    obtain ⟨-, -, rfl, -⟩ := refresh_error hprep
    rfl
  | @unplanned r₁ policy failure hprep hback =>
    rw [if_pos ⟨r₁, policy, failure, hprep, hback⟩, ← prepared hprep]
    rcases afterBackwardFailure_cases c (r₁.withdrawn policy failure) i with
      ⟨-, heq⟩ | ⟨-, heq⟩ <;> rw [heq] <;> rfl
  | optimal hprep hback hend =>
    rw [if_neg (not_passFails hprep hback), ← prepared hprep]
    rfl
  | stepped hprep hback hgo hfound =>
    rw [if_neg (not_passFails hprep hback), ← prepared hprep]
    rfl
  | @rejected r₁ policy hprep hback hgo hfound =>
    rw [if_neg (not_passFails hprep hback), ← prepared hprep]
    rcases afterRejection_cases c ((r₁.planned policy).searched c) i _ _ with
      ⟨-, heq⟩ | ⟨-, heq⟩ <;> rw [heq] <;> rfl

/-! ## All iterations -/

open Classical in
/-- How many of the first `n` iterations have a backward pass that ends early. -/
noncomputable def passFailures (c : Config α) (clock : Nat → Nat) (budget : Nat)
    (r₀ : Run α s nus) (n : Nat) : Nat :=
  (List.range n).countP fun i => decide (∃ r, r₀.Performs c clock budget i r ∧ r.PassFails i)

/-- What the records of the run `r` say after `n` iterations since the run `r₀`: they are those of
the given reports. -/
structure Records (c : Config α) (r₀ : Run α s nus) (n : Nat) (r : Run α s nus)
    (reports : List (Report α)) : Prop where
  observers : r.observers = r₀.observers.hearAll reports
  iterations : reports.map (·.metrics.iteration) = List.range n
  stepLengths : r.tally.stepLengths = reports.map (·.metrics.entry)
  stepLength : ∀ report ∈ reports, report.metrics.accepted = true →
    ∃ k < c.lineSearchSteps, report.metrics.stepLength = Shooting.stepLength k
  accepted : r.tally.accepted = reports.countP (·.metrics.accepted)

/-- Between two iterations the other counters can be read off the reports, too. One more expansion
is due if a step was taken since the last one. -/
structure Ledger (c : Config α) (clock : Nat → Nat) (budget : Nat) (r₀ : Run α s nus) (n : Nat)
    (r : Run α s nus) (reports : List (Report α)) : Prop extends Records c r₀ n r reports where
  withoutStep : r.tally.rejected + r₀.passFailures c clock budget n =
    reports.countP (!·.metrics.accepted)
  expansions : r.tally.expansions + r.unexpanded.toNat = r.tally.accepted + 1
  unexpanded : r.unexpanded = reports.getLast?.all (·.metrics.accepted)

variable {c : Config α} {clock : Nat → Nat} {budget i n : Nat} {r₀ r r' : Run α s nus}
  {reports : List (Report α)} {m : Metrics α}

omit [Scalar α] in
theorem countP_singleton (f : Report α → Bool) (report : Report α) :
    [report].countP f = (f report).toNat := by
  rw [List.countP_singleton]
  cases f report <;> rfl

theorem passFailures_of_fails (hperf : r₀.Performs c clock budget i r) (hfails : r.PassFails i) :
    r₀.passFailures c clock budget (i + 1) = r₀.passFailures c clock budget i + 1 := by
  have hhas : ∃ r, r₀.Performs c clock budget i r ∧ r.PassFails i := ⟨r, hperf, hfails⟩
  unfold passFailures
  rw [List.range_succ, List.countP_append, List.countP_singleton, if_pos (by simpa using hhas)]

theorem passFailures_of_passes (hperf : r₀.Performs c clock budget i r)
    (hpasses : ¬ r.PassFails i) :
    r₀.passFailures c clock budget (i + 1) = r₀.passFailures c clock budget i := by
  have hnone : ¬ ∃ r, r₀.Performs c clock budget i r ∧ r.PassFails i := by
    rintro ⟨r', hperf', hfails⟩
    exact hpasses (hperf.reached.unique hperf'.reached ▸ hfails)
  unfold passFailures
  rw [List.range_succ, List.countP_append, List.countP_singleton, if_neg (by simpa using hnone)]
  rfl

/-- **A completed iteration adds its report to the ledger.** -/
theorem Ledger.next (h : Ledger c clock budget r₀ i r reports)
    (hperf : r₀.Performs c clock budget i r) (hm : r.Completes c i r' m) :
    Ledger c clock budget r₀ (i + 1) r' (reports ++ [⟨m, r'.workspace.path.toTrajectory⟩]) := by
  have hexpansions := h.expansions
  have hwithout := h.withoutStep
  refine ⟨⟨?_, ?_, ?_, ?_, ?_⟩, ?_, ?_, ?_⟩
  · rw [Observers.hearAll_append, ← h.observers]
    exact hm.observers
  · rw [List.map_append, h.iterations, List.range_succ]
    exact congrArg (List.range i ++ [·]) hm.iteration
  · rw [List.map_append, ← h.stepLengths]
    exact hm.stepLengths
  · intro report hreport haccepted
    rcases List.mem_append.mp hreport with hold | hnew
    · exact h.stepLength report hold haccepted
    · obtain rfl := List.mem_singleton.mp hnew
      exact hm.stepLength haccepted
  · rw [List.countP_append, ← h.accepted, countP_singleton]
    exact hm.accepted
  · -- without a step there was a failed pass or a rejection, never both
    rw [List.countP_append, ← hwithout, countP_singleton]
    by_cases hfails : r.PassFails i
    · obtain ⟨hrejected, hcount⟩ := hm.failed hfails
      rw [passFailures_of_fails hperf hfails, hcount, hrejected]
      rfl
    · rw [passFailures_of_passes hperf hfails, hm.passed hfails, Nat.add_right_comm]
  · rw [hm.expansions, hm.unexpanded, hm.accepted]
    omega
  · rw [List.getLast?_concat]
    exact hm.unexpanded

/-- The ledger of a solve after any number of iterations. -/
theorem Reaches.ledger (h₀ : Ledger c clock budget r₀ 0 r₀ [])
    (h : r₀.Reaches c clock budget i r) : ∃ reports, Ledger c clock budget r₀ i r reports := by
  induction h with
  | start => exact ⟨[], h₀⟩
  | @next i r r' reached within inTime hnext ih =>
    obtain ⟨reports, hledger⟩ := ih
    have hrun : (r.iterate c i).run = r' := congrArg Step.run hnext
    rcases (iterate_cases c r i).completes_or with ⟨m, hm, -⟩ | ⟨status, -, hstop⟩ | ⟨e, -, hfail⟩
    · rw [hrun] at hm
      exact ⟨_, hledger.next ⟨reached, within, inTime⟩ hm⟩
    · cases hnext.symm.trans hstop
    · cases hnext.symm.trans hfail

/-- What the records say at the end of a solve with `n` iterations. -/
structure Closes (c : Config α) (clock : Nat → Nat) (budget : Nat) (r₀ r : Run α s nus)
    (status : Status) (n : Nat) (reports : List (Report α)) : Prop
    extends Records c r₀ n r reports where
  withoutStep : r.tally.rejected + r₀.passFailures c clock budget n =
    reports.countP (!·.metrics.accepted)
  expansions : r.tally.expansions + r.unexpanded.toNat = r.tally.accepted + 1
  unexpanded : r.unexpanded = true ↔ (status = .maxIterationsReached ∨ status = .timeout) ∧
    reports.getLast?.all (·.metrics.accepted) = true

/-- A solve that runs out of iterations or of time ends with the ledger as it is. -/
theorem Ledger.closes (h : Ledger c clock budget r₀ n r reports) {status : Status}
    (hstatus : status = .maxIterationsReached ∨ status = .timeout) :
    Closes c clock budget r₀ r status n reports := by
  refine ⟨h.toRecords, h.withoutStep, h.expansions, ?_⟩
  rw [h.unexpanded]
  exact (and_iff_right hstatus).symm

/-- So does a solve that ends with an iteration which took no step but is completed. -/
theorem Ledger.closes_of_stop {status : Status} (h : Ledger c clock budget r₀ (i + 1) r' reports)
    (hstop : r.iterate c i = .stop r' status (i + 1)) (hdown : r'.unexpanded = false) :
    Closes c clock budget r₀ r' status (i + 1) reports := by
  have hstatus := (iterate_cases c r i).status_of_stop hstop
  refine ⟨h.toRecords, h.withoutStep, h.expansions, ?_⟩
  simp [hdown, hstatus]

/-- An iteration that is not completed leaves the ledger as it was before. -/
theorem Ledger.closes_of_breaks {status : Status} (h : Ledger c clock budget r₀ i r reports)
    (hstop : r.iterate c i = .stop r' status i) (hbreaks : r.Breaks r') :
    Closes c clock budget r₀ r' status i reports := by
  have hstatus := (iterate_cases c r i).status_of_stop hstop
  refine ⟨⟨?_, h.iterations, ?_, h.stepLength, ?_⟩, ?_, ?_, ?_⟩
  · rw [hbreaks.observers, h.observers]
  · rw [hbreaks.stepLengths, h.stepLengths]
  · rw [hbreaks.accepted, h.accepted]
  · rw [hbreaks.rejected, h.withoutStep]
  · rw [hbreaks.expansions, hbreaks.unexpanded, hbreaks.accepted]
    exact h.expansions
  · simp [hbreaks.unexpanded, hstatus]

/-- **The records of a solve at its end**, whichever way it came to it. -/
theorem Ends.closes (h₀ : Ledger c clock budget r₀ 0 r₀ []) {status : Status}
    (h : r₀.Ends c clock budget r status n) :
    ∃ reports, Closes c clock budget r₀ r status n reports := by
  cases h with
  | budget reached =>
    obtain ⟨reports, hledger⟩ := reached.ledger h₀
    exact ⟨reports, hledger.closes (.inl rfl)⟩
  | timeout reached within late =>
    obtain ⟨reports, hledger⟩ := reached.ledger h₀
    exact ⟨reports, hledger.closes (.inr rfl)⟩
  | @stop i n r₁ _ status hperf hstop =>
    obtain ⟨reports, hledger⟩ := hperf.reached.ledger h₀
    have hrun : (r₁.iterate c i).run = r := congrArg Step.run hstop
    rcases (iterate_cases c r₁ i).completes_or with
      ⟨m, hm, hnext | ⟨hsaturated, hrejected⟩⟩ | ⟨status', hbreaks, hbroken⟩ | ⟨e, -, hfail⟩
    · cases hstop.symm.trans hnext
    · cases hstop.symm.trans hsaturated
      rw [hrun] at hm
      exact ⟨_, (hledger.next hperf hm).closes_of_stop hstop (hm.unexpanded.trans hrejected)⟩
    · cases hstop.symm.trans hbroken
      rw [hrun] at hbreaks
      exact ⟨_, hledger.closes_of_breaks hstop hbreaks⟩
    · cases hstop.symm.trans hfail

/-- A solve completes at most as many iterations as it may. -/
theorem Ends.iterations_le {status : Status} (h : r₀.Ends c clock budget r status n) :
    n ≤ budget := by
  cases h with
  | budget => exact Nat.le_refl _
  | timeout reached within late => exact Nat.le_of_lt within
  | @stop i n r₁ _ status hperf hstop =>
    have hwithin := hperf.within
    rcases (iterate_cases c r₁ i).completes_or with
      ⟨m, -, hnext | ⟨hsaturated, -⟩⟩ | ⟨status', -, hbroken⟩ | ⟨e, -, hfail⟩
    · cases hstop.symm.trans hnext
    · cases hstop.symm.trans hsaturated
      exact hwithin
    · cases hstop.symm.trans hbroken
      exact Nat.le_of_lt hwithin
    · cases hstop.symm.trans hfail

/-- A solve that may iterate at all does so before it runs out of iterations or of time. -/
theorem Ends.iterations_pos {status : Status} (h : r₀.Ends c clock budget r status n)
    (hstatus : status = .maxIterationsReached ∨ status = .timeout) (hbudget : 0 < budget) :
    0 < n := by
  cases h with
  | budget => exact hbudget
  | timeout reached within late =>
    -- the time limit is not looked at before the first iteration
    refine Nat.pos_of_ne_zero ?_
    rintro rfl
    cases late
  | @stop i n r₁ _ status hperf hstop =>
    exact absurd hstatus ((iterate_cases c r₁ i).status_of_stop hstop)

end Run

namespace Solver

/-- The ledger of a solve at its beginning. -/
theorem Begins.ledger {sv : Solver α s nus} {p : Problem α s nus} {g : Guess α}
    {r₀ : Run α s nus} (h : sv.Begins p g r₀) (clock : Nat → Nat) (budget : Nat) :
    Run.Ledger sv.config clock budget r₀ 0 r₀ [] := by
  obtain ⟨-, -⟩ := h
  exact ⟨⟨rfl, rfl, rfl, nofun, rfl⟩, rfl, rfl, rfl⟩

end Solver

end Shooting
