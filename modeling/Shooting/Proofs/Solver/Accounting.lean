import Shooting.Proofs.Double.Halving
import Shooting.Proofs.Solver.Consistency
import Shooting.Proofs.Solver.Independence
import Shooting.Proofs.Solver.Ledger

/-!
# The accounts of a solve

The answer of a solve, what its observers were told and its counters agree with one another
(`Solver.Accounts`): an entry in the list of step lengths for every iteration, a report for every
entry, and counters that count what the reports say.

An accepted step is told from a rejection by its length. A step length can be halved until none is
left, and a step of that length, if one is accepted, is counted as if it had been rejected
(`Metrics.vanishes`). The double after 1074 halvings is the smallest there is, so with up to 1075
step lengths no step is lost (`Solver.accounts_agree`).
-/

namespace Shooting

variable {α : Type} [Scalar α] [OrderedScalar α] {s : StateSpace} {nus : List Nat}

/-! ## Entries -/

/-- A step was accepted that has no length left. Its entry is that of a rejection. -/
def Metrics.vanishes (m : Metrics α) : Bool := m.accepted && m.stepLength == 0

/-- The step of the report, if one was accepted, has a positive length or none left. -/
def Metrics.IsProper (m : Metrics α) : Prop :=
  m.accepted = true → 0 < m.stepLength ∨ (m.stepLength == 0) = true

namespace Metrics

variable {m : Metrics α}

/-- An accepted step has a positive entry or vanishes. -/
theorem accepted_eq (h : m.IsProper) :
    (decide (0 < m.entry)).toNat + m.vanishes.toNat = m.accepted.toNat := by
  unfold entry vanishes
  cases haccepted : m.accepted with
  | false => simpa using OrderedScalar.lt_irrefl (0 : α)
  | true =>
    rcases h haccepted with hpos | hzero
    · simp [hpos, OrderedScalar.beq_zero_of_pos hpos]
    · -- such a length is not counted as positive
      have hnot : ¬ 0 < m.stepLength := by
        intro hpos
        rw [OrderedScalar.beq_zero_of_pos hpos] at hzero
        cases hzero
      simp [hnot, hzero]

/-- A zero is the entry of a rejection or of a step that vanishes. -/
theorem entry_beq_zero (m : Metrics α) :
    (!m.accepted).toNat + m.vanishes.toNat = (m.entry == 0).toNat := by
  unfold entry vanishes
  cases m.accepted with
  | true => simp
  | false => simp [OrderedScalar.zero_beq_zero]

end Metrics

omit [Scalar α] [OrderedScalar α] in
/-- Reports can be counted in two parts if each of them is in one part at most. -/
theorem countP_add {reports : List (Report α)} {f g k : Report α → Bool}
    (h : ∀ report ∈ reports, (f report).toNat + (g report).toNat = (k report).toNat) :
    reports.countP f + reports.countP g = reports.countP k := by
  induction reports with
  | nil => rfl
  | cons report rest ih =>
    have hfirst := h report (.head _)
    have hrest := ih fun report hreport => h report (.tail _ hreport)
    rw [← List.singleton_append, List.countP_append, List.countP_append, List.countP_append,
      Run.countP_singleton, Run.countP_singleton, Run.countP_singleton]
    omega

variable {reports : List (Report α)}

theorem countP_pos_entries (h : ∀ report ∈ reports, report.metrics.IsProper) :
    ((reports.map (·.metrics.entry)).filter fun a => decide (0 < a)).length +
      reports.countP (·.metrics.vanishes) = reports.countP (·.metrics.accepted) := by
  rw [← List.countP_eq_length_filter, List.countP_map]
  exact countP_add fun report hreport => Metrics.accepted_eq (h report hreport)

theorem countP_zero_entries (reports : List (Report α)) :
    reports.countP (!·.metrics.accepted) + reports.countP (·.metrics.vanishes) =
      (reports.map (·.metrics.entry)).countP (· == 0) := by
  rw [List.countP_map]
  exact countP_add fun report _ => Metrics.entry_beq_zero report.metrics

/-! ## Solves -/

namespace Solver

omit [OrderedScalar α] in
/-- The expansions of a solve lag one behind: it ended, for want of iterations or of time, with a
step along which nothing was expanded any more. -/
def LagsBehind (res : SolveResult α) (reports : List (Report α)) : Prop :=
  (res.status = .maxIterationsReached ∨ res.status = .timeout) ∧
    ∃ report, reports.getLast? = some report ∧ report.metrics.accepted = true

omit [OrderedScalar α] in
/-- The answer `res` of a solve, what its observers were told and its counters agree. -/
structure Accounts (sv : Solver α s nus) (p : Problem α s nus) (g : Guess α) (clock : Nat → Nat)
    (budget : Nat) (res : SolveResult α) (reports : List (Report α)) : Prop where
  /-- The reports are what the observers were told, each of them about one iteration. -/
  observers : sv.observers.Hears (sv.solveWithin p g clock budget).solver.observers reports
  iterations : reports.map (·.metrics.iteration) = List.range res.iterations
  within : res.iterations ≤ budget
  /-- An entry is the step length that was reported as accepted, or else zero. -/
  stepLengths : res.stepLengths = reports.map (·.metrics.entry)
  length : res.stepLengths.length = res.iterations
  /-- The lengths that are tried are one, a half, a quarter and so on. -/
  entries : ∀ a ∈ res.stepLengths, a = 0 ∨ ∃ k < sv.config.lineSearchSteps, a = stepLength k ∧
    (k < 2 ^ 31 → a = halving k)
  /-- An accepted step is counted unless it vanishes. -/
  accepted : res.acceptedIterations + reports.countP (·.metrics.vanishes) =
    reports.countP (·.metrics.accepted)
  /-- The last backward pass is not an iteration if it ends the solve, and has no entry. -/
  zeros : ∀ r₀, sv.Begins p g r₀ → res.stepLengths.countP (· == 0) =
    res.info.rejected + r₀.passFailures sv.config clock budget res.iterations +
      reports.countP (·.metrics.vanishes)
  lagging : 0 < budget → LagsBehind res reports →
    res.info.expansions = reports.countP (·.metrics.accepted)
  expansions : 0 < budget → ¬ LagsBehind res reports →
    res.info.expansions = reports.countP (·.metrics.accepted) + 1
  /-- The answer is the same with any observers, and without any. -/
  unobserved : ∀ o, (({ sv with observers := o } : Solver α s nus).solveWithin p g clock
    budget).outcome = .ok res

variable {sv : Solver α s nus} {p : Problem α s nus} {g : Guess α} {clock : Nat → Nat}
  {budget : Nat} {res : SolveResult α}

omit [OrderedScalar α] in
/-- An entry is zero or one of the lengths that were tried. -/
theorem entry_of_mem {steps : Nat} (h : ∀ report ∈ reports, report.metrics.accepted = true →
      ∃ k < steps, report.metrics.stepLength = stepLength k) :
    ∀ a ∈ reports.map (·.metrics.entry), a = 0 ∨ ∃ k < steps, a = stepLength k ∧
      (k < 2 ^ 31 → a = halving k) := by
  intro a ha
  obtain ⟨report, hreport, rfl⟩ := List.mem_map.mp ha
  unfold Metrics.entry
  cases haccepted : report.metrics.accepted with
  | true =>
    obtain ⟨k, hk, hlength⟩ := h report hreport haccepted
    exact .inr ⟨k, hk, hlength, fun hlt => hlength.trans (stepLength_of_lt hlt)⟩
  | false => exact .inl rfl

omit [OrderedScalar α] in
/-- An expansion is due at the end if the solve lags behind. A solve that was to iterate at all has
a last report when it runs out of iterations or of time. -/
theorem unexpanded_iff_lagsBehind {r₀ r : Run α s nus} (hbudget : 0 < budget)
    (hend : r₀.Ends sv.config clock budget r res.status res.iterations)
    (hcloses : r₀.Closes sv.config clock budget r res.status res.iterations reports) :
    r.unexpanded = true ↔ LagsBehind res reports := by
  rw [hcloses.unexpanded]
  refine and_congr_right ?_
  intro hstatus
  have hpos := hend.iterations_pos hstatus hbudget
  cases hlast : reports.getLast? with
  | none =>
    obtain rfl := List.getLast?_eq_none_iff.mp hlast
    have hzero : List.range res.iterations = [] := hcloses.iterations.symm
    rw [List.range_eq_nil] at hzero
    omega
  | some report => simp

/-- **The accounts of an answer agree.** They are the ledger of the run with which the solve ends.
The steps in them have lengths from the list that was to be tried. -/
theorem exists_accounts (hlengths : ∀ k, (0 : α) < stepLength k ∨ ((stepLength k : α) == 0) = true)
    (h : (sv.solveWithin p g clock budget).outcome = .ok res) :
    ∃ reports, sv.Accounts p g clock budget res reports ∧
      ∀ report ∈ reports, report.metrics.accepted = true →
        ∃ k < sv.config.lineSearchSteps, report.metrics.stepLength = stepLength k := by
  obtain ⟨r₀, r, status, n, hbegin, hend, hfinish⟩ := solveWithin_ok h
  obtain ⟨reports, hcloses⟩ := hend.closes (hbegin.ledger clock budget)
  have hproper : ∀ report ∈ reports, report.metrics.IsProper := by
    intro report hreport haccepted
    obtain ⟨k, -, hlength⟩ := hcloses.stepLength report hreport haccepted
    exact hlength ▸ hlengths k
  rw [hfinish] at h
  have hanswers := Run.answers_of_finish h
  have hentries := hanswers.stepLengths.trans hcloses.stepLengths
  obtain rfl := hanswers.status
  obtain rfl := hanswers.iterations
  -- one more expansion than steps is due, unless the last step is still to be expanded along
  have hlags := fun hbudget => unexpanded_iff_lagsBehind hbudget hend hcloses
  have hdue := hcloses.expansions
  rw [← hanswers.expansions, hcloses.accepted] at hdue
  refine ⟨reports, ⟨?_, hcloses.iterations, hend.iterations_le, hentries, ?_, ?_, ?_, ?_, ?_, ?_,
    ?_⟩, hcloses.stepLength⟩
  · have hheard : (r.finish sv.config res.status res.iterations).solver.observers =
        sv.observers.hearAll reports := by
      rw [← hbegin.observers]
      exact r.settle_observers.trans hcloses.observers
    rw [hfinish, hheard]
    exact sv.observers.hears_hearAll reports
  · rw [hentries, List.length_map, ← List.length_map (·.metrics.iteration), hcloses.iterations,
      List.length_range]
  · rw [hentries]
    exact entry_of_mem hcloses.stepLength
  · unfold SolveResult.acceptedIterations
    rw [hentries]
    exact countP_pos_entries hproper
  · intro r₁ hbegin₁
    obtain rfl := hbegin₁.unique hbegin
    rw [hentries, ← countP_zero_entries, hanswers.rejected, hcloses.withoutStep]
  · intro hbudget hbehind
    rw [(hlags hbudget).mpr hbehind] at hdue
    exact Nat.succ.inj hdue
  · intro hbudget hbehind
    have hdone : r.unexpanded = false :=
      Bool.eq_false_iff.mpr fun hup => hbehind ((hlags hbudget).mp hup)
    rw [hdone] at hdue
    exact hdue
  · intro o
    rw [← hfinish] at h
    exact (solveWithin_observers sv o p g clock budget).outcome.trans h

/-- **The accounts of an answer agree**, and every accepted step is counted as long as the solver is
to try no more step lengths than there are halvings of a double before it is zero. -/
theorem accounts_agree {sv : Solver Float s nus} {p : Problem Float s nus} {g : Guess Float}
    {clock : Nat → Nat} {budget : Nat} {res : SolveResult Float}
    (h : (sv.solveWithin p g clock budget).outcome = .ok res) :
    ∃ reports, sv.Accounts p g clock budget res reports ∧
      (sv.config.lineSearchSteps ≤ 1075 → reports.countP (·.metrics.vanishes) = 0) := by
  obtain ⟨reports, haccounts, hlengths⟩ := exists_accounts
    (fun k => (Double.stepLength_pos_or_zero k).imp_left Double.pos_iff.mpr) h
  refine ⟨reports, haccounts, ?_⟩
  intro hsteps
  refine List.countP_eq_zero.mpr ?_
  intro report hreport hvanishes
  obtain ⟨haccepted, hzero⟩ := Bool.and_eq_true_iff.mp hvanishes
  obtain ⟨k, hk, hlength⟩ := hlengths report hreport haccepted
  have hpos := Double.pos_iff.mpr (Double.halving_pos (Nat.lt_of_lt_of_le hk hsteps))
  have hlt : k < 2 ^ 31 := by omega
  rw [hlength, stepLength_of_lt hlt, OrderedScalar.beq_zero_of_pos hpos] at hzero
  cases hzero

set_option maxRecDepth 100000 in
/-- Pushing a point takes one step, which is counted and which an observer has recorded. -/
theorem accounts_agree_push :
    ∃ (res : SolveResult Float) (reports : List (Report Float)),
      ((Solver.new .standard (Observers.none.add .history)).solveWithin (.push Float) .none
        (fun _ => 0) 3).outcome = .ok res ∧
      (Solver.new .standard (Observers.none.add .history)).Accounts (.push Float) .none
        (fun _ => 0) 3 res reports ∧
      reports.countP (·.metrics.vanishes) = 0 ∧ reports.length = 1 := by
  have hok : (match ((Solver.new .standard (Observers.none.add .history)).solveWithin
      (Problem.push Float) .none (fun _ => 0) 3).outcome with
      | .ok res => decide (res.iterations = 1)
      | .error _ => false) = true := by
    decide +kernel
  split at hok
  next res houtcome =>
    obtain ⟨reports, haccounts, hcounted⟩ := accounts_agree houtcome
    refine ⟨res, reports, houtcome, haccounts, hcounted (by decide), ?_⟩
    rw [← List.length_map (·.metrics.iteration), haccounts.iterations, List.length_range]
    exact of_decide_eq_true hok
  next => cases hok

end Solver

end Shooting
