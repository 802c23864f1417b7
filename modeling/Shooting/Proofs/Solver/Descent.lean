import Shooting.Proofs.Config
import Shooting.Proofs.Solver.Consistency
import Shooting.Proofs.Solver.Reports
import Shooting.Proofs.Exact.Policy
import Shooting.Proofs.Exact.Solve

/-!
# The cost of feasible paths never rises

While gaps are being closed the cost may rise. Once the path is feasible it may not, if nothing is
rounded and the second derivatives of the models are symmetric: the policy then promises no increase
for any step length (`Policy.Solves.isBalanced`), so a step is accepted only if it keeps a positive
part of a promise that is not negative. A promise too small to matter ends the solve before a step
could be accepted for that.

* `Run.Takes.cost_lt`: a step along a feasible path lowers the cost;
* `Run.Descends`, the invariant: what observers were told so far, from the initial cost to the
  current one, never rises.

Nothing is assumed of the dynamics. Of the configuration it is that step lengths are halved and
nothing else: beyond candidate number `2 ^ 31` they are longer than one, where a promise of an
increase would let the cost rise.
-/

namespace Shooting

variable {s : StateSpace} {nus : List ℕ}

/-! ## One step -/

/-- Nothing is lost in halving a real number. -/
theorem halving_eq_pow : ∀ i : ℕ, (halving i : ℝ) = 2⁻¹ ^ i
  | 0 => rfl
  | i + 1 => by
    unfold halving
    rw [halving_eq_pow i, pow_succ']
    norm_num

/-- What is left of one after halvings lies between zero and one. -/
theorem halving_mem (i : ℕ) : 0 < (halving i : ℝ) ∧ (halving i : ℝ) ≤ 1 := by
  rw [halving_eq_pow]
  exact ⟨by positivity, pow_le_one₀ (by norm_num) (by norm_num)⟩

/-- Every step length is positive. -/
theorem stepLength_pos (i : ℕ) : 0 < (stepLength i : ℝ) := by
  obtain ⟨k, heq | heq⟩ := stepLength_cases (α := ℝ) i <;> rw [heq]
  · exact (halving_mem k).1
  · exact one_div_pos.mpr (halving_mem (k + 1)).1

/-- The length of a candidate that a line search has found lies between zero and one. -/
theorem FoundBy.length_mem {c : Config ℝ} {w : Workspace ℝ s nus} {p q : Problem ℝ s nus}
    {f : Found ℝ s nus} (h : FoundBy c w p q f) (hsteps : c.lineSearchSteps ≤ 2 ^ 31) :
    0 < f.length ∧ f.length ≤ 1 := by
  obtain ⟨i, hi, hlength⟩ := h.length
  rw [hlength, stepLength_of_lt (hi.trans_le hsteps)]
  exact halving_mem i

/-- A candidate that is accepted along a balanced policy costs less. -/
theorem Workspace.cost_lt_of_acceptable {w : Workspace ℝ s nus} {c : Config ℝ}
    (hvalid : c.IsValid) (hbalanced : w.expected.IsBalanced)
    (hpromises : ¬ Scalar.abs w.expected.first < c.gradientThreshold) {cost length : ℝ}
    (hpos : 0 ≤ length) (hle : length ≤ 1) (h : w.acceptable c cost length = true) :
    cost < w.cost := by
  have hreduction := hbalanced.reduction_nonneg hpos hle
  have hkept := Config.lt_of_accepts h hpromises hreduction
  have hratio : 0 ≤ c.acceptanceRatio * w.expected.reduction length :=
    mul_nonneg hvalid.ratio.1.le hreduction
  linarith

namespace Run

variable {p : Problem ℝ s nus} {c : Config ℝ} {r₀ r r₁ r' : Run ℝ s nus} {i : ℕ}
  {policy : Policy ℝ s.ndx nus}

/-- The policy of a feasible run promises no increase. -/
theorem isBalanced_planned (hc : r₁.Consistent p) (hexp : r₁.unexpanded = false)
    (hsymm : Models.IsSymmetric p.stages.models) (hflag : r₁.workspace.feasible = true)
    (hback : r₁.backward = (policy, none)) :
    (r₁.planned policy).workspace.expected.IsBalanced := by
  have hsolves := backward_solves hback
  rw [hc.expanded hexp, hflag] at hsolves
  rw [expected_planned hflag]
  exact hsolves.isBalanced (hsymm.expansions _) _

/-- **A step along a feasible path lowers the cost.** -/
theorem Takes.cost_lt {f : Found ℝ s nus} (ht : r₁.Takes c policy f r') (hvalid : c.IsValid)
    (hsteps : c.lineSearchSteps ≤ 2 ^ 31) (hc : r₁.Consistent p) (hexp : r₁.unexpanded = false)
    (hsymm : Models.IsSymmetric p.stages.models) (hflag : r₁.workspace.feasible = true)
    (hback : r₁.backward = (policy, none))
    (hgo : (r₁.planned policy).workspace.verdict c = none) :
    r'.workspace.cost < r₁.workspace.cost := by
  obtain ⟨hpos, hle⟩ := ht.found.length_mem hsteps
  rw [ht.cost]
  have hplanned : (r₁.planned policy).workspace.feasible = true := hflag
  exact (r₁.planned policy).workspace.cost_lt_of_acceptable hvalid
    (isBalanced_planned hc hexp hsymm hflag hback)
    ((Workspace.verdict_eq_none_iff hplanned).mp hgo).2 hpos.le hle ht.found.acceptable

/-- An iteration from a feasible run takes a step that lowers the cost, or stays where it is. -/
theorem iterate_lowers (hvalid : c.IsValid) (hsteps : c.lineSearchSteps ≤ 2 ^ 31)
    (hc : r.Consistent p) (hsymm : Models.IsSymmetric p.stages.models)
    (hflag : r.workspace.feasible = true) :
    r.Stays (r.iterate c i).run ∨
      ((r.iterate c i).run.tally.accepted = r.tally.accepted + 1 ∧
        (r.iterate c i).run.workspace.feasible = true ∧
        (r.iterate c i).run.workspace.cost < r.workspace.cost) := by
  rcases (iterate_cases c r i).stays_or_takes with hs | ⟨r₁, policy, f, hprep, hback, hgo, ht⟩
  · exact .inl hs
  · obtain ⟨hc₁, hexp⟩ := refresh_consistent hc hprep
    have hs := stays_refresh hprep
    have hflag₁ : r₁.workspace.feasible = true := hs.feasible.trans hflag
    refine .inr ⟨?_, ?_, ?_⟩
    · rw [ht.accepted, hs.accepted]
    · rw [ht.feasible, hflag₁, Bool.true_or]
    · rw [← hs.cost]
      exact ht.cost_lt hvalid hsteps hc₁ hexp hsymm hflag₁ hback hgo

/-! ## All reports -/

/-- The costs that a run has told of, from the initial one on. -/
def told (r : Run ℝ s nus) (reports : List (Report ℝ)) : List ℝ :=
  r.initialCost :: reports.map fun report => report.metrics.cost

/-- The run `r` is feasible, and since the solve began with `o` as observers they have been told of
no rise. -/
structure Descends (r : Run ℝ s nus) (o : Observers ℝ) : Prop where
  feasible : r.workspace.feasible = true
  reports : ∃ reports, r.observers = o.hearAll reports ∧ (r.told reports).Pairwise (· ≥ ·) ∧
    ∀ cost ∈ r.told reports, r.workspace.cost ≤ cost

/-- Reports of an iteration that does not raise the cost continue a descent. -/
theorem Descends.next {o : Observers ℝ} (h : r.Descends o) (hflag : r'.workspace.feasible = true)
    (hle : r'.workspace.cost ≤ r.workspace.cost) (hinitial : r'.initialCost = r.initialCost)
    {new : List (Report ℝ)} (hnew : r.Reports r' new) : r'.Descends o := by
  obtain ⟨old, hold, hsorted, hbound⟩ := h.reports
  have htold : r'.told (old ++ new) = r.told old ++ new.map fun report => report.metrics.cost := by
    unfold told
    rw [hinitial, List.map_append, List.cons_append]
  have hcost : ∀ cost ∈ new.map fun report => report.metrics.cost, cost = r'.workspace.cost := by
    intro cost hmem
    obtain ⟨report, hreport, rfl⟩ := List.mem_map.mp hmem
    exact (hnew.about report hreport).cost
  have hequal : (new.map fun report => report.metrics.cost).Pairwise (· ≥ ·) := by
    refine List.pairwise_of_forall_mem_list ?_
    intro a ha b hb
    rw [hcost a ha, hcost b hb]
  refine ⟨hflag, old ++ new, ?_, ?_, ?_⟩
  · rw [Observers.hearAll_append, ← hold, hnew.observers]
  · rw [htold, List.pairwise_append]
    refine ⟨hsorted, hequal, ?_⟩
    intro a ha b hb
    rw [hcost b hb]
    exact hle.trans (hbound a ha)
  · intro cost hmem
    rw [htold, List.mem_append] at hmem
    rcases hmem with hmem | hmem
    · exact hle.trans (hbound cost hmem)
    · exact (hcost cost hmem).ge

theorem iterate_descends (hvalid : c.IsValid) (hsteps : c.lineSearchSteps ≤ 2 ^ 31)
    (hc : r.Consistent p) (hsymm : Models.IsSymmetric p.stages.models) {o : Observers ℝ}
    (h : r.Descends o) :
    (r.iterate c i).run.Descends o := by
  obtain ⟨new, hnew⟩ := (iterate_cases c r i).reports
  have hinitial := initialCost_iterate c r i
  rcases iterate_lowers hvalid hsteps hc hsymm h.feasible with hs | ⟨-, hflag, hlt⟩
  · exact h.next (hs.feasible.trans h.feasible) hs.cost.le hinitial hnew
  · exact h.next hflag hlt.le hinitial hnew

end Run

/-! ## Whole solves -/

namespace Solver

variable {sv : Solver ℝ s nus} {p : Problem ℝ s nus} {g : Guess ℝ} {clock : ℕ → ℕ} {budget : ℕ}
  {r₀ : Run ℝ s nus}

theorem Begins.descends_of_ends (h : sv.Begins p g r₀) (hsteps : sv.config.lineSearchSteps ≤ 2 ^ 31)
    (hsymm : Models.IsSymmetric p.stages.models) (hflag : r₀.workspace.feasible = true)
    {r : Run ℝ s nus} {status : Status} {n : ℕ}
    (hend : r₀.Ends sv.config clock budget r status n) : r.Descends sv.observers := by
  have hvalid := Config.isValid_of_validate h.validate
  have hstart : r₀.Descends sv.observers := by
    refine ⟨hflag, [], h.observers, List.pairwise_singleton _ _, ?_⟩
    intro cost hmem
    obtain rfl := List.mem_singleton.mp hmem
    exact h.initialCost.ge
  exact hend.induct (P := fun r => r.Descends sv.observers) hstart fun hperf hdescends =>
    Run.iterate_descends hvalid hsteps (h.consistent_of_reaches hperf.reached) hsymm hdescends

/-- How the cost goes along feasible paths. -/
structure NeverRises (sv : Solver ℝ s nus) (p : Problem ℝ s nus) (g : Guess ℝ) (clock : ℕ → ℕ)
    (budget : ℕ) : Prop where
  /-- An iteration from a feasible run accepts a step that lowers the cost, or accepts nothing and
  leaves cost, path and flag. -/
  iteration : ∀ {r₀ i r}, sv.Begins p g r₀ → r₀.Performs sv.config clock budget i r →
    r.workspace.feasible = true →
      ((r.iterate sv.config i).run.tally.accepted = r.tally.accepted + 1 ∧
        (r.iterate sv.config i).run.workspace.cost < r.workspace.cost) ∨
      ((r.iterate sv.config i).run.tally.accepted = r.tally.accepted ∧
        (r.iterate sv.config i).run.workspace.cost = r.workspace.cost ∧
        (r.iterate sv.config i).run.workspace.path = r.workspace.path ∧
        (r.iterate sv.config i).run.workspace.feasible = r.workspace.feasible)
  /-- From the initial cost over all reports to the final cost, nothing rises in a solve that starts
  feasible. -/
  reports : ∀ {res}, (sv.solveWithin p g clock budget).outcome = .ok res →
    g.states = none ∨ g.feasible = true →
      ∃ reports : List (Report ℝ),
        (sv.solveWithin p g clock budget).solver.observers = sv.observers.hearAll reports ∧
        (res.initialCost :: reports.map (fun report => report.metrics.cost) ++
          [res.finalCost]).Pairwise (· ≥ ·)

/-- **Over the reals, the cost of feasible paths never rises**, if the models give symmetric second
derivatives. -/
theorem feasible_cost_never_rises (hsteps : sv.config.lineSearchSteps ≤ 2 ^ 31)
    (hsymm : Models.IsSymmetric p.stages.models) : sv.NeverRises p g clock budget := by
  constructor
  · intro r₀ i r hbegin hperf hflag
    have hvalid := Config.isValid_of_validate hbegin.validate
    have hconsistent := hbegin.consistent_of_reaches hperf.reached
    rcases Run.iterate_lowers (i := i) hvalid hsteps hconsistent hsymm hflag with
      hs | ⟨haccepted, -, hlt⟩
    · exact .inr ⟨hs.accepted, hs.cost, hs.path, hs.feasible⟩
    · exact .inl ⟨haccepted, hlt⟩
  · intro res hout hguess
    obtain ⟨r₀, r, status, n, hbegin, hend, hfinish⟩ := solveWithin_ok hout
    have hflag := hbegin.feasible hguess
    have hconsistent := hbegin.consistent_of_ends hend
    obtain ⟨reports, hobservers, hsorted, hbound⟩ :=
      (hbegin.descends_of_ends hsteps hsymm hflag hend).reports
    rw [hfinish] at hout ⊢
    have hfinal : res.finalCost = r.workspace.cost :=
      (hconsistent.describes hout).1.finalCost.trans hconsistent.cost.symm
    have hinitial : res.initialCost = r.initialCost := by
      obtain rfl := Except.ok.inj hout
      exact r.settle_initialCost
    refine ⟨reports, r.settle_observers.trans hobservers, ?_⟩
    rw [hfinal, hinitial, List.pairwise_append]
    refine ⟨hsorted, List.pairwise_singleton _ _, ?_⟩
    intro cost hmem final hfinal
    rw [List.mem_singleton.mp hfinal]
    exact hbound cost hmem

/-- A solve with an observer that keeps a record, and its first iteration. -/
theorem feasible_cost_never_rises_push :
    ∃ (r₀ : Run ℝ (.euclidean 1) [1]) (res : SolveResult ℝ) (reports : List (Report ℝ)),
      (Config.standard : Config ℝ).lineSearchSteps ≤ 2 ^ 31 ∧
        Models.IsSymmetric (Problem.push ℝ).stages.models ∧
        r₀.workspace.feasible = true ∧
        (r₀.iterate .standard 0).run.workspace.cost ≤ r₀.workspace.cost ∧
        ((Solver.new .standard (Observers.none.add .history)).solveWithin (.push ℝ) .none
          (fun _ => 0) 3).outcome = .ok res ∧
        ((Solver.new .standard (Observers.none.add .history)).solveWithin (Problem.push ℝ)
          .none (fun _ => 0) 3).solver.observers =
            (Observers.none.add .history).hearAll reports ∧
        (res.initialCost :: reports.map (fun report => report.metrics.cost) ++
          [res.finalCost]).Pairwise (· ≥ ·) := by
  have hone : (Mat.identity 1 : Mat ℝ 1 1).IsSymmetric := Mat.isSymmetric_identity
  have hstage (x : Vec ℝ 1) (u : Option (Vec ℝ 1)) := Model.isSymmetric_lqr
    (.driftless (.identity 1) (.identity 1) (.identity 1) (.identity 1)) hone hone x u
  have hsymm : Models.IsSymmetric (Problem.push ℝ).stages.models :=
    ⟨fun x u => hstage x (some u), fun x => (hstage x none).lxx⟩
  have hsteps : (Config.standard : Config ℝ).lineSearchSteps ≤ 2 ^ 31 := by decide
  have hrises : (Solver.new .standard (Observers.none.add .history)).NeverRises
      (Problem.push ℝ) .none (fun _ => 0) 3 := feasible_cost_never_rises hsteps hsymm
  obtain ⟨r₀, hbegin⟩ : ∃ r₀, (Solver.new .standard (Observers.none.add .history)).Begins
      (Problem.push ℝ) .none r₀ := exists_begins Config.isValid_standard _
  have hbudget : 3 < Vec.sizeLimit := by norm_num [Vec.sizeLimit]
  obtain ⟨res, hout⟩ := answers_of_begins hbegin (fun _ => 0) hbudget
  obtain ⟨reports, hobservers, hsorted⟩ := hrises.reports hout (.inl rfl)
  have hflag := hbegin.feasible (.inl rfl)
  refine ⟨r₀, res, reports, hsteps, hsymm, hflag, ?_, hout, hobservers, hsorted⟩
  rcases hrises.iteration hbegin ⟨.start, by decide, rfl⟩ hflag with ⟨-, hlt⟩ | ⟨-, heq, -⟩
  · exact hlt.le
  · exact heq.le

end Solver

end Shooting
