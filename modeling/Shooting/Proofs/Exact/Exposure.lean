import Shooting.Proofs.Exact.Stationary
import Shooting.Proofs.Solver.Attribution

/-!
# What the policy of a solver satisfies

A solver shows the policy of its last backward pass with the value functions it was made from. Where
all of this is from one pass, the gains at every stage solve the equations of the quadratic model
there, made with the value function that is shown for the stage after it (`Policy.Satisfies`). So it
is after a solve whose last passes got through (`exposed_policy_consistent`).

A pass that fails puts value functions of its own beside gains and figures of an earlier pass, and a
solve may well end after it: then no pass at all fits what is shown (`exposed_policy_mixed`).
-/

namespace Shooting

variable {s : StateSpace} {nus : List ℕ}

/-! ## The equations -/

/-- The gains of every stage solve the equations of the quadratic model whose value function is the
one of the stage after it. -/
def Policy.Satisfies (damping : ℝ) : {nus : List ℕ} → Policy ℝ s.ndx nus → Expansions ℝ s nus → Prop
  | _, .last _, .last _ => True
  | _, .stage p ps, .stage e es =>
    let q := ActionValue.ofExpansion e (Policy.head ps) damping
    (q.quu * p.gains.feedback = q.qxu.transpose ∧ q.quu * p.gains.feedforward = q.qu) ∧
      Satisfies damping ps es

/-- **What a backward pass finds satisfies the equations.** -/
theorem Policy.Solves.satisfies {d : Damping ℝ} {feasible : Bool} : ∀ {nus : List ℕ}
    {ps : Policy ℝ s.ndx nus} {es : Expansions ℝ s nus} {fs : Gaps ℝ s nus},
    Policy.Solves d feasible ps es fs → Expansions.IsSymmetric es → ps.Satisfies d.control es
  | _, .last _, .last _, .last _, _, _ => trivial
  | _, .stage p ps, .stage e es, .stage _ _, h, hsymm => by
    have hnext := Policy.Solves.isSymmetric_head h.2 hsymm.2
    have hK := h.1.feedback hsymm.1.luu hnext
    have hk := (h.1.feedforward hsymm.1.luu hnext).1
    rw [h.1.q] at hK hk
    exact ⟨⟨hK, hk⟩, satisfies h.2 hsymm.2⟩

/-- The equations are about what is shown. -/
theorem Policy.Satisfies.of_shown {damping : ℝ} : ∀ {nus : List ℕ} {ps ps' : Policy ℝ s.ndx nus}
    {es : Expansions ℝ s nus}, ps.shown = ps'.shown → ps'.Satisfies damping es →
    ps.Satisfies damping es
  | _, .last _, .last _, .last _, _, _ => trivial
  | _, .stage p ps, .stage p' ps', .stage e es, h, hsat => by
    obtain ⟨hstage, hrest⟩ := Horizon.stage.inj h
    have hgains : p.gains = p'.gains := (Prod.mk.inj hstage).1
    have hequations := hsat.1
    rw [← hgains, ← Policy.head_of_shown hrest] at hequations
    exact ⟨hequations, of_shown hrest hsat.2⟩

namespace Solver

variable {sv : Solver ℝ s nus} {p : Problem ℝ s nus} {g : Guess ℝ} {clock : ℕ → ℕ} {budget i : ℕ}

/-- **What a solver shows is consistent**, if the solve got to a backward pass and none has failed
since: policy, value functions and figures are from one pass that the solve has made, and the gains
satisfy the equations of that pass. -/
theorem exposed_policy_consistent (hpasses : sv.PassesFrom p g clock budget i) {res : SolveResult ℝ}
    (hok : (sv.solveWithin p g clock budget).outcome = .ok res) :
    ∃ w j b, (sv.solveWithin p g clock budget).solver.workspace = some w ∧
      sv.Makes p g clock budget j b ∧ w.From p b ∧
      (p.stages.models.IsSymmetric →
        w.policy.Satisfies b.damping.control (p.stages.models.expansions b.path)) := by
  obtain ⟨w, j, b, hw, hmakes, hfrom⟩ := hpasses.exists_from hok
  refine ⟨w, j, b, hw, hmakes, hfrom, ?_⟩
  intro hsymm
  obtain ⟨policy, hsolves, hshown, -⟩ := hfrom.policy
  exact (hsolves.satisfies (hsymm.expansions b.path)).of_shown hshown

/-- One iteration from a resting point. -/
theorem exposed_policy_consistent_resting :
    let sv : Solver ℝ (.euclidean 1) [1] := .new .standard .none
    let p := Problem.pushFrom (.identity 1) 1
    let solved := sv.solveWithin p ((Path.resting 1).guess 1) (fun _ => 0) 1
    ∃ res w j b, solved.outcome = .ok res ∧ solved.solver.workspace = some w ∧
      sv.Makes p ((Path.resting 1).guess 1) (fun _ => 0) 1 j b ∧ w.From p b ∧
      w.policy.Satisfies b.damping.control (p.stages.models.expansions b.path) := by
  intro sv p solved
  obtain ⟨r₁, policy, hpass, -⟩ := exists_firstPass_push 1 (r := 1) (by norm_num) (by norm_num)
  obtain ⟨r₀, hbegin, -⟩ := hpass.prepared
  have hbudget : 1 < Vec.sizeLimit := by norm_num [Vec.sizeLimit]
  obtain ⟨res, hok⟩ := answers_of_begins hbegin (fun _ => 0) hbudget
  obtain ⟨w, j, b, hw, hmakes, hfrom, hsatisfies⟩ :=
    exposed_policy_consistent (hpass.passesFrom _) hok
  exact ⟨res, w, j, b, hok, hw, hmakes, hfrom, hsatisfies (Models.isSymmetric_line _)⟩

end Solver

/-! ## A pass that fails -/

namespace Problem

/-- The weight of a push that is paid for: what it costs by itself has no minimum. -/
noncomputable def reward : Mat ℝ 1 1 := (Mat.identity 1).scale (-2.0)

theorem get_reward : reward.get 0 0 = -2 := by
  norm_num [reward]

/-- A point at `1` that is paid for being pushed. -/
noncomputable def rewarded : Problem ℝ (.euclidean 1) [1] := .pushFrom reward 1

end Problem

/-- The gains for a push, the bend of the value function after it and the measure of convergence
are as a solve of `Problem.rewarded` leaves them behind. -/
structure Workspace.IsMixed (w : Workspace ℝ (.euclidean 1) [1]) : Prop where
  policy : ∃ p v, w.policy = .stage p (.last v) ∧ p.gains.feedforward.get 0 = 1 ∧
    p.gains.feedback.get 0 0 = 2 ∧ v.hessian.get 0 0 = 1.1
  stop : w.expected.stop = 1

/-- No pass finds this: from the gains and the value function the control gradient is `0.55`. -/
theorem Workspace.IsMixed.not_from {w : Workspace ℝ (.euclidean 1) [1]} (h : w.IsMixed) :
    ¬ ∃ b, w.From .rewarded b := by
  obtain ⟨⟨p, v, hpolicy, hk, hK, hv⟩, hstop⟩ := h
  rintro ⟨b, -, policy, hsolves, hshown, hexpected⟩
  cases policy with | stage p' ps =>
  cases ps with | last v' =>
  rw [hpolicy] at hshown
  obtain ⟨hhead, hlast⟩ := Horizon.stage.inj hshown
  have hgains : p.gains = p'.gains := (Prod.mk.inj hhead).1
  have hvalue : v = v' := Horizon.last.inj hlast
  obtain ⟨-, -, hfeedback, hfeedforward⟩ := Models.figures_line hsolves
  rw [← hgains, ← hvalue, hK, hv] at hfeedback
  rw [← hgains, hk] at hfeedforward
  have hsquare := (Models.expected_line p' v' b.feasible b.gaps).1
  rw [← hexpected, hstop, ← hfeedforward] at hsquare
  have hquu : p'.q.quu.get 0 0 = 0.55 := by linarith
  rw [hquu] at hsquare
  norm_num at hsquare

namespace Run

variable {c : Config ℝ} {r : Run ℝ (.euclidean 1) [1]} {i : ℕ}

/-- A pass over a push that fails leaves gains and figures, but not the value function. -/
theorem iterate_line {luu : Mat ℝ 1 1} {q : Problem ℝ (.euclidean 1) [1]}
    (hmodels : q.stages.models = .line luu) (hc : r.Consistent q)
    (hneg : luu.get 0 0 + (1 + r.workspace.damping.state) + r.workspace.damping.control ≤ 0)
    {p : StagePolicy ℝ (StateSpace.euclidean 1).ndx 1}
    {v : ValueModel ℝ (StateSpace.euclidean 1).ndx}
    (hpolicy : r.workspace.policy = .stage p (.last v)) :
    ∃ p' v', (r.iterate c i).run.workspace.policy = .stage p' (.last v') ∧ p'.gains = p.gains ∧
      v'.hessian.get 0 0 = 1 + r.workspace.damping.state ∧
      (r.iterate c i).run.workspace.expected = r.workspace.expected := by
  obtain ⟨r₁, hprep⟩ := r.exists_refresh i
  obtain ⟨hc₁, hexp⟩ := refresh_consistent hc hprep
  have hexpansions := hc₁.expanded hexp
  obtain ⟨hdamping, hpolicy₁, hexpected⟩ : r₁.workspace.damping = r.workspace.damping ∧
      r₁.workspace.policy = r.workspace.policy ∧
      r₁.workspace.expected = r.workspace.expected := by
    rcases refresh_ok hprep with ⟨-, rfl⟩ | ⟨-, rfl⟩ <;> exact ⟨rfl, rfl, rfl⟩
  rw [hmodels] at hexpansions
  obtain ⟨p', v', hback, hgains, hhessian⟩ := Models.backward_line hexpansions hneg
    r₁.workspace.feasible r₁.workspace.gaps p v
  rw [← hpolicy, ← hpolicy₁, ← hdamping] at hback
  have hstep := keepsPolicy_afterBackwardFailure c
    (r₁.withdrawn (.stage p' (.last v')) (.indefinite 0)) i
  rw [iterate_of_failure hprep hback]
  exact ⟨p', v', hstep.policy, hgains, hhessian, hstep.expected.trans hexpected⟩

end Run

namespace Solver

/-- What the first pass of a solve of `Problem.rewarded` finds. -/
theorem exists_firstPass_rewarded : ∃ r₁ p v,
    (Solver.new .standard .none).FirstPass .rewarded ((Path.resting 1).guess 1) r₁
        (.stage p (.last v)) ∧
      r₁.workspace.path = .resting 1 ∧ r₁.workspace.feasible = true ∧
      r₁.workspace.damping = ⟨1, 1⟩ ∧ p.gains.feedforward.get 0 = 1 ∧
      p.gains.feedback.get 0 0 = 2 ∧
      (r₁.planned (.stage p (.last v))).workspace.expected = ⟨1, -1, 1⟩ := by
  obtain ⟨r₁, policy, hpass, hpath, hflag, hdamping⟩ :=
    exists_firstPass_resting Problem.reward 1 (r := 1) (by norm_num) (by norm_num)
      (by norm_num [Problem.get_reward])
  have hsolves := hpass.solves
  cases policy with | stage p ps =>
  cases ps with | last v =>
  rw [hflag, hpath, hdamping] at hsolves
  obtain ⟨hv, hquu, hfeedback, hfeedforward⟩ := Models.figures_line hsolves
  have hqu : p.q.qu.get 0 = 1 := by simpa using Models.gradient_line hsolves
  have hone : p.q.quu.get 0 0 = 1 := by
    rw [hquu, hv, Problem.get_reward]
    norm_num
  rw [hone, one_mul, hv, one_add_one_eq_two] at hfeedback
  rw [hone, one_mul, hqu] at hfeedforward
  have hexpected := Models.expected_line p v true r₁.workspace.gaps
  rw [hqu, hone, hfeedforward, ← Run.expected_planned hflag] at hexpected
  obtain ⟨hstop, hparts⟩ := hexpected
  obtain ⟨hfirst, hsecond⟩ := hparts rfl
  refine ⟨r₁, p, v, hpass, hpath, hflag, hdamping, hfeedforward, hfeedback, ?_⟩
  generalize (r₁.planned (.stage p (.last v))).workspace.expected = expected
    at hstop hfirst hsecond ⊢
  rw [mul_one] at hstop hfirst
  rw [mul_one, mul_one] at hsecond
  cases expected
  rw [ExpectedImprovement.mk.injEq]
  exact ⟨hfirst, hsecond, hstop⟩

/-- The first iteration of a solve of `Problem.rewarded` takes a full step and lowers the
regularization. -/
theorem iterate_rewarded : ∃ r₀ r₁ policy r, (Solver.new .standard .none).Begins .rewarded
      ((Path.resting 1).guess 1) r₀ ∧
    (Solver.new .standard .none).FirstPass .rewarded ((Path.resting 1).guess 1) r₁ policy ∧
    r₀.iterate .standard 0 = .next r ∧ r.workspace.damping = ⟨0.1, 0.1⟩ ∧
    r.workspace.expected.stop = 1 ∧
    ∃ p v, r.workspace.policy = .stage p (.last v) ∧ p.gains.feedforward.get 0 = 1 ∧
      p.gains.feedback.get 0 0 = 2 := by
  obtain ⟨r₁, p, v, hpass, hpath, hflag, hdamping, hk, hK, hexpected⟩ := exists_firstPass_rewarded
  obtain ⟨⟨r₀, hbegin, hprep⟩, hback⟩ := hpass
  obtain ⟨hc, -⟩ := Run.refresh_consistent hbegin.consistent hprep
  let w := (r₁.planned (.stage p (.last v))).workspace
  replace hflag : w.feasible = true := hflag
  replace hexpected : w.expected = ⟨1, -1, 1⟩ := hexpected
  have hcost : w.cost = 1 := by
    show r₁.workspace.cost = 1
    rw [hc.cost, hpath]
    refine (Problem.costAlong_line rfl _ _).trans ?_
    simp
  have hgo : w.verdict .standard = none := by
    rw [Workspace.verdict_eq_none_iff hflag, hexpected, Scalar.abs_real, abs_one]
    norm_num [Config.standard]
  -- the cost falls from 1 to -1/2, where 1/2 was expected
  obtain ⟨q, cost, path, hstep, hhalf⟩ :=
    Workspace.tryStep_line (w := w) hc.same.models hflag hpath rfl
  have hstart : r₁.problem.start.get 0 = 1 := by
    rw [hc.same.start]
    exact Vec.get_replicate _ _
  have hreduction : w.expected.reduction 1 = 1 / 2 := by
    rw [hexpected]
    norm_num [ExpectedImprovement.reduction]
  have hacc : w.acceptable .standard cost 1 = true := by
    rw [hk, hK, hstart, Problem.get_reward] at hhalf
    norm_num at hhalf
    unfold Workspace.acceptable
    rw [hcost, hreduction, hexpected, hhalf]
    norm_num [Config.accepts, Config.standard, Scalar.abs_real]
  have hfound := congrArg LineSearch.found (lineSearch_of_acceptable (by decide) hstep hacc)
  have hiterate := Run.iterate_of_found hprep hback hgo hfound
  -- a full step is a long one
  have hlower : (Config.standard : Config ℝ).lower 1 = 0.1 := by
    show Scalar.max (1 / 10.0 : ℝ) 1e-9 = 0.1
    unfold Scalar.max
    norm_num
  obtain ⟨r, hnext, hr⟩ := Run.afterStep_of_long (f := ⟨1, cost, path⟩) (c := .standard)
    (by norm_num [Config.standard]) (by norm_num [Config.standard])
    ((r₁.planned (.stage p (.last v))).searched .standard) 0
    (r₁.planned (.stage p (.last v))).workspace.feasibility
  refine ⟨r₀, r₁, _, r, hbegin, ⟨⟨r₀, hbegin, hprep⟩, hback⟩, hiterate.trans hnext, ?_, ?_, p, v,
    ?_, hk, hK⟩ <;> rw [hr]
  · show Damping.mk (Config.standard.lower r₁.workspace.damping.state)
      (Config.standard.lower r₁.workspace.damping.control) = _
    rw [hdamping, hlower]
  · show w.expected.stop = 1
    rw [hexpected]
  · rfl

/-- **Where a pass has failed, no pass fits what is shown.** The first pass of this solve gets
through and the second does not, and then the solve is over. -/
theorem exposed_policy_mixed :
    let sv : Solver ℝ (.euclidean 1) [1] := .new .standard .none
    let solved := sv.solveWithin .rewarded ((Path.resting 1).guess 1) (fun _ => 0) 2
    Problem.rewarded.stages.models.IsSymmetric ∧ (∃ res, solved.outcome = .ok res) ∧
      (∃ r₁ policy, sv.FirstPass .rewarded ((Path.resting 1).guess 1) r₁ policy) ∧
      ∃ w, solved.solver.workspace = some w ∧ ¬ ∃ b, w.From .rewarded b := by
  intro sv solved
  obtain ⟨r₀, r₁, policy, r, hbegin, hpass, hnext, hdamping, hstop, p, v, hpolicy, hk, hK⟩ :=
    iterate_rewarded
  have hbudget : 2 < Vec.sizeLimit := by norm_num [Vec.sizeLimit]
  obtain ⟨res, hok⟩ := answers_of_begins hbegin (fun _ => 0) hbudget
  refine ⟨Models.isSymmetric_line _, ⟨res, hok⟩, ⟨r₁, policy, hpass⟩, ?_⟩
  obtain ⟨r₀', r', status, n, hbegin', hend, hfinish⟩ := solveWithin_ok hok
  obtain rfl := hbegin.unique hbegin'
  -- the second iteration is the last one
  have hperf : r₀.Performs .standard (fun _ => 0) 2 1 r :=
    ⟨.next .start (by decide) rfl hnext, by decide, rfl⟩
  have hneg : Problem.reward.get 0 0 + (1 + r.workspace.damping.state) +
      r.workspace.damping.control ≤ 0 := by
    rw [hdamping, Problem.get_reward]
    norm_num
  obtain ⟨p', v', hpolicy', hgains, hhessian, hexpected⟩ := Run.iterate_line (c := .standard)
    (i := 1) rfl (hbegin.consistent_of_reaches hperf.reached) hneg hpolicy
  have hmixed : (r.iterate .standard 1).run.workspace.IsMixed := by
    refine ⟨⟨p', v', hpolicy', hgains ▸ hk, hgains ▸ hK, ?_⟩, hexpected ▸ hstop⟩
    rw [hhessian, hdamping]
    norm_num
  have hlast : r'.workspace.IsMixed := hend.after (P := fun r => r.workspace.IsMixed)
    (fun hlt hperf _ => absurd hperf.within (by omega)) hperf hmixed
  have hshown : r'.settle.workspace.IsMixed := by
    obtain ⟨hpolicy, hstop⟩ := hlast
    rw [← r'.settle_policy] at hpolicy
    rw [← r'.settle_expected] at hstop
    exact ⟨hpolicy, hstop⟩
  have hsolved : solved = r'.finish .standard status n := hfinish
  rw [hsolved]
  exact ⟨r'.settle.workspace, rfl, hshown.not_from⟩

end Solver

end Shooting
