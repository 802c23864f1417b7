import Shooting.Proofs.Solver.AtOnce

/-!
# Where a policy comes from

A backward pass writes over the policy of the one before, stage by stage from the end, and what is
expected is renewed only if the pass gets through. So one has to ask which pass the policy and the
figures of a workspace are from (`Workspace.From`). The answer of this module is:

> After an iteration whose pass got through they are all from that pass, and an iteration whose pass
> is not reached keeps them (`Iteration.source`).

So a solve none of whose passes fails any more from some iteration on leaves policy and figures of
one pass behind (`PassesFrom.exists_from`). A pass that fails leaves a mixture: the stages it has
reached are its own, the others and the figures are from passes before.

No law of arithmetic is used.
-/

namespace Shooting

variable {α : Type} {s : StateSpace} {ndx : Nat} {nus : List Nat}

/-- What is shown of a policy: gains and value functions, but not what they were made of. -/
def Policy.shown (ps : Policy α ndx nus) :
    Horizon (fun nu => Gains α ndx nu × ValueModel α ndx) (ValueModel α ndx) nus :=
  ps.map (fun p => (p.gains, p.value)) id

theorem Policy.head_of_shown [Scalar α] : ∀ {nus : List Nat} {ps ps' : Policy α ndx nus},
    ps.shown = ps'.shown → ps.head = ps'.head
  | _, .last _, .last _, h => Horizon.last.inj h
  | _, .stage _ _, .stage _ _, h => (Prod.mk.inj (Horizon.stage.inj h).1).2

/-- What a backward pass works with: the regularization, the path with its gaps and whether it
counts as feasible. -/
structure Pass (α : Type) (s : StateSpace) (nus : List Nat) where
  damping : Damping α
  feasible : Bool
  path : Path α s nus
  gaps : Gaps α s nus

variable [Scalar α]

/-- All that a workspace shows of its policy, and all that it expects of it, is from the pass `b`
along a path of the problem `p`. -/
structure Workspace.From (w : Workspace α s nus) (p : Problem α s nus) (b : Pass α s nus) :
    Prop where
  gaps : b.gaps.toList id id = p.gapsAlong b.path
  policy : ∃ policy : Policy α s.ndx nus,
    policy.Solves b.damping b.feasible (p.stages.models.expansions b.path) b.gaps ∧
      w.policy.shown = policy.shown ∧ w.expected = .ofPolicy policy b.gaps b.feasible

namespace Run

variable {p : Problem α s nus} {c : Config α} {r r₁ r' : Run α s nus} {i : Nat}

/-- What the backward pass of a run works with. -/
def pass (r : Run α s nus) : Pass α s nus :=
  ⟨r.workspace.damping, r.workspace.feasible, r.workspace.path, r.workspace.gaps⟩

/-! ## One iteration -/

/-- The run `r'` has the policy and the figures of `r`. -/
structure KeepsPolicy (r r' : Run α s nus) : Prop where
  policy : r'.workspace.policy = r.workspace.policy
  expected : r'.workspace.expected = r.workspace.expected

theorem KeepsPolicy.from {b : Pass α s nus} (hk : r.KeepsPolicy r') (h : r.workspace.From p b) :
    r'.workspace.From p b := by
  obtain ⟨hgaps, hpolicy⟩ := h
  rw [← hk.policy, ← hk.expected] at hpolicy
  exact ⟨hgaps, hpolicy⟩

theorem keepsPolicy_invalid {e : SolverError α} (h : r.refresh i = .error (r', e)) :
    r.KeepsPolicy r' := by
  obtain ⟨-, -, rfl, -⟩ := refresh_error h
  exact ⟨rfl, rfl⟩

theorem keepsPolicy_afterBackwardFailure (c : Config α) (r : Run α s nus) (i : Nat) :
    r.KeepsPolicy (r.afterBackwardFailure c i).run := by
  rcases afterBackwardFailure_cases c r i with ⟨-, heq⟩ | ⟨-, heq⟩ <;> rw [heq] <;>
    exact ⟨rfl, rfl⟩

theorem keepsPolicy_afterStep (c : Config α) (r : Run α s nus) (i : Nat) (f : Found α s nus)
    (feasibility : α) : r.KeepsPolicy ((r.searched c).afterStep c i f feasibility).run := by
  obtain ⟨damping, hw⟩ := workspace_afterStep c (r.searched c) i f feasibility
  constructor <;> rw [hw] <;> rfl

theorem keepsPolicy_afterRejection (c : Config α) (r : Run α s nus) (i : Nat)
    (length feasibility : α) :
    r.KeepsPolicy ((r.searched c).afterRejection c i length feasibility).run := by
  rcases afterRejection_cases c (r.searched c) i length feasibility with ⟨-, heq⟩ | ⟨-, heq⟩ <;>
    rw [heq] <;> exact ⟨rfl, rfl⟩

theorem keepsPolicy_settle (r : Run α s nus) : r.KeepsPolicy r.settle :=
  ⟨r.settle_policy, r.settle_expected⟩

/-- **A pass that gets through is where policy and figures are from.** -/
theorem from_planned {policy : Policy α s.ndx nus} (h : r₁.Consistent p)
    (hexp : r₁.unexpanded = false) (hback : r₁.backward = (policy, none)) :
    (r₁.planned policy).workspace.From p r₁.pass := by
  have hsolves := backward_solves hback
  rw [h.expanded hexp] at hsolves
  exact ⟨h.gaps hexp, policy, hsolves, rfl, rfl⟩

/-- **What an iteration does to policy and figures.** Its pass is not reached, its pass fails, or
they are from its pass. -/
theorem Iteration.source {step : Step α s nus} (hcase : r.Iteration c i step)
    (h : r.Consistent p) :
    ((∃ failed, r.refresh i = .error failed) ∧ r.KeepsPolicy step.run) ∨
      (∃ r₁ policy failure, r.refresh i = .ok r₁ ∧ r₁.backward = (policy, some failure) ∧
        (r₁.withdrawn policy failure).KeepsPolicy step.run) ∨
      ∃ r₁, r.refresh i = .ok r₁ ∧ step.run.workspace.From p r₁.pass := by
  have planned {r₁ r' : Run α s nus} {policy : Policy α s.ndx nus} (hprep : r.refresh i = .ok r₁)
      (hback : r₁.backward = (policy, none)) (hk : (r₁.planned policy).KeepsPolicy r') :
      ∃ r₁, r.refresh i = .ok r₁ ∧ r'.workspace.From p r₁.pass := by
    obtain ⟨h₁, hexp⟩ := refresh_consistent h hprep
    exact ⟨r₁, hprep, hk.from (from_planned h₁ hexp hback)⟩
  cases hcase with
  | invalid hprep => exact .inl ⟨⟨_, hprep⟩, keepsPolicy_invalid hprep⟩
  | unplanned hprep hback =>
    exact .inr (.inl ⟨_, _, _, hprep, hback, keepsPolicy_afterBackwardFailure c _ i⟩)
  | optimal hprep hback => exact .inr (.inr (planned hprep hback ⟨rfl, rfl⟩))
  | stepped hprep hback =>
    exact .inr (.inr (planned hprep hback (keepsPolicy_afterStep c _ i _ _)))
  | rejected hprep hback =>
    exact .inr (.inr (planned hprep hback (keepsPolicy_afterRejection c _ i _ _)))

end Run

/-! ## A whole solve -/

namespace Solver

variable {sv : Solver α s nus} {p : Problem α s nus} {g : Guess α} {clock : Nat → Nat}
  {budget i : Nat}

/-- The solve makes the backward pass `b` in iteration number `i`. -/
def Makes (sv : Solver α s nus) (p : Problem α s nus) (g : Guess α) (clock : Nat → Nat)
    (budget i : Nat) (b : Pass α s nus) : Prop :=
  ∃ r₀ r r₁, sv.Begins p g r₀ ∧ r₀.Performs sv.config clock budget i r ∧ r.refresh i = .ok r₁ ∧
    r₁.pass = b

/-- The solve makes a backward pass in iteration number `i`, and from then on none fails. -/
structure PassesFrom (sv : Solver α s nus) (p : Problem α s nus) (g : Guess α)
    (clock : Nat → Nat) (budget i : Nat) : Prop where
  reached : ∃ b, sv.Makes p g clock budget i b
  passes : ∀ {r₀ r r₁ : Run α s nus} {j : Nat} {policy : Policy α s.ndx nus}
    {failure : BackwardFailure}, i ≤ j → sv.Begins p g r₀ →
    r₀.Performs sv.config clock budget j r → r.refresh j = .ok r₁ →
      r₁.backward ≠ (policy, some failure)

/-- A solve with one iteration whose pass gets through is one none of whose passes fails. -/
theorem FirstPass.passesFrom {r₁ : Run α s nus} {policy : Policy α s.ndx nus}
    (h : sv.FirstPass p g r₁ policy) (clock : Nat → Nat) : sv.PassesFrom p g clock 1 0 := by
  obtain ⟨⟨r₀, hbegin, hprep⟩, hback⟩ := h
  refine ⟨⟨r₁.pass, r₀, r₀, r₁, hbegin, ⟨.start, Nat.one_pos, rfl⟩, hprep, rfl⟩, ?_⟩
  intro r₀' r r₁' j policy' failure _ hbegin' hperf hprep' hback'
  obtain rfl := Nat.lt_one_iff.mp hperf.within
  obtain rfl := hbegin.unique hbegin'
  obtain rfl := hperf.reached.unique .start
  obtain rfl := Except.ok.inj (hprep.symm.trans hprep')
  rw [hback] at hback'
  cases (Prod.mk.inj hback').2

/-- **What such a solve leaves behind is from one of its passes.** -/
theorem PassesFrom.exists_from (h : sv.PassesFrom p g clock budget i) {res : SolveResult α}
    (hok : (sv.solveWithin p g clock budget).outcome = .ok res) :
    ∃ w j b, (sv.solveWithin p g clock budget).solver.workspace = some w ∧
      sv.Makes p g clock budget j b ∧ w.From p b := by
  obtain ⟨r₀, r, status, n, hbegin, hend, hfinish⟩ := solveWithin_ok hok
  obtain ⟨-, r₀', rᵢ, r₁, hbegin', hperf, hprep, -⟩ := h.reached
  obtain rfl := hbegin.unique hbegin'
  let FromPass (r : Run α s nus) : Prop :=
    ∃ j b, sv.Makes p g clock budget j b ∧ r.workspace.From p b
  -- an iteration keeps policy and figures or makes the pass they are from
  have hlater {j : Nat} {r : Run α s nus} (hle : i ≤ j)
      (hperf : r₀.Performs sv.config clock budget j r) :
      r.KeepsPolicy (r.iterate sv.config j).run ∧ (∃ failed, r.refresh j = .error failed) ∨
        FromPass (r.iterate sv.config j).run := by
    have hcons := hbegin.consistent_of_reaches hperf.reached
    rcases (Run.iterate_cases sv.config r j).source hcons with
      ⟨hprep, hk⟩ | ⟨r₁, policy, failure, hprep, hback, -⟩ | ⟨r₁, hprep, hfrom⟩
    · exact .inl ⟨hk, hprep⟩
    · exact absurd hback (h.passes hle hbegin hperf hprep)
    · exact .inr ⟨j, r₁.pass, ⟨r₀, r, r₁, hbegin, hperf, hprep, rfl⟩, hfrom⟩
  have hfirst : FromPass (rᵢ.iterate sv.config i).run := by
    rcases hlater (Nat.le_refl i) hperf with ⟨-, failed, hfailed⟩ | hfrom
    · rw [hprep] at hfailed
      cases hfailed
    · exact hfrom
  have hstep {j : Nat} {r : Run α s nus} (hlt : i < j)
      (hperf : r₀.Performs sv.config clock budget j r) (hfrom : FromPass r) :
      FromPass (r.iterate sv.config j).run := by
    rcases hlater (Nat.le_of_lt hlt) hperf with ⟨hk, -⟩ | hfrom'
    · obtain ⟨j', b, hmakes, hb⟩ := hfrom
      exact ⟨j', b, hmakes, hk.from hb⟩
    · exact hfrom'
  obtain ⟨j, b, hmakes, hfrom⟩ := hend.after hstep hperf hfirst
  rw [hfinish]
  exact ⟨r.settle.workspace, j, b, rfl, hmakes, r.keepsPolicy_settle.from hfrom⟩

end Solver

end Shooting
