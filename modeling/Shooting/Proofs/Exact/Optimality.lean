import Shooting.Proofs.Exact.Line
import Shooting.Proofs.Exact.Quadratic

/-!
# Optimality of the policy

What a backward pass finds is the minimum of the quadratic model: no displacements that close all
gaps cost less than the policy promises, and those that cost as much follow the policy at every
stage (`backward_minimizes`).

A full step leaves no gap open, so all that displacements can cost beyond the promise is a positive
form of the deviations of their controls (`Policy.Solves.excess_full`).
-/

namespace Shooting

open Matrix

variable {s : StateSpace} {ndx nu : ℕ} {nus : List ℕ}

/-! ## Displacements that follow a policy -/

/-- The displacements that follow a policy and the linear dynamics from a prediction for the first
state on. -/
noncomputable def Policy.roll (a : ℝ) : {nus : List ℕ} → (predicted : Vec ℝ s.ndx) →
    Expansions ℝ s nus → Gaps ℝ s nus → Policy ℝ s.ndx nus → Displacements ℝ s nus
  | _, predicted, .last _, .last f, .last _ => .last (predicted + f.scale a)
  | _, predicted, .stage e es, .stage f fs, .stage p ps =>
    let dx := predicted + f.scale a
    let du := -p.gains.feedforward.scale a - p.gains.feedback * dx
    .stage ⟨dx, du⟩ (roll a (e.fx * dx + e.fu * du) es fs ps)

/-- **There is one way to follow a policy.** -/
theorem Displacements.obeys_and_follows_iff (a : ℝ) : ∀ {nus : List ℕ} {predicted : Vec ℝ s.ndx}
    {es : Expansions ℝ s nus} {fs : Gaps ℝ s nus} {ps : Policy ℝ s.ndx nus}
    {ds : Displacements ℝ s nus},
    ds.Obeys a predicted es fs ∧ ds.Follows a ps ↔ ds = Policy.roll a predicted es fs ps
  | _, _, .last _, .last _, .last _, .last _ => by
    simp [Obeys, Follows, Policy.roll]
  | _, predicted, .stage e es, .stage f fs, .stage p ps, .stage ⟨dx, du⟩ ds => by
    constructor
    · rintro ⟨⟨hstate, hobeys⟩, hcontrol, hfollows⟩
      dsimp only at hstate hcontrol hobeys
      subst hstate hcontrol
      exact congrArg (Horizon.stage _) ((obeys_and_follows_iff a).mp ⟨hobeys, hfollows⟩)
    · intro h
      obtain ⟨hδ, hds⟩ := Horizon.stage.inj h
      obtain ⟨rfl, rfl⟩ := Displacement.mk.inj hδ
      obtain ⟨hobeys, hfollows⟩ := (obeys_and_follows_iff a).mpr hds
      exact ⟨⟨rfl, hobeys⟩, rfl, hfollows⟩

/-! ## The minimum -/

/-- **Beyond the promise for a full step, deviations cost.** -/
theorem Policy.Solves.excess_full {d : Damping ℝ} {feasible : Bool} : ∀ {nus : List ℕ}
    {ps : Policy ℝ s.ndx nus} {es : Expansions ℝ s nus} {gaps : Gaps ℝ s nus},
    Policy.Solves d feasible ps es gaps → Expansions.IsSymmetric es →
    ∀ (fs : Gaps ℝ s nus) (ds : Displacements ℝ s nus),
      0 ≤ ps.excess 1 fs ds ∧ (ps.excess 1 fs ds = 0 ↔ ds.Follows 1 ps)
  | _, .last v, .last _, .last _, _, _, .last f, .last dx => by
    simp [Policy.excess, Displacements.Follows]
  | _, .stage p ps, .stage e es, .stage _ gaps, h, hsymm, .stage f fs, .stage δ ds => by
    have hpositive :=
      h.1.isPositive_quu hsymm.1.luu (Policy.Solves.isSymmetric_head h.2 hsymm.2)
    have hform := hpositive.dot_mul_nonneg (p.deviation 1 δ)
    obtain ⟨hrest, hfollows⟩ := excess_full h.2 hsymm.2 fs ds
    have hsum : Policy.excess 1 (.stage p ps) (.stage f fs) (.stage δ ds : Displacements ℝ s _) =
        (p.deviation 1 δ).dot (p.q.quu * p.deviation 1 δ) / 2 + Policy.excess 1 ps fs ds := by
      rw [Policy.excess]
      ring
    rw [hsum]
    refine ⟨by positivity, ?_⟩
    rw [add_eq_zero_iff_of_nonneg (by positivity) hrest, hfollows, div_eq_zero_iff,
      hpositive.dot_mul_eq_zero_iff, StagePolicy.deviation_eq_zero_iff]
    simp [Displacements.Follows]

/-- The policy `ps` is the one minimum of the quadratic model, which is `least`, among displacements
that close the gaps `fs`. -/
structure Policy.Minimizes (ps : Policy ℝ s.ndx nus) (d : Damping ℝ) (es : Expansions ℝ s nus)
    (fs : Gaps ℝ s nus) (least : ℝ) : Prop where
  /-- The policy can be followed, in one way. -/
  attained : ∃! ds : Displacements ℝ s nus, ds.Obeys 1 0 es fs ∧ ds.Follows 1 ps
  /-- Nothing costs less. -/
  least_le : ∀ {ds : Displacements ℝ s nus}, ds.Obeys 1 0 es fs →
    least ≤ ds.change es + ds.penalty d
  /-- Nothing else costs as little. -/
  eq_least_iff : ∀ {ds : Displacements ℝ s nus}, ds.Obeys 1 0 es fs →
    (ds.change es + ds.penalty d = least ↔ ds.Follows 1 ps)

namespace Solver

/-- **What a backward pass finds minimizes the quadratic model**, whatever the regularization, and
the least value is the opposite of what a full step is expected to gain. -/
theorem backward_minimizes {d : Damping ℝ} {feasible : Bool} {stages : Stages ℝ s nus}
    {gaps : Gaps ℝ s nus} {old policy : Policy ℝ s.ndx nus}
    (hsymm : stages.storedExpansions.IsSymmetric)
    (hback : backward d feasible stages gaps old = (policy, none)) :
    let e := ExpectedImprovement.ofPolicy policy gaps feasible
    policy.Minimizes d stages.storedExpansions (gaps.counted feasible)
      (-(e.first + e.second / 2)) := by
  intro e
  have hsolves := backward_solves hback
  have hpromise : Policy.promise 1 policy (gaps.counted feasible) = e.first + e.second / 2 := by
    rw [← ExpectedImprovement.reduction_ofPolicy]
    show e.reduction 1 = _
    unfold ExpectedImprovement.reduction
    ring
  have hcost {ds : Displacements ℝ s nus}
      (hobeys : ds.Obeys 1 0 stages.storedExpansions (gaps.counted feasible)) :
      ds.change stages.storedExpansions + ds.penalty d =
        -(e.first + e.second / 2) + policy.excess 1 (gaps.counted feasible) ds := by
    rw [hsolves.counted.change_eq 1 hsymm hobeys, hpromise, ValueModel.at_zero]
    ring
  refine ⟨?_, ?_, ?_⟩
  · refine ⟨_, (Displacements.obeys_and_follows_iff 1).mpr rfl, ?_⟩
    intro ds hds
    exact (Displacements.obeys_and_follows_iff 1).mp hds
  · intro ds hobeys
    have hexcess := (hsolves.excess_full hsymm (gaps.counted feasible) ds).1
    rw [hcost hobeys]
    linarith
  · intro ds hobeys
    rw [hcost hobeys, add_eq_left, (hsolves.excess_full hsymm _ ds).2]

/-- A pass along a path with two gaps. -/
theorem backward_minimizes_push :
    let stages := (Problem.push ℝ).stages.expand
      (.stage ⟨.replicate 1 1, 0⟩ (.last (.replicate 1 2)))
    let gaps : Gaps ℝ (.euclidean 1) [1] := .stage (.replicate 1 3) (.last (.replicate 1 4))
    let old : Policy ℝ 1 [1] := .stage ⟨⟨0, 0, 0, 0, 0⟩, ⟨0, 0⟩, ⟨0, 0⟩⟩ (.last ⟨0, 0⟩)
    stages.storedExpansions.IsSymmetric ∧
      ∃ policy, backward ⟨1, 1⟩ false stages gaps old = (policy, none) ∧
        policy.Minimizes ⟨1, 1⟩ stages.storedExpansions gaps
          (-((ExpectedImprovement.ofPolicy policy gaps false).first +
            (ExpectedImprovement.ofPolicy policy gaps false).second / 2)) := by
  intro stages gaps old
  have hexpansions : stages.storedExpansions = (Problem.push ℝ).stages.models.expansions
      (.stage ⟨.replicate 1 1, 0⟩ (.last (.replicate 1 2))) := Stages.storedExpansions_expand _ _
  have hsymm : stages.storedExpansions.IsSymmetric := by
    rw [hexpansions]
    exact Problem.isSymmetric_push.expansions _
  obtain ⟨policy, hsolves⟩ := Problem.exists_solves_push (d := ⟨1, 1⟩) zero_le_one zero_le_one false
    (.stage ⟨.replicate 1 1, 0⟩ (.last (.replicate 1 2))) gaps
  rw [← hexpansions] at hsolves
  have hback := backward_of_solves old hsolves
  exact ⟨hsymm, policy, hback, backward_minimizes hsymm hback⟩

end Solver

end Shooting
