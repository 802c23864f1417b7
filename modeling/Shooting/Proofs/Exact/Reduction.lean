import Shooting.Proofs.Exact.Lqr
import Shooting.Proofs.Exact.Optimality
import Shooting.Proofs.Exact.Solve
import Shooting.Proofs.Exact.StateSpace
import Shooting.Proofs.Solver.Consistency

/-!
# Expected and actual reduction of linear-quadratic problems

Where dynamics are linear and costs are quadratic, the model along a path is the problem itself, and
so nothing but two things can come between what a policy promises for a step and what the step
gains: the regularization, which the promise takes for a cost, and gaps that a partial step leaves
open (`reduction_exact`).

A candidate of a line search follows the policy and obeys the linear dynamics
(`tryStepFrom_displaces`), its cost is that of its path, and the rest is `Policy.Solves.change_eq`
and `Lqrs.totalCost_evaluations`.
-/

namespace Shooting

open Matrix

variable {s : StateSpace} {nx : ℕ} {nus : List ℕ}

/-! ## Candidates -/

/-- How far the state of a candidate is from that of the path: the part of the gap that is closed
comes on top of what the prediction has moved by. -/
theorem diff_trialState {length : ℝ} {closing : Bool} {predicted before x f : Vec ℝ nx}
    (hgap : f = before - x) (hclose : closing = true → length = 1 ∨ f = 0) :
    (StateSpace.euclidean nx).diff x
        (trialState (s := .euclidean nx) length closing predicted f) =
      (StateSpace.euclidean nx).diff before predicted + f.scale length := by
  unfold trialState
  split
  next hclosing =>
    have hclosed : f.scale length = f := by
      rcases hclose hclosing with rfl | rfl <;> ext i <;> simp
    ext i
    rw [hclosed, hgap]
    simp [StateSpace.diff]
  next =>
    ext i
    simp only [StateSpace.diff, StateSpace.integrate, hgap, Vec.get_add, Vec.get_sub, Vec.get_scale]
    ring

/-- **A candidate follows the policy and the linear dynamics.** What its first state is predicted
to be moves what is predicted `before`, along the path itself. -/
theorem tryStepFrom_displaces {length : ℝ} {closing : Bool} : ∀ {nus : List ℕ} {ms : Lqrs nx nus}
    {predicted before : Vec ℝ nx} {cost c : ℝ} {stages stages' : Stages ℝ (.euclidean nx) nus}
    {path path' : Path ℝ (.euclidean nx) nus} {gaps : Gaps ℝ (.euclidean nx) nus}
    {policy : Policy ℝ nx nus}, stages.models = Lqrs.models ms →
    gaps.toList id id = List.zipWith (StateSpace.euclidean nx).diff path.stateList
      (before :: ((Lqrs.models ms).evaluations path).running Evaluation.next) →
    (closing = true → length = 1 ∨ ∀ f ∈ gaps.toList id id, f = 0) →
    tryStepFrom (s := .euclidean nx) length closing predicted cost stages path gaps policy =
      (stages', some (c, path')) →
    (path.displacementsTo path').Obeys length ((StateSpace.euclidean nx).diff before predicted)
        ((Lqrs.models ms).expansions path) gaps ∧
      (path.displacementsTo path').Follows length policy
  | _, .last m, predicted, before, _, _, .last st, _, .last x, .last x', .last f, .last v,
      _, hgaps, hclose, htry => by
    obtain ⟨hpath, -, -⟩ := tryStepFrom_last_some htry
    obtain rfl := Horizon.last.inj hpath
    have hgap : f = before - x := (List.cons.inj hgaps).1
    refine ⟨diff_trialState hgap fun h => (hclose h).imp_right fun hzero => ?_, trivial⟩
    exact hzero f (List.mem_singleton_self f)
  | _, .stage m ms, predicted, before, cost, c, .stage st rest, stages', .stage k ks, path',
      .stage f fs, .stage p ps, hmodels, hgaps, hclose, htry => by
    obtain ⟨hmodel, hmodels⟩ : st.model = .lqr m ∧ Stages.models rest = Lqrs.models ms :=
      Horizon.stage.inj hmodels
    obtain ⟨hgap, hgaps⟩ := List.cons.inj hgaps
    obtain ⟨rest', ks', rfl, -, hrest⟩ := tryStepFrom_stage_some htry
    have hnow : closing = true → length = 1 ∨ f = 0 := fun h =>
      (hclose h).imp_right fun hzero => hzero f List.mem_cons_self
    have hlater : closing = true → length = 1 ∨ ∀ g ∈ Horizon.toList id id fs, g = 0 := fun h =>
      (hclose h).imp_right fun hzero g hg => hzero g (List.mem_cons_of_mem _ hg)
    obtain ⟨hobeys, hfollows⟩ := tryStepFrom_displaces hmodels hgaps hlater hrest
    rw [hmodel] at hobeys
    let k' : Knot ℝ (.euclidean nx) _ := trialKnot length closing predicted k f p
    let δ : Displacement ℝ nx _ := ⟨k'.state - k.state, k'.control - k.control⟩
    let e := m.expand k.state (some k.control)
    have hcontrol : δ.control = -p.gains.feedforward.scale length - p.gains.feedback * δ.state := by
      show k.control - _ - p.gains.feedback * δ.state - k.control = _
      ext i
      simp only [Vec.get_sub, Vec.get_neg]
      ring
    have hmoved : (StateSpace.euclidean nx).diff (m.evaluate k.state (some k.control)).next
        (m.evaluate k'.state (some k'.control)).next = e.fx * δ.state + e.fu * δ.control := by
      have hnext := m.next_evaluate k.state k.control δ
      rw [Vec.add_sub_self, Vec.add_sub_self] at hnext
      show _ - _ = _
      rw [hnext, Vec.add_sub_left]
    have hlinear : Displacements.Obeys (s := .euclidean nx) length
        (e.fx * δ.state + e.fu * δ.control) ((Lqrs.models ms).expansions ks) fs
        (Path.displacementsTo ks ks') := by
      rw [← hmoved]
      exact hobeys
    exact ⟨⟨diff_trialState hgap hnow, hlinear⟩, hcontrol, hfollows⟩

/-! ## The reduction -/

/-- What a workspace of `p` holds that is about to search along its policy: cost and gaps are those
of its path, and the policy is what a backward pass has found along it. -/
structure Workspace.Plans (w : Workspace ℝ s nus) (p : Problem ℝ s nus) : Prop where
  cost : w.cost = p.costAlong w.path
  gaps : w.gaps.toList id id = p.gapsAlong w.path
  expansions : p.stages.storedExpansions = p.stages.models.expansions w.path
  policy : ∃ old, backward w.damping w.feasible p.stages w.gaps old = (w.policy, none)
  expected : w.expected = .ofPolicy w.policy w.gaps w.feasible

/-- **A solve searches with such workspaces only.** -/
theorem Run.plans_planned {p : Problem ℝ s nus} {r : Run ℝ s nus} {policy : Policy ℝ s.ndx nus}
    (h : r.Consistent p) (hexp : r.unexpanded = false) (hback : r.backward = (policy, none)) :
    (r.planned policy).workspace.Plans r.problem where
  cost := h.cost.trans (h.same.costAlong _).symm
  gaps := (h.gaps hexp).trans (h.same.gapsAlong _).symm
  expansions := by
    rw [h.same.models]
    exact h.expanded hexp
  policy := ⟨_, hback⟩
  expected := rfl

/-- What the gaps contribute to the value of the displacements. -/
noncomputable def Policy.coupling : {nus : List ℕ} → Policy ℝ s.ndx nus → Gaps ℝ s nus →
    Displacements ℝ s nus → ℝ
  | _, .last v, .last f, .last dx => f.dot (v.hessian * dx)
  | _, .stage p ps, .stage f fs, .stage δ ds =>
    f.dot (p.value.hessian * δ.state) + coupling ps fs ds

/-- Displacements that follow the policy exceed its promise only by the gaps that stay open. -/
theorem Policy.excess_of_follows (a : ℝ) : ∀ {nus : List ℕ} {ps : Policy ℝ s.ndx nus}
    {ds : Displacements ℝ s nus}, ds.Follows a ps → ∀ fs : Gaps ℝ s nus,
      ps.excess a fs ds = -(1 - a) * ps.coupling fs ds
  | _, .last v, .last dx, _, .last f => rfl
  | _, .stage p ps, .stage δ ds, h, .stage f fs => by
    have hdev : p.deviation a δ = 0 := StagePolicy.deviation_eq_zero_iff.mpr h.1
    rw [Policy.excess, Policy.coupling, excess_of_follows a h.2 fs, hdev]
    simp only [Vec.dot_real, Vec.toFun_zero, dotProduct_zero, zero_dotProduct]
    ring

theorem Policy.coupling_zero : ∀ {nus : List ℕ} (ps : Policy ℝ s.ndx nus)
    (ds : Displacements ℝ s nus), ps.coupling (.replicate (fun _ => 0) 0 nus) ds = 0
  | _, .last v, .last dx => by
    show (0 : Vec ℝ s.ndx).dot _ = 0
    rw [Vec.dot_real, Vec.toFun_zero, zero_dotProduct]
  | _, .stage p ps, .stage δ ds => by
    show (0 : Vec ℝ s.ndx).dot _ + Policy.coupling ps _ ds = 0
    rw [Vec.dot_real, Vec.toFun_zero, zero_dotProduct, zero_add]
    exact coupling_zero ps ds

/-- **What a candidate is on a linear-quadratic problem.** Whatever its length, it is complete, it
follows the policy and the linear dynamics, and it reduces the cost by what is promised, by what the
regularization charges for its displacements and, unless it is a full step, by a part of the
coupling. -/
theorem Workspace.Plans.exists_candidate {ms : Lqrs nx nus} (hsymm : ms.IsSymmetric)
    {p : Problem ℝ (.euclidean nx) nus} (hmodels : p.stages.models = ms.models)
    {w : Workspace ℝ (.euclidean nx) nus} (hplans : w.Plans p)
    (hfeasible : w.feasible = true → ∀ f ∈ w.gaps.toList id id, f = 0) (length : ℝ) :
    ∃ p' cost path', w.tryStep p length = (p', some (cost, path')) ∧
      (w.path.displacementsTo path').Obeys length 0 (ms.models.expansions w.path) w.gaps ∧
      (w.path.displacementsTo path').Follows length w.policy ∧
      w.cost - cost = w.expected.reduction length +
        (1 - length) * w.policy.coupling w.gaps (w.path.displacementsTo path') +
        (w.path.displacementsTo path').penalty w.damping := by
  obtain ⟨p', c, path', hstep⟩ := w.exists_tryStep p length
  have htry := Workspace.tryStepFrom_of_tryStep hstep
  have hgaps := hplans.gaps
  unfold Problem.gapsAlong Problem.predictionsAlong at hgaps
  rw [hmodels] at hgaps
  have hclose : (w.feasible || length == 1) = true →
      length = 1 ∨ ∀ f ∈ w.gaps.toList id id, f = 0 := by
    intro h
    rcases Bool.or_eq_true_iff.mp h with hflag | hlength
    · exact .inr (hfeasible hflag)
    · exact .inl (eq_of_beq hlength)
  obtain ⟨hobeys, hfollows⟩ := tryStepFrom_displaces hmodels hgaps hclose htry
  rw [StateSpace.diff_self] at hobeys
  -- the model and the problem are changed by the same
  obtain ⟨old, hback⟩ := hplans.policy
  have hsolves := (backward_solves hback).counted
  rw [Gaps.counted_eq hfeasible, hplans.expansions, hmodels] at hsolves
  have hmodel := hsolves.change_eq length (hsymm.models.expansions w.path) hobeys
  have hactual : c =
      w.cost + (w.path.displacementsTo path').change (ms.models.expansions w.path) := by
    rw [Workspace.cost_tryStep hstep, hplans.cost]
    unfold Problem.costAlong
    rw [hmodels]
    exact Lqrs.totalCost_evaluations hsymm w.path path'
  have hpromise : w.expected.reduction length = w.policy.promise length w.gaps := by
    rw [← Gaps.counted_eq hfeasible, ← ExpectedImprovement.reduction_ofPolicy, ← hplans.expected]
  refine ⟨p', c, path', hstep, hobeys, hfollows, ?_⟩
  rw [ValueModel.at_zero, Policy.excess_of_follows length hfollows] at hmodel
  rw [hpromise, hactual]
  linarith

namespace Solver

/-- **What a step gains on a linear-quadratic problem.** A candidate of any length is complete, and
it reduces the cost by what is expected, by what the regularization charges for its displacements
and, unless the path is feasible, by a part of the coupling that vanishes for a full step. -/
theorem reduction_exact {ms : Lqrs nx nus} (hsymm : ms.IsSymmetric)
    {p : Problem ℝ (.euclidean nx) nus} (hmodels : p.stages.models = ms.models)
    {w : Workspace ℝ (.euclidean nx) nus} (hplans : w.Plans p)
    (hfeasible : w.feasible = true → ∀ f ∈ w.gaps.toList id id, f = 0) (length : ℝ) :
    ∃ p' cost path', w.tryStep p length = (p', some (cost, path')) ∧
      w.cost - cost - length * (w.expected.first + length * w.expected.second / 2) =
        (if w.feasible then 0
          else (1 - length) * w.policy.coupling w.gaps (w.path.displacementsTo path')) +
        (w.path.displacementsTo path').penalty w.damping := by
  obtain ⟨p', c, path', hstep, -, -, hgain⟩ :=
    hplans.exists_candidate hsymm hmodels hfeasible length
  have hopen : (if w.feasible then 0
      else (1 - length) * w.policy.coupling w.gaps (w.path.displacementsTo path')) =
      (1 - length) * w.policy.coupling w.gaps (w.path.displacementsTo path') := by
    split
    next hflag => rw [Gaps.eq_zero (hfeasible hflag), Policy.coupling_zero, mul_zero]
    next => rfl
  have hexpected : w.expected.reduction length =
      length * (w.expected.first + length * w.expected.second / 2) := by
    unfold ExpectedImprovement.reduction
    ring
  refine ⟨p', c, path', hstep, ?_⟩
  rw [hopen, hgain, hexpected]
  ring

/-- Half a step along a path with two gaps. -/
theorem reduction_exact_push :
    ∃ (ms : Lqrs 1 [1]) (p : Problem ℝ (.euclidean 1) [1]) (w : Workspace ℝ (.euclidean 1) [1]),
      ms.IsSymmetric ∧ p.stages.models = ms.models ∧ w.Plans p ∧ w.feasible = false ∧
        w.gaps.toList id id = p.gapsAlong (.stage ⟨.replicate 1 3, 0⟩ (.last (.replicate 1 5))) ∧
        ∃ p' cost path', w.tryStep p (1 / 2) = (p', some (cost, path')) ∧
          w.cost - cost - 1 / 2 * (w.expected.first + 1 / 2 * w.expected.second / 2) =
            (1 - 1 / 2) * w.policy.coupling w.gaps (w.path.displacementsTo path') +
            (w.path.displacementsTo path').penalty w.damping := by
  let m : Lqr ℝ 1 1 := .driftless (.identity 1) (.identity 1) (.identity 1) (.identity 1)
  let ms : Lqrs 1 [1] := .stage m (.last ⟨1, m⟩)
  let path : Path ℝ (.euclidean 1) [1] := .stage ⟨.replicate 1 3, 0⟩ (.last (.replicate 1 5))
  let p := ((Problem.push ℝ).evaluate path).expand path
  obtain ⟨policy, hsolves⟩ := Problem.exists_solves_push (d := ⟨1, 1⟩) zero_le_one zero_le_one false
    path (p.gaps path)
  let w : Workspace ℝ (.euclidean 1) [1] :=
    ⟨path, p.gaps path, policy, ⟨1, 1⟩, .ofPolicy policy (p.gaps path) false, p.totalCost, false⟩
  have hone : m.lxx.IsSymmetric := Mat.isSymmetric_identity
  have hsymm : ms.IsSymmetric := ⟨⟨hone, hone⟩, hone, hone⟩
  have hmodels : p.stages.models = ms.models := rfl
  have hevaluations : p.stages.storedEvaluations = p.stages.models.evaluations path := rfl
  have hplans : w.Plans p :=
    { cost := Problem.totalCost_eq_costAlong hevaluations
      gaps := Problem.gaps_eq_gapsAlong hevaluations
      expansions := rfl
      policy := ⟨policy, backward_of_solves policy hsolves⟩
      expected := rfl }
  obtain ⟨p', cost, path', hstep, hreduction⟩ := reduction_exact hsymm hmodels hplans nofun (1 / 2)
  exact ⟨ms, p, w, hsymm, hmodels, hplans, rfl, hplans.gaps, p', cost, path', hstep, hreduction⟩

end Solver

end Shooting
