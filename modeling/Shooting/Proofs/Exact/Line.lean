import Shooting.Proofs.Exact.Linear
import Shooting.Proofs.Exact.Policy
import Shooting.Proofs.Exact.Solve

/-!
# Pushing a point along a line

The smallest problems with something to decide: a point on a line is pushed once, where it is costs
half the square of its position, before and after, and the push costs what a weight says. All that a
solve makes of such a problem can be said in numbers: the policy for a push and what is expected of
it (`figures_line`, `gradient_line`, `expected_line`), and the candidate of a full step
(`tryStep_line`). A pass over it gets through if the bend of the value function and the
regularization outweigh what a push earns, and otherwise it fails (`exists_solves_line`,
`backward_line`).
-/

namespace Shooting

/-- The stages of a point on a line that is pushed once, when a push is charged by the weight `luu`
and where the point is by half its square. -/
noncomputable def Models.line (luu : Mat ℝ 1 1) : Models ℝ (.euclidean 1) [1] :=
  let m : Model ℝ (.euclidean 1) 1 :=
    .lqr (.driftless (.identity 1) (.identity 1) (.identity 1) luu)
  .stage m (.last ⟨1, m⟩)

namespace Models

variable {luu : Mat ℝ 1 1} {d : Damping ℝ} {feasible : Bool}

theorem isSymmetric_line (luu : Mat ℝ 1 1) : IsSymmetric (line luu) := by
  have hstage (x : Vec ℝ 1) (u : Option (Vec ℝ 1)) := Model.isSymmetric_lqr
    (.driftless (.identity 1) (.identity 1) (.identity 1) luu) (Mat.isSymmetric_one _)
    (Mat.isSymmetric_one _) x u
  exact ⟨fun x u => hstage x (some u), fun x => (hstage x none).lxx⟩

/-- The policy for a push, in numbers. -/
theorem figures_line {p : StagePolicy ℝ (StateSpace.euclidean 1).ndx 1}
    {v : ValueModel ℝ (StateSpace.euclidean 1).ndx} {path : Path ℝ (.euclidean 1) [1]}
    {gaps : Gaps ℝ (.euclidean 1) [1]}
    (h : Policy.Solves d feasible (.stage p (.last v)) ((line luu).expansions path) gaps) :
    v.hessian.get 0 0 = 1 + d.state ∧
      p.q.quu.get 0 0 = luu.get 0 0 + v.hessian.get 0 0 + d.control ∧
      p.q.quu.get 0 0 * p.gains.feedback.get 0 0 = v.hessian.get 0 0 ∧
      p.q.quu.get 0 0 * p.gains.feedforward.get 0 = p.q.qu.get 0 := by
  cases path with | stage k ks =>
  cases ks with | last x =>
  cases gaps with | stage f fs =>
  cases fs with | last f' =>
  obtain ⟨hstage, hlast⟩ := h
  let m : Lqr ℝ 1 1 := .driftless (.identity 1) (.identity 1) (.identity 1) luu
  have hv : v.hessian = m.lxx.addDiagonal d.state := by
    rw [hlast.value]
    exact ValueModel.hessian_across _ _ _ _
  have hq : p.q = .ofExpansion (m.expand k.state (some k.control)) v d.control := hstage.q
  refine ⟨?_, ?_, ?_, ?_⟩
  · simp [hv, m, Lqr.driftless]
  · simp [hq, ActionValue.ofExpansion, m, Lqr.expand, Lqr.driftless]
  · rw [← Mat.get_mul_one, hstage.feedback (Mat.isSymmetric_one _) (Mat.isSymmetric_one _), hq]
    simp [ActionValue.ofExpansion, m, Lqr.expand, Lqr.driftless]
  · rw [← Mat.get_mulVec_one,
      (hstage.feedforward (Mat.isSymmetric_one _) (Mat.isSymmetric_one _)).1]

/-- Along a feasible path the control gradient of a push is that of the costs. -/
theorem gradient_line {p : StagePolicy ℝ (StateSpace.euclidean 1).ndx 1}
    {v : ValueModel ℝ (StateSpace.euclidean 1).ndx} {k : Knot ℝ (.euclidean 1) 1} {x : Vec ℝ 1}
    {gaps : Gaps ℝ (.euclidean 1) [1]} (h : Policy.Solves d true (.stage p (.last v))
      ((line luu).expansions (.stage k (.last x))) gaps) :
    p.q.qu.get 0 = luu.get 0 0 * k.control.get 0 + x.get 0 := by
  cases gaps with | stage f fs =>
  cases fs with | last f' =>
  obtain ⟨hstage, hlast⟩ := h
  let m : Lqr ℝ 1 1 := .driftless (.identity 1) (.identity 1) (.identity 1) luu
  have hv : v = .across (m.expand x none).lx m.lxx d.state none := hlast.value
  have hq : p.q = .ofExpansion (m.expand k.state (some k.control)) v d.control := hstage.q
  simp [hq, hv, ActionValue.ofExpansion, ValueModel.across, m, Lqr.expand, Lqr.driftless]

/-- What is expected of one push. -/
theorem expected_line (p : StagePolicy ℝ (StateSpace.euclidean 1).ndx 1)
    (v : ValueModel ℝ (StateSpace.euclidean 1).ndx) (feasible : Bool) :
    ∀ gaps : Gaps ℝ (.euclidean 1) [1],
    let expected := ExpectedImprovement.ofPolicy (.stage p (.last v)) gaps feasible
    expected.stop = p.q.qu.get 0 * p.q.qu.get 0 ∧
      (feasible = true → expected.first = p.q.qu.get 0 * p.gains.feedforward.get 0 ∧
        expected.second = -(p.gains.feedforward.get 0 *
          (p.q.quu.get 0 0 * p.gains.feedforward.get 0)))
  | .stage _ (.last _) => by
    rw [← Vec.dot_one, ← Vec.dot_one, ← Mat.get_mulVec_one, ← Vec.dot_one]
    cases feasible with
    | true => exact ⟨zero_add _, fun _ => ⟨zero_add _, zero_sub _⟩⟩
    | false => exact ⟨zero_add _, nofun⟩

/-- A pass over a push gets through if the value function and the regularization outweigh the
charge. -/
theorem exists_solves_line (hpos : 0 < luu.get 0 0 + (1 + d.state) + d.control) (feasible : Bool) :
    ∀ (path : Path ℝ (.euclidean 1) [1]) (gaps : Gaps ℝ (.euclidean 1) [1]),
    ∃ policy, Policy.Solves d feasible policy ((line luu).expansions path) gaps
  | .stage k (.last x), .stage f (.last g) => by
    let m : Lqr ℝ 1 1 := .driftless (.identity 1) (.identity 1) (.identity 1) luu
    let e := m.expand k.state (some k.control)
    let v := ValueModel.across (m.expand x none).lx m.lxx d.state (effectiveGap feasible g)
    have hv : v.hessian = m.lxx.addDiagonal d.state := ValueModel.hessian_across _ _ _ _
    have hquu : (ActionValue.ofExpansion e v d.control).quu.IsPositive := by
      refine Mat.isPositive_one_iff.mpr ?_
      simpa [ActionValue.ofExpansion, e, hv, m, Lqr.expand, Lqr.driftless] using hpos
    obtain ⟨p, hp⟩ := StagePolicy.exists_solves (e := e) (Mat.isSymmetric_one _)
      (Mat.isSymmetric_one _) hquu feasible f
    exact ⟨.stage p (.last v), hp, rfl, Vec.isFinite_real _⟩

/-- Otherwise it fails at the push, and leaves the gains there. -/
theorem backward_line {stages : Stages ℝ (.euclidean 1) [1]} {path : Path ℝ (.euclidean 1) [1]}
    (hexpansions : stages.storedExpansions = (line luu).expansions path)
    (hneg : luu.get 0 0 + (1 + d.state) + d.control ≤ 0) (feasible : Bool)
    (gaps : Gaps ℝ (.euclidean 1) [1]) (p : StagePolicy ℝ (StateSpace.euclidean 1).ndx 1)
    (v : ValueModel ℝ (StateSpace.euclidean 1).ndx) :
    ∃ p' v', backward d feasible stages gaps (.stage p (.last v)) =
        (.stage p' (.last v'), some (.indefinite 0)) ∧
      p'.gains = p.gains ∧ v'.hessian.get 0 0 = 1 + d.state := by
  cases stages with | stage st rest =>
  cases rest with | last st' =>
  cases gaps with | stage f fs =>
  cases fs with | last f' =>
  cases path with | stage k ks =>
  cases ks with | last x =>
  let m : Lqr ℝ 1 1 := .driftless (.identity 1) (.identity 1) (.identity 1) luu
  obtain ⟨hstage, hlast⟩ := Horizon.stage.inj hexpansions
  replace hstage : st.data.expansion = m.expand k.state (some k.control) := hstage
  have hlxx : st'.data.expansion.lxx = m.lxx :=
    congrArg (fun e : (nu : ℕ) × Expansion ℝ 1 nu => e.2.lxx) (Horizon.last.inj hlast)
  let v' := ValueModel.across st'.data.expansion.lx st'.data.expansion.lxx d.state
    (effectiveGap feasible f')
  have hv' : v'.hessian.get 0 0 = 1 + d.state := by
    rw [ValueModel.hessian_across, hlxx]
    simp [m, Lqr.driftless]
  have hafter : Policy.Solves d feasible (.last v') (Stages.storedExpansions (.last st'))
      (.last f') := ⟨rfl, Vec.isFinite_real _⟩
  have hnone : (ActionValue.ofExpansion st.data.expansion v' d.control).gains? = none := by
    refine ActionValue.gains?_eq_none (Mat.isSymmetric_one _) ?_
    rw [Mat.isPositive_one_iff, not_lt, hstage]
    simpa [ActionValue.ofExpansion, hv', m, Lqr.expand, Lqr.driftless] using hneg
  exact ⟨_, v', backwardFrom_indefinite 0 f p (.last v) hafter hnone, rfl, hv'⟩

end Models

namespace Problem

theorem isSymmetric_push : Models.IsSymmetric (push ℝ).stages.models := Models.isSymmetric_line _

/-- A push has a policy along every path. -/
theorem exists_solves_push {d : Damping ℝ} (hstate : 0 ≤ d.state) (hcontrol : 0 ≤ d.control)
    (feasible : Bool) (path : Path ℝ (.euclidean 1) [1]) (gaps : Gaps ℝ (.euclidean 1) [1]) :
    ∃ policy, Policy.Solves d feasible policy ((push ℝ).stages.models.expansions path) gaps := by
  refine Models.exists_solves_line ?_ feasible path gaps
  rw [Mat.get_identity, if_pos rfl]
  linarith

end Problem

/-! ## Paths -/

/-- A push of a point that is at `a`, charged by the weight `luu`. -/
noncomputable def Problem.pushFrom (luu : Mat ℝ 1 1) (a : ℝ) : Problem ℝ (.euclidean 1) [1] :=
  let m : Model ℝ (.euclidean 1) 1 :=
    .lqr (.driftless (.identity 1) (.identity 1) (.identity 1) luu)
  ⟨.replicate 1 a, .stage ⟨m, .zero⟩ (.last ⟨1, m, .zero⟩)⟩

/-- The path of a point that rests at `a` and is not pushed. -/
noncomputable def Path.resting (a : ℝ) : Path ℝ (.euclidean 1) [1] :=
  .stage ⟨.replicate 1 a, 0⟩ (.last (.replicate 1 a))

namespace Problem

/-- Where a push leads to. -/
theorem next_line (luu : Mat ℝ 1 1) (x u : Vec ℝ 1) :
    ((Lqr.driftless (.identity 1) (.identity 1) (.identity 1) luu).evaluate x (some u)).next =
      x + u := by
  ext i
  rw [Fin.fin_one_eq_zero i]
  simp [Lqr.evaluate, Lqr.driftless]

theorem isRollout_resting (luu : Mat ℝ 1 1) (a : ℝ) : (pushFrom luu a).IsRollout (.resting a) := by
  have hrests := next_line luu (.replicate 1 a) 0
  have hzero : (Vec.replicate 1 a + 0 : Vec ℝ 1) = .replicate 1 a := by
    ext i
    simp
  rw [hzero] at hrests
  exact congrArg (fun x => [Vec.replicate 1 a, x]) hrests.symm

/-- The cost of a push. -/
theorem costAlong_line {p : Problem ℝ (.euclidean 1) [1]} {luu : Mat ℝ 1 1}
    (hmodels : p.stages.models = .line luu) (k : Knot ℝ (.euclidean 1) 1) (x : Vec ℝ 1) :
    p.costAlong (.stage k (.last x)) =
      (k.state.get 0 * k.state.get 0 + luu.get 0 0 * (k.control.get 0 * k.control.get 0) +
        x.get 0 * x.get 0) / 2 := by
  unfold costAlong
  rw [hmodels]
  let m : Lqr ℝ 1 1 := .driftless (.identity 1) (.identity 1) (.identity 1) luu
  show 0 + (m.evaluate k.state (some k.control)).cost + (m.evaluate x none).cost = _
  simp [m, Lqr.evaluate, Lqr.stateCost, Lqr.driftless]
  ring

end Problem

/-- **A full step pushes as the policy says**, if the path counts as feasible, and this is what it
costs. -/
theorem Workspace.tryStep_line {w : Workspace ℝ (.euclidean 1) [1]}
    {p : Problem ℝ (.euclidean 1) [1]} {luu : Mat ℝ 1 1} (hmodels : p.stages.models = .line luu)
    (hflag : w.feasible = true) {k : Knot ℝ (.euclidean 1) 1} {x : Vec ℝ 1}
    (hpath : w.path = .stage k (.last x)) {stage : StagePolicy ℝ (StateSpace.euclidean 1).ndx 1}
    {v : ValueModel ℝ (StateSpace.euclidean 1).ndx} (hpolicy : w.policy = .stage stage (.last v)) :
    let x := p.start.get 0
    let u := k.control.get 0 - stage.gains.feedforward.get 0 -
      stage.gains.feedback.get 0 0 * (x - k.state.get 0)
    ∃ p' cost path', w.tryStep p 1 = (p', some (cost, path')) ∧
      cost = (x * x + luu.get 0 0 * (u * u) + (x + u) * (x + u)) / 2 := by
  intro x₀ u₀
  let u := k.control - stage.gains.feedforward - stage.gains.feedback * (p.start - k.state)
  let path' : Path ℝ (.euclidean 1) [1] := .stage ⟨p.start, u⟩ (.last (p.start + u))
  obtain ⟨p', c, path₁, hstep⟩ := w.exists_tryStep p 1
  obtain rfl : path₁ = path' := by
    have htry := tryStepFrom_of_tryStep hstep
    rw [hflag, hpath, hpolicy] at htry
    generalize p.stages = stages, w.gaps = gaps at hmodels htry
    cases stages with | stage st rest =>
    cases rest with | last st' =>
    cases gaps with | stage f fs =>
    cases fs with | last f' =>
    obtain ⟨hmodel, -⟩ := Horizon.stage.inj hmodels
    obtain ⟨rest', ks', rfl, -, hrest⟩ := tryStepFrom_stage_some htry
    cases ks' with | last x' =>
    obtain ⟨hx', -, -⟩ := tryStepFrom_last_some hrest
    have hscale : stage.gains.feedforward.scale 1 = stage.gains.feedforward := by
      ext i
      rw [Vec.get_scale, mul_one]
    have hknot : trialKnot 1 true p.start k f stage = ⟨p.start, u⟩ := by
      show Knot.mk p.start (k.control - stage.gains.feedforward.scale 1 - _) = _
      rw [hscale]
      rfl
    have hnext : x' = (st.model.evaluate p.start (some u)).next := by
      rw [Bool.true_or, hknot] at hx'
      exact Horizon.last.inj hx'
    replace hmodel : st.model = .lqr _ := hmodel
    rw [hmodel] at hnext
    rw [Bool.true_or, hknot, hnext]
    exact congrArg (fun x => Horizon.stage _ (Horizon.last x)) (Problem.next_line luu p.start u)
  have hu : u.get 0 = u₀ := by simp [u, u₀, x₀]
  have hcost := Problem.costAlong_line hmodels ⟨p.start, u⟩ (p.start + u)
  rw [Vec.get_add, hu] at hcost
  exact ⟨p', c, path', hstep, (cost_tryStep hstep).trans hcost⟩

end Shooting
