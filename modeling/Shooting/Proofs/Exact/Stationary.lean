import Shooting.Proofs.Exact.Line
import Shooting.Proofs.Solver.AtOnce
import Shooting.Proofs.Solver.Feasibility

/-!
# Convergence and regularization

Both figures for which a solve ends as converged, the squared control gradients and the expected
improvement, come from a backward pass that is regularized. At a stationary path, where the control
gradients vanish, it makes no difference: the value gradients are then the same whatever is added to
the Hessians (`Policy.Solves.isStationary`), and a solve that converges at once to such a path does
so with every regularization (`converges_at_once_of_stationary`).

Elsewhere it does. The expected improvement is a form of the control gradients in the inverse of
`Quu`, which the regularization makes as small as one likes, so that a large one ends a solve along
a path which a small one improves (`convergence_depends_on_regularization`).
-/

namespace Shooting

open Matrix

variable {s : StateSpace} {ndx nu : ℕ} {nus : List ℕ}

/-- The control gradients of the model vanish at every stage. -/
def Policy.IsStationary : {nus : List ℕ} → Policy ℝ ndx nus → Prop
  | _, .last _ => True
  | _, .stage p ps => p.q.qu = 0 ∧ IsStationary ps

namespace ExpectedImprovement

theorem stop_foldl : ∀ {nus : List ℕ} (ps : Policy ℝ ndx nus) {i : ExpectedImprovement ℝ},
    0 ≤ i.stop → ((ps.foldl addStage i).stop = 0 ↔ i.stop = 0 ∧ ps.IsStationary)
  | _, .last _, i, _ => by
    show i.stop = 0 ↔ i.stop = 0 ∧ True
    rw [and_true]
  | _, .stage p ps, i, hi => by
    have hsum : (i.addStage p).stop = i.stop + p.q.qu.normSq := rfl
    have hq := p.q.qu.normSq_nonneg
    show (ps.foldl addStage (i.addStage p)).stop = 0 ↔
      i.stop = 0 ∧ p.q.qu = 0 ∧ Policy.IsStationary ps
    rw [stop_foldl ps (by rw [hsum]; exact add_nonneg hi hq), hsum,
      add_eq_zero_iff_of_nonneg hi hq, Vec.normSq_eq_zero_iff, and_assoc]

/-- **The measure of convergence is zero exactly where the path is stationary.** -/
theorem stop_eq_zero_iff {ps : Policy ℝ s.ndx nus} {gaps : Gaps ℝ s nus} :
    (ofPolicy ps gaps true).stop = 0 ↔ ps.IsStationary :=
  (stop_foldl ps le_rfl).trans (and_iff_right rfl)

theorem first_foldl : ∀ {nus : List ℕ} {ps : Policy ℝ ndx nus}, ps.IsStationary →
    ∀ i : ExpectedImprovement ℝ, (ps.foldl addStage i).first = i.first
  | _, .last _, _, _ => rfl
  | _, .stage p ps, h, i => by
    show (Horizon.foldl addStage (i.addStage p) ps).first = i.first
    rw [first_foldl h.2]
    show i.first + p.q.qu.dot p.gains.feedforward = i.first
    rw [h.1, Vec.dot_real, Vec.toFun_zero, zero_dotProduct, add_zero]

/-- Where the path is stationary nothing is expected. -/
theorem first_of_isStationary {ps : Policy ℝ s.ndx nus} (h : ps.IsStationary)
    (gaps : Gaps ℝ s nus) : (ofPolicy ps gaps true).first = 0 :=
  first_foldl h ⟨0, 0, 0⟩

end ExpectedImprovement

/-- **Along a stationary path all passes agree**, however they are regularized: they find the same
value gradients, and no control gradient. -/
theorem Policy.Solves.isStationary {d d' : Damping ℝ} : ∀ {nus : List ℕ}
    {ps ps' : Policy ℝ s.ndx nus} {es : Expansions ℝ s nus} {fs fs' : Gaps ℝ s nus},
    Policy.Solves d true ps es fs → Policy.Solves d' true ps' es fs' → ps.IsStationary →
    ps'.IsStationary ∧ (Policy.head ps').gradient = (Policy.head ps).gradient
  | _, .last v, .last v', .last e, .last _, .last _, h, h', _ => by
    refine ⟨trivial, ?_⟩
    show v'.gradient = v.gradient
    rw [h.value, h'.value]
    rfl
  | _, .stage p ps, .stage p' ps', .stage e es, .stage _ _, .stage _ _, h, h', hstationary => by
    obtain ⟨hrest, hnext⟩ := isStationary h.2 h'.2 hstationary.2
    have hqu : p'.q.qu = p.q.qu := by
      rw [h.1.q, h'.1.q]
      show e.lu + e.fu.transpose * _ = e.lu + e.fu.transpose * _
      rw [hnext]
    have hqx : p'.q.qx = p.q.qx := by
      rw [h.1.q, h'.1.q]
      show e.lx + e.fx.transpose * _ = e.lx + e.fx.transpose * _
      rw [hnext]
    refine ⟨⟨hqu.trans hstationary.1, hrest⟩, ?_⟩
    show p'.value.gradient = p.value.gradient
    rw [h.1.value, h'.1.value]
    show p'.q.qx - p'.gains.feedback.transpose * p'.q.qu =
      p.q.qx - p.gains.feedback.transpose * p.q.qu
    rw [hqu, hqx, hstationary.1, Mat.mul_zeroVec, Mat.mul_zeroVec]

/-! ## An example -/

/-- A path to start from, declared feasible, with a regularization. -/
def Path.guess (path : Path ℝ s nus) (regularization : ℝ) : Guess ℝ :=
  ⟨some path.toTrajectory.states, some path.toTrajectory.controls, true, some regularization⟩

/-- The first pass of a solve of a point at `b` that is told that the point rests at `a`. -/
theorem Solver.exists_firstPass_declared (luu : Mat ℝ 1 1) (a b : ℝ) {r : ℝ} (hlower : 1e-9 ≤ r)
    (hupper : r ≤ 1e9) (hpos : 0 < luu.get 0 0 + (1 + r) + r) :
    ∃ r₁ policy, (Solver.new .standard .none).FirstPass (.pushFrom luu b)
        ((Path.resting a).guess r) r₁ policy ∧
      r₁.workspace.path = .resting a ∧ r₁.workspace.feasible = true ∧
      r₁.workspace.damping = ⟨r, r⟩ := by
  have hreg : (Config.standard : Config ℝ).initialRegularization (some r) = .ok r := by
    show Except.ok (Scalar.clamp r 1e-9 1e9) = _
    unfold Scalar.clamp
    rw [if_neg (not_lt.mpr hlower), if_neg (not_lt.mpr hupper)]
  -- the run that the solve begins with
  let r₀ := (Solver.new .standard .none).firstRun (.pushFrom luu b) (.start (.resting a) true r)
  have hbegin : (Solver.new .standard .none).Begins (.pushFrom luu b) ((Path.resting a).guess r)
      r₀ :=
    begins_along (Config.validate_ok_iff.mpr Config.isValid_standard) (.resting a) true hreg rfl
  obtain ⟨r₁, hprep⟩ := r₀.exists_refresh 0
  obtain ⟨hc, hexp⟩ := Run.refresh_consistent hbegin.consistent hprep
  have hstays := Run.stays_refresh hprep
  have hflag : r₁.workspace.feasible = true := hstays.feasible
  have hdamping : r₁.workspace.damping = ⟨r, r⟩ := by
    rcases Run.refresh_ok hprep with ⟨-, rfl⟩ | ⟨-, rfl⟩ <;> rfl
  obtain ⟨policy, hsolves⟩ := Models.exists_solves_line (d := ⟨r, r⟩) hpos true r₁.workspace.path
    r₁.workspace.gaps
  have hback : r₁.backward = (policy, none) := by
    unfold Run.backward
    rw [hflag, hdamping]
    refine backward_of_solves _ ?_
    rw [hc.expanded hexp]
    exact hsolves
  exact ⟨r₁, policy, ⟨⟨r₀, hbegin, hprep⟩, hback⟩, hstays.path, hflag, hdamping⟩

/-- The first pass of a solve that starts from a resting point. -/
theorem Solver.exists_firstPass_resting (luu : Mat ℝ 1 1) (a : ℝ) {r : ℝ} (hlower : 1e-9 ≤ r)
    (hupper : r ≤ 1e9) (hpos : 0 < luu.get 0 0 + (1 + r) + r) :
    ∃ r₁ policy, (Solver.new .standard .none).FirstPass (.pushFrom luu a)
        ((Path.resting a).guess r) r₁ policy ∧
      r₁.workspace.path = .resting a ∧ r₁.workspace.feasible = true ∧
      r₁.workspace.damping = ⟨r, r⟩ :=
  exists_firstPass_declared luu a a hlower hupper hpos

/-- What the first pass promises of a push that is as dear as the way, wherever the point is: the
less, the larger the regularization. -/
theorem Solver.exists_firstPass_promising (a b : ℝ) {r : ℝ} (hlower : 1e-9 ≤ r) (hupper : r ≤ 1e9) :
    ∃ r₁ policy, (Solver.new .standard .none).FirstPass (.pushFrom (.identity 1) b)
        ((Path.resting a).guess r) r₁ policy ∧
      r₁.workspace.path = .resting a ∧ (r₁.planned policy).workspace.feasible = true ∧
      (r₁.planned policy).workspace.expected.stop = a * a ∧
      (r₁.planned policy).workspace.expected.first * (2 + r + r) = a * a := by
  have hone : (Mat.identity 1 : Mat ℝ 1 1).get 0 0 = 1 := by simp
  have hpos : 0 < (Mat.identity 1 : Mat ℝ 1 1).get 0 0 + (1 + r) + r := by
    rw [hone]
    linarith
  obtain ⟨r₁, policy, hpass, hpath, hflag, hdamping⟩ :=
    exists_firstPass_declared (.identity 1) a b hlower hupper hpos
  refine ⟨r₁, policy, hpass, hpath, hflag, ?_⟩
  have hsolves := hpass.solves
  rw [hflag, hpath, hdamping] at hsolves
  rw [Run.expected_planned hflag]
  generalize r₁.workspace.gaps = gaps at hsolves ⊢
  cases policy with | stage p ps =>
  cases ps with | last v =>
  obtain ⟨hv, hquu, -, hk⟩ := Models.figures_line hsolves
  have hqu : p.q.qu.get 0 = a := by simpa using Models.gradient_line hsolves
  obtain ⟨hstop, hexpected⟩ := Models.expected_line p v true gaps
  rw [hqu] at hstop hk
  refine ⟨hstop, ?_⟩
  have hsum : 2 + r + r = p.q.quu.get 0 0 := by
    rw [hquu, hv, hone]
    ring
  rw [(hexpected rfl).1, hqu, hsum, mul_assoc, mul_comm (p.gains.feedforward.get 0), hk]

/-- What it promises of a push from where the point rests. -/
theorem Solver.exists_firstPass_push (a : ℝ) {r : ℝ} (hlower : 1e-9 ≤ r) (hupper : r ≤ 1e9) :
    ∃ r₁ policy, (Solver.new .standard .none).FirstPass (.pushFrom (.identity 1) a)
        ((Path.resting a).guess r) r₁ policy ∧
      (r₁.planned policy).workspace.feasible = true ∧
      (r₁.planned policy).workspace.expected.stop = a * a ∧
      (r₁.planned policy).workspace.expected.first * (2 + r + r) = a * a := by
  obtain ⟨r₁, policy, hpass, -, hfigures⟩ := exists_firstPass_promising a a hlower hupper
  exact ⟨r₁, policy, hpass, hfigures⟩

namespace Solver

variable {sv : Solver ℝ s nus} {p : Problem ℝ s nus} {g : Guess ℝ} {clock : ℕ → ℕ} {budget : ℕ}

/-- **A solve that converges at once to a stationary path does so with every regularization** for
which its first backward pass gets through. -/
theorem converges_at_once_of_stationary (hthreshold : 0 < sv.config.gradientThreshold)
    {res : SolveResult ℝ} (h : sv.ConvergesAtOnce p g clock budget res)
    (hstationary : res.info.stop = 0) {regularization : Option ℝ} {r' : Run ℝ s nus}
    {policy' : Policy ℝ s.ndx nus} (hpass : sv.FirstPass p { g with regularization } r' policy') :
    ∃ res', sv.ConvergesAtOnce p { g with regularization } clock budget res' ∧
      res'.info.stop = 0 := by
  obtain ⟨hpos, hbudget, r, policy, status, hfirst, hverdict, hstop⟩ := h.firstPass
  have hflag : (r.planned policy).workspace.feasible = true :=
    Workspace.feasible_of_verdict hverdict
  replace hflag : r.workspace.feasible = true := hflag
  have hsame := hfirst.regularization hpass
  have hflag' : r'.workspace.feasible = true := by
    rw [hsame]
    exact hflag
  -- both passes work on the same expansions
  have hsolves := backward_solves hfirst.found
  have hsolves' := backward_solves hpass.found
  rw [hflag] at hsolves
  rw [hflag', show r'.problem = r.problem by rw [hsame]] at hsolves'
  rw [hstop, Run.expected_planned hflag, ExpectedImprovement.stop_eq_zero_iff] at hstationary
  obtain ⟨hstationary', -⟩ := hsolves.isStationary hsolves' hstationary
  have hexpected := Run.expected_planned hflag' policy'
  obtain ⟨status', hverdict'⟩ : ∃ status', (r'.planned policy').workspace.verdict sv.config =
      some status' := by
    have hplanned : (r'.planned policy').workspace.feasible = true := hflag'
    refine (Workspace.exists_verdict_iff hplanned).mpr (.inr ?_)
    rw [hexpected, ExpectedImprovement.first_of_isStationary hstationary', Scalar.abs_real,
      abs_zero]
    exact hthreshold
  obtain ⟨res', hconverges, hstop'⟩ := hpass.convergesAtOnce hverdict' hpos hbudget clock
  refine ⟨res', hconverges, ?_⟩
  rw [hstop', hexpected, ExpectedImprovement.stop_eq_zero_iff]
  exact hstationary'

/-- A point that rests where it should is stationary, whatever the regularization. -/
theorem converges_at_once_of_stationary_resting :
    ∃ res res', (Solver.new .standard .none).ConvergesAtOnce (.pushFrom (.identity 1) 0)
        ((Path.resting 0).guess 1) (fun _ => 0) 100 res ∧ res.info.stop = 0 ∧
      (Solver.new .standard .none).ConvergesAtOnce (.pushFrom (.identity 1) 0)
        ((Path.resting 0).guess 1e-3) (fun _ => 0) 100 res' ∧ res'.info.stop = 0 := by
  have hthreshold : 0 < (Config.standard : Config ℝ).gradientThreshold := by
    norm_num [Config.standard]
  have hbudget : 100 < Vec.sizeLimit := by norm_num [Vec.sizeLimit]
  obtain ⟨r, policy, hpass, hflag, hstop, hfirst⟩ :=
    exists_firstPass_push 0 (r := 1) (by norm_num) (by norm_num)
  obtain ⟨r', policy', hpass', -⟩ :=
    exists_firstPass_push 0 (r := 1e-3) (by norm_num) (by norm_num)
  obtain ⟨status, hverdict⟩ :
      ∃ status, (r.planned policy).workspace.verdict .standard = some status := by
    refine (Workspace.exists_verdict_iff hflag).mpr (.inl ?_)
    rw [hstop]
    norm_num [Config.standard]
  obtain ⟨res, hconverges, hzero⟩ :=
    hpass.convergesAtOnce hverdict (by norm_num) hbudget (fun _ => 0)
  have hzero' : res.info.stop = 0 := by rw [hzero, hstop, mul_zero]
  obtain ⟨res', hconverges', hzero''⟩ :=
    converges_at_once_of_stationary hthreshold hconverges hzero' hpass'
  exact ⟨res, res', hconverges, hzero', hconverges', hzero''⟩

/-- **Elsewhere the regularization decides.** From one and the same path, a solve that starts with
the largest regularization converges at once, and one that starts with the smallest does not. -/
theorem convergence_depends_on_regularization :
    (Problem.pushFrom (.identity 1) (1 / 100)).IsRollout (.resting (1 / 100)) ∧
      (∃ res, (Solver.new .standard .none).ConvergesAtOnce (.pushFrom (.identity 1) (1 / 100))
        ((Path.resting (1 / 100)).guess 1e9) (fun _ => 0) 100 res) ∧
      (∃ r policy, (Solver.new .standard .none).FirstPass (.pushFrom (.identity 1) (1 / 100))
        ((Path.resting (1 / 100)).guess 1e-9) r policy) ∧
      ¬ ∃ res, (Solver.new .standard .none).ConvergesAtOnce (.pushFrom (.identity 1) (1 / 100))
        ((Path.resting (1 / 100)).guess 1e-9) (fun _ => 0) 100 res := by
  have hbudget : 100 < Vec.sizeLimit := by norm_num [Vec.sizeLimit]
  refine ⟨Problem.isRollout_resting _ _, ?_, ?_, ?_⟩
  · obtain ⟨r, policy, hpass, hflag, hstop, hfirst⟩ :=
      exists_firstPass_push (1 / 100) (r := 1e9) (by norm_num) (by norm_num)
    obtain ⟨status, hverdict⟩ :
        ∃ status, (r.planned policy).workspace.verdict .standard = some status := by
      refine (Workspace.exists_verdict_iff hflag).mpr (.inr ?_)
      rw [Scalar.abs_real, abs_lt]
      norm_num [Config.standard] at hfirst ⊢
      constructor <;> linarith
    obtain ⟨res, hconverges, -⟩ :=
      hpass.convergesAtOnce hverdict (by norm_num) hbudget (fun _ => 0)
    exact ⟨res, hconverges⟩
  · obtain ⟨r, policy, hpass, -⟩ :=
      exists_firstPass_push (1 / 100) (r := 1e-9) (by norm_num) (by norm_num)
    exact ⟨r, policy, hpass⟩
  · rintro ⟨res, hconverges⟩
    obtain ⟨-, -, r, policy, status, hpass, hverdict, -⟩ := hconverges.firstPass
    obtain ⟨r', policy', hpass', hflag, hstop, hfirst⟩ :=
      exists_firstPass_push (1 / 100) (r := 1e-9) (by norm_num) (by norm_num)
    obtain ⟨rfl, rfl⟩ := hpass.unique hpass'
    rcases (Workspace.exists_verdict_iff hflag).mp ⟨status, hverdict⟩ with hsmall | hsmall
    · rw [hstop] at hsmall
      norm_num [Solver.new, Config.standard] at hsmall
    · rw [Scalar.abs_real, abs_lt] at hsmall
      norm_num [Solver.new, Config.standard] at hfirst hsmall
      linarith

end Solver

end Shooting
