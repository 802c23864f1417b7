import Shooting.Proofs.Config
import Shooting.Proofs.Solver.Course
import Shooting.Proofs.Exact.Linear

/-!
# Exact solves

Over the reals everything is finite. So a solve that is not refused begins (`Solver.exists_begins`),
no candidate is incomplete (`Workspace.exists_tryStep`), no iteration fails, and what has begun ends
with an answer (`Solver.answers_of_begins`).
-/

namespace Shooting

variable {s : StateSpace} {nus : List ℕ}

@[simp] theorem StageData.isFinite_real {nx ndx nu : ℕ} (d : StageData ℝ nx ndx nu) :
    d.isFinite = true := by
  simp [isFinite, Evaluation.isFinite, Expansion.isFinite]

@[simp] theorem Stages.isFinite_real (stages : Stages ℝ s nus) : stages.isFinite = true := by
  have hrunning : (stages.running fun st => st.data.isFinite).all id = true := by
    simp only [List.all_eq_true]
    intro b hb
    induction stages with
    | last => cases hb
    | stage st rest ih =>
      rcases List.mem_cons.mp hb with rfl | hb
      · exact st.data.isFinite_real
      · exact ih hb
  unfold isFinite
  rw [hrunning, StageData.isFinite_real, Bool.and_self]

/-- Over the reals every candidate is complete. -/
theorem exists_tryStepFrom (length : ℝ) (closing : Bool) : ∀ {nus : List ℕ} (predicted : Vec ℝ s.nx)
    (cost : ℝ) (stages : Stages ℝ s nus) (path : Path ℝ s nus) (gaps : Gaps ℝ s nus)
    (policy : Policy ℝ s.ndx nus), ∃ stages' c path',
      tryStepFrom length closing predicted cost stages path gaps policy = (stages', some (c, path'))
  | _, predicted, cost, .last st, .last x, .last f, .last v => by
    rw [tryStepFrom_last]
    simp [Evaluation.isFinite]
  | _, predicted, cost, .stage st rest, .stage k ks, .stage f fs, .stage p ps => by
    let k' := trialKnot length closing predicted k f p
    let e := (st.evaluate k'.state k'.control).data.eval
    obtain ⟨rest', c, ks', hrest⟩ :=
      exists_tryStepFrom length closing e.next (cost + e.cost) rest ks fs ps
    rw [tryStepFrom_stage]
    dsimp only
    rw [hrest]
    simp [Evaluation.isFinite]

theorem Workspace.exists_tryStep (w : Workspace ℝ s nus) (p : Problem ℝ s nus) (length : ℝ) :
    ∃ p' c path', w.tryStep p length = (p', some (c, path')) := by
  obtain ⟨stages', c, path', htry⟩ := exists_tryStepFrom length (w.feasible || length == 1)
    p.start 0 p.stages w.path w.gaps w.policy
  refine ⟨{ p with stages := stages' }, c, path', ?_⟩
  unfold tryStep
  dsimp only
  rw [htry]

/-- The standard configuration is valid. -/
theorem Config.isValid_standard : (Config.standard : Config ℝ).IsValid := by
  constructor <;> norm_num [Config.standard]

namespace Run

variable {c : Config ℝ} {r r' : Run ℝ s nus} {i : ℕ}

/-- Preparing a run does not fail. -/
theorem exists_refresh (r : Run ℝ s nus) (i : ℕ) : ∃ r₁, r.refresh i = .ok r₁ := by
  cases hprep : r.refresh i with
  | ok r₁ => exact ⟨r₁, rfl⟩
  | error failed =>
    obtain ⟨-, hinfinite, -⟩ := refresh_error hprep
    rw [Stages.isFinite_real] at hinfinite
    cases hinfinite

/-- No iteration fails. -/
theorem iterate_ne_fail {e : SolverError ℝ} : r.iterate c i ≠ .fail r' e := by
  intro h
  obtain ⟨r₁, hprep⟩ := r.exists_refresh i
  rw [(iterate_cases c r i).failed h] at hprep
  cases hprep

/-- A feasible path without running stages is optimal: no control is left to choose. -/
theorem iterate_without_stages {r : Run ℝ s []} (hflag : r.workspace.feasible = true)
    (hthreshold : 0 < c.stopThreshold) : ∃ r', r.iterate c i = .stop r' .converged i := by
  have hverdict {r₁ : Run ℝ s []} (hprep : r.refresh i = .ok r₁) (policy : Policy ℝ s.ndx []) :
      (r₁.planned policy).workspace.verdict c = some .converged := by
    have hflag₁ : (r₁.planned policy).workspace.feasible = true :=
      (stays_refresh hprep).feasible.trans hflag
    have hstop : (r₁.planned policy).workspace.expected.stop = 0 := by
      cases policy
      show (ExpectedImprovement.ofPolicy _ _ r₁.workspace.feasible).stop = 0
      rw [(stays_refresh hprep).feasible, hflag]
      rfl
    unfold Workspace.verdict
    rw [hflag₁, hstop, if_pos hthreshold]
    rfl
  have hcase := iterate_cases c r i
  generalize r.iterate c i = step at hcase ⊢
  cases hcase with
  | invalid hprep =>
    obtain ⟨r₁, hok⟩ := r.exists_refresh i
    cases hok.symm.trans hprep
  | @unplanned r₁ policy failure hprep hback =>
    unfold backward Shooting.backward at hback
    generalize r₁.problem.stages = stages, r₁.workspace.gaps = gaps,
      r₁.workspace.policy = old at hback
    cases stages
    cases gaps
    cases old
    simp [backwardFrom] at hback
  | optimal hprep hback hend =>
    rw [hverdict hprep] at hend
    cases hend
    exact ⟨_, rfl⟩
  | stepped hprep hback hgo =>
    rw [hverdict hprep] at hgo
    cases hgo
  | rejected hprep hback hgo =>
    rw [hverdict hprep] at hgo
    cases hgo

end Run

namespace Solver

variable {sv : Solver ℝ s nus} {p : Problem ℝ s nus} {g : Guess ℝ} {r₀ : Run ℝ s nus}

/-- Without a guess, every valid configuration begins. -/
theorem exists_begins (hvalid : sv.config.IsValid) (p : Problem ℝ s nus) :
    ∃ r₀, sv.Begins p .none r₀ := by
  obtain ⟨p', w, hinit⟩ := initialize?_none (Config.validate_ok_iff.mpr hvalid) p
  exact ⟨_, .intro hinit rfl⟩

/-- **A solve that has begun ends with an answer.** -/
theorem answers_of_begins (h : sv.Begins p g r₀) (clock : ℕ → ℕ) {budget : ℕ}
    (hbudget : budget < Vec.sizeLimit) :
    ∃ res, (sv.solveWithin p g clock budget).outcome = .ok res := by
  rw [solveWithin_of_begins h hbudget]
  rcases r₀.iterateFrom_ends budget 0 (Nat.zero_add _) .start with
    ⟨r, status, n, -, hfinish⟩ | ⟨j, r, r', e, -, hfail, -⟩
  · rw [hfinish]
    exact ⟨_, rfl⟩
  · exact absurd hfail Run.iterate_ne_fail

end Solver

end Shooting
