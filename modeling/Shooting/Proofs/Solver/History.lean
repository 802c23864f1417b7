import Shooting.Problem.Report
import Shooting.Proofs.Solver.Consistency
import Shooting.Proofs.Solver.Independence

/-!
# Solves and what was done before them

Whatever callers do to a problem, they change at most what it remembers (`Problem.Change.same`), and
so it asks the same after any number of operations (`Problem.Reaches.same`). A solve cannot tell how
often a problem or a solver was used before (`Solver.solve_forgets_history`).

What it leaves behind can, in two cases: a solve that is refused changes nothing, and one that does
no iteration leaves the derivatives that were stored before (`Solver.Concludes.reevaluates`,
`Solver.data_depend_on_history`).

No law of arithmetic is used.
-/

namespace Shooting

variable {α : Type} {s : StateSpace} {nus : List Nat}

namespace Stages

variable {β : Type}

theorem models_visit (f : ∀ {nu}, Stage α s nu → Stage α s nu × β)
    (hf : ∀ {nu} (st : Stage α s nu), (f st).1.model = st.model) :
    ∀ {nus : List Nat} (t : Nat) (stages : Stages α s nus),
      models (stages.visit f t).1 = stages.models
  | _, 0, .last _ => rfl
  | _, _ + 1, .last _ => rfl
  | _, 0, .stage st rest => congrArg (Horizon.stage · (models rest)) (hf st)
  | _, t + 1, .stage _ rest => congrArg (Horizon.stage _) (models_visit f hf t rest)

theorem models_setFinal {st : TerminalStage α s} : ∀ {nus : List Nat} (stages : Stages α s nus),
    st.anyModel = stages.final.anyModel → models (stages.setFinal st) = stages.models
  | _, .last _, h => congrArg Horizon.last h
  | _, .stage _ rest, h => congrArg (Horizon.stage _) (models_setFinal rest h)

end Stages

variable [Scalar α]

namespace Problem

section

variable [PseudoInverting α]

theorem model_quasiStaticOfStage {nu : Nat} (st : Stage α s nu) (x : List α) (maxIter : Nat)
    (tol : α) : (quasiStaticOfStage st x maxIter tol).1.model = st.model := by
  unfold quasiStaticOfStage
  split <;> rfl

theorem models_warmStartFrom (maxIter : Nat) (tol : α) :
    ∀ {nus : List Nat} (t : Nat) (stages : Stages α s nus) (xs : List (List α)),
      (warmStartFrom maxIter tol t stages xs).stages.models = stages.models
  | _, _, .last _, _ => rfl
  | _, _, .stage _ _, [] => rfl
  | _, t, .stage st rest, x :: xs => by
    have hst := model_quasiStaticOfStage st x maxIter tol
    have hrest := models_warmStartFrom maxIter tol (t + 1) rest xs
    have hboth : Horizon.stage (quasiStaticOfStage st x maxIter tol).1.model
        (warmStartFrom maxIter tol (t + 1) rest xs).stages.models =
          Horizon.stage st.model (Stages.models rest) := by
      rw [hst, hrest]
    have hfirst : Horizon.stage (quasiStaticOfStage st x maxIter tol).1.model (Stages.models rest) =
        Horizon.stage st.model (Stages.models rest) := by
      rw [hst]
    unfold warmStartFrom
    dsimp only
    split
    · exact hboth
    · exact hfirst
    · exact hfirst
    · exact hboth

theorem models_warmStart (p : Problem α s nus) (xs : List (List α)) (maxIter : Nat) (tol : α) :
    (p.warmStart xs maxIter tol).stages.models = p.stages.models := by
  unfold warmStart
  split
  · rfl
  · exact models_warmStartFrom maxIter tol 0 p.stages xs

/-- What callers can do to a problem, and what it is afterwards. -/
inductive Change (p : Problem α s nus) : Problem α s nus → Prop where
  | evaluate {q : Problem α s nus} {xs us : List (List α)} {cost : α}
      (h : p.evaluate? xs us = .ok (q, cost)) : Change p q
  | expand {q : Problem α s nus} {xs us : List (List α)} {cost : α}
      (h : p.expand? xs us = .ok (q, cost)) : Change p q
  | rollout {q : Problem α s nus} {us : List (List α)} {path : Path α s nus}
      (h : p.rollout? us = .ok (q, path)) : Change p q
  | evaluateStage {q : Problem α s nus} {t : Nat} {x u : List α} {e : Evaluation α s.nx}
      (h : p.evaluateStage? t x u = .ok (q, e)) : Change p q
  | evaluateTerminal {q : Problem α s nus} {x : List α} {e : Evaluation α s.nx}
      (h : p.evaluateTerminal? x = .ok (q, e)) : Change p q
  | quasiStatic (t : Nat) (x : List α) (maxIter : Nat) (tol : α) :
      Change p (p.quasiStatic? t x maxIter tol).1
  | quasiStaticControls (xs : List (List α)) (maxIter : Nat) (tol : α) :
      Change p (p.quasiStaticControls? xs maxIter tol).1
  | solve (sv : Solver α s nus) (g : Guess α) (clock : Nat → Nat) (budget : Nat) :
      Change p (sv.solveWithin p g clock budget).problem

/-- What a problem can become in the hands of callers. -/
inductive Reaches (p : Problem α s nus) : Problem α s nus → Prop where
  | start : Reaches p p
  | next {q q' : Problem α s nus} (reached : Reaches p q) (change : q.Change q') : Reaches p q'

end

end Problem

namespace Solver

variable {sv : Solver α s nus} {p : Problem α s nus} {g : Guess α} {clock : Nat → Nat}
  {budget : Nat}

theorem reevaluates_initialized {p' : Problem α s nus} {w : Workspace α s nus}
    (hinit : sv.initialize? p g = .ok (p', w)) : p'.Reevaluates p := by
  obtain ⟨-, _, _, _, -, hpath, -⟩ := initialize?_ok hinit
  exact (initialPath_ok hpath).1

/-- A solve leaves what the problem asks. -/
theorem Concludes.same {solved : Solved α s nus} (h : sv.Concludes p g clock budget solved) :
    solved.problem.Same p := by
  cases h with
  | refused => exact .refl p
  | misused hinit => exact (reevaluates_initialized hinit).toSame
  | invalid hinit => exact (Problem.same_evaluate _ _).trans (reevaluates_initialized hinit).toSame
  | ended hbegin hbudget hend =>
    exact (Run.settle_consistent (hbegin.consistent_of_ends hend)).1
  | failed hbegin hbudget hperf hfail =>
    have hconsistent := Run.invalid_consistent (hbegin.consistent_of_reaches hperf.reached)
      ((Run.iterate_cases _ _ _).failed hfail)
    exact hconsistent.same

/-- **A solve without an iteration evaluates stages and does nothing else to a problem.** -/
theorem Concludes.reevaluates {solved : Solved α s nus} (h : sv.Concludes p g clock budget solved)
    (hnone : ∀ r₀, sv.Begins p g r₀ → budget < Vec.sizeLimit → budget = 0) :
    solved.problem.Reevaluates p := by
  cases h with
  | refused => exact .refl p
  | misused hinit => exact reevaluates_initialized hinit
  | invalid hinit => exact (Problem.reevaluates_evaluate _ _).trans (reevaluates_initialized hinit)
  | @ended r₀ r status n hbegin hbudget hend =>
    obtain rfl := hnone r₀ hbegin hbudget
    have hstart : r = r₀ := by
      cases hend with
      | budget reached =>
        cases reached
        rfl
      | timeout reached within => exact absurd within (Nat.not_lt_zero _)
      | stop hperf => exact absurd hperf.within (Nat.not_lt_zero _)
    subst hstart
    obtain ⟨hinit, -⟩ := hbegin
    exact (Problem.reevaluates_evaluate _ _).trans (reevaluates_initialized hinit)
  | failed hbegin hbudget hperf =>
    obtain rfl := hnone _ hbegin hbudget
    exact absurd hperf.within (Nat.not_lt_zero _)

end Solver

namespace Problem

variable [PseudoInverting α] {p q : Problem α s nus}

/-- **An operation changes at most what a problem remembers.** -/
theorem Change.same (h : p.Change q) : q.Same p := by
  cases h with
  | evaluate h =>
    obtain ⟨path, -, h⟩ := exists_of_bind_ok h
    cases h
    exact p.same_evaluate path
  | expand h =>
    obtain ⟨path, -, h⟩ := exists_of_bind_ok h
    cases h
    exact p.same_expand path
  | rollout h =>
    obtain ⟨us, -, h⟩ := exists_of_bind_ok h
    cases h
    exact p.same_rollout us
  | evaluateStage h =>
    unfold evaluateStage? at h
    dsimp only at h
    split at h
    next => cases h
    next => cases h
    next stages e hvisit =>
      cases h
      refine ⟨rfl, (congrArg (fun v => Stages.models v.1) hvisit).symm.trans
        (Stages.models_visit _ ?_ _ _)⟩
      intro nu st
      split <;> rfl
  | evaluateTerminal h =>
    obtain ⟨x, -, h⟩ := exists_of_bind_ok h
    cases h
    exact ⟨rfl, Stages.models_setFinal p.stages rfl⟩
  | quasiStatic t x maxIter tol =>
    have hmodels := Stages.models_visit (fun st => quasiStaticOfStage st x maxIter tol)
      (fun st => model_quasiStaticOfStage st x maxIter tol) t p.stages
    unfold quasiStatic?
    split
    next => exact .refl p
    next hvisit =>
      rw [hvisit] at hmodels
      exact ⟨rfl, hmodels⟩
  | quasiStaticControls xs maxIter tol => exact ⟨rfl, p.models_warmStart xs maxIter tol⟩
  | solve sv g clock budget => exact (sv.solveWithin_cases p g clock budget).same

/-- **A problem asks the same after any number of operations.** -/
theorem Reaches.same (h : p.Reaches q) : q.Same p := by
  induction h with
  | start => exact .refl p
  | next reached change ih => exact change.same.trans ih

theorem change_expand (p : Problem α s nus) (path : Path α s nus) : p.Change (p.expand path) := by
  have h : p.expand? path.toTrajectory.states path.toTrajectory.controls =
      .ok (p.expand path, (p.expand path).totalCost) := by
    unfold expand?
    rw [path?_toTrajectory]
    rfl
  exact .expand h

/-- A point that is to be pushed, with derivatives that were taken elsewhere. -/
def pushedBefore : Problem Float (.euclidean 1) [1] :=
  (push Float).expand (.stage ⟨.replicate 1 2, .replicate 1 1⟩ (.last (.replicate 1 3)))

theorem reaches_pushedBefore : (push Float).Reaches pushedBefore :=
  .next .start (change_expand _ _)

end Problem

namespace Solver

variable {sv sv' : Solver α s nus} {p q : Problem α s nus} {g : Guess α}
  {clock clock' : Nat → Nat} {budget : Nat}

/-- Solving `q` with `sv'` is the same as solving `p` with `sv`. -/
structure Agree (sv sv' : Solver α s nus) (p q : Problem α s nus) (g : Guess α)
    (clock clock' : Nat → Nat) (budget : Nat) : Prop where
  /-- The answer, or the error. -/
  outcome : (sv'.solveWithin q g clock' budget).outcome = (sv.solveWithin p g clock budget).outcome
  /-- A solve that is refused leaves everything as it was. -/
  refused : ∀ e, sv.initialize? p g = .error e →
    (sv.solveWithin p g clock budget).solver = sv ∧
      (sv.solveWithin p g clock budget).problem = p ∧
      (sv'.solveWithin q g clock' budget).solver = sv' ∧
      (sv'.solveWithin q g clock' budget).problem = q
  /-- A solve that is not refused leaves a workspace, and so all that the solver shows. -/
  workspace : ∀ started, sv.initialize? p g = .ok started →
    (sv'.solveWithin q g clock' budget).solver.workspace =
        (sv.solveWithin p g clock budget).solver.workspace
  /-- What it leaves of evaluations depends on nothing that was there before. -/
  evaluations : ∀ started, sv.initialize? p g = .ok started → budget < Vec.sizeLimit →
    (sv'.solveWithin q g clock' budget).problem.stages.storedEvaluations =
      (sv.solveWithin p g clock budget).problem.stages.storedEvaluations
  /-- Neither does anything else that it leaves if it comes to an iteration. -/
  problem : ∀ r₀, sv.Begins p g r₀ → 0 < budget → budget < Vec.sizeLimit →
    (sv'.solveWithin q g clock' budget).problem = (sv.solveWithin p g clock budget).problem
  /-- If it does not, the derivatives stay that were stored before. -/
  derivatives : (∀ r₀, sv.Begins p g r₀ → budget < Vec.sizeLimit → budget = 0) →
    (sv.solveWithin p g clock budget).problem.stages.storedExpansions = p.stages.storedExpansions ∧
      (sv'.solveWithin q g clock' budget).problem.stages.storedExpansions =
        q.stages.storedExpansions

/-- **A solve does not depend on what was done before**, if there is no time limit: not on what the
solver was used for, and not on what the problem remembers. -/
theorem solve_forgets_history (hconfig : sv'.config = sv.config)
    (htimeout : sv.config.timeout = none) (hsame : q.Same p) (g : Guess α)
    (clock clock' : Nat → Nat) (budget : Nat) :
    Agree sv sv' p q g clock clock' budget := by
  have htime (i : Nat) : Run.isTimedOut sv.config clock' i = Run.isTimedOut sv.config clock i := by
    rw [Run.isTimedOut_of_none htimeout, Run.isTimedOut_of_none htimeout]
  have hderivatives (hnone : ∀ r₀, sv.Begins p g r₀ → budget < Vec.sizeLimit → budget = 0) :
      (sv.solveWithin p g clock budget).problem.stages.storedExpansions =
          p.stages.storedExpansions ∧
        (sv'.solveWithin q g clock' budget).problem.stages.storedExpansions =
          q.stages.storedExpansions := by
    refine ⟨((sv.solveWithin_cases p g clock budget).reevaluates hnone).expansions,
      ((sv'.solveWithin_cases q g clock' budget).reevaluates ?_).expansions⟩
    intro r₀ hbegin
    obtain ⟨r₀', hbegin', -⟩ := hbegin.exists_alike hconfig.symm hsame.symm
    exact hnone r₀' hbegin'
  rcases initialize?_cases hconfig hsame g with
    ⟨e, hrefused, hrefused'⟩ | ⟨p', q', w, hinit, hinit', -⟩
  · have hsolve := solveWithin_of_refused hrefused clock budget
    have hsolve' := solveWithin_of_refused hrefused' clock' budget
    refine ⟨by rw [hsolve, hsolve'], fun _ _ => ?_, ?_, ?_, ?_, hderivatives⟩
    · rw [hsolve, hsolve']
      exact ⟨rfl, rfl, rfl, rfl⟩
    · intro started hinit
      rw [hrefused] at hinit
      cases hinit
    · intro started hinit
      rw [hrefused] at hinit
      cases hinit
    · rintro r₀ ⟨hinit, -⟩
      rw [hrefused] at hinit
      cases hinit
  · have hnotRefused (e : Error α) (hrefused : sv.initialize? p g = .error e) : False := by
      rw [hinit] at hrefused
      cases hrefused
    by_cases hbudget : budget < Vec.sizeLimit
    · have halike := solveWithin_alike hconfig hsame htime hinit hbudget
      exact ⟨halike.outcome, fun e h => (hnotRefused e h).elim, fun _ _ => halike.workspace,
        fun _ _ _ => halike.evaluations,
        fun _ hbegin hpos _ => (solveWithin_twins hconfig hsame htime hbegin hpos hbudget).problem,
        hderivatives⟩
    · have hsolve := solveWithin_of_misused hinit hbudget clock
      have hsolve' := solveWithin_of_misused hinit' hbudget clock'
      exact ⟨by rw [hsolve, hsolve'], fun e h => (hnotRefused e h).elim,
        fun _ _ => by rw [hsolve, hsolve'], fun _ _ h => absurd h hbudget,
        fun _ _ _ h => absurd h hbudget, hderivatives⟩

set_option maxRecDepth 100000 in
/-- A problem with derivatives from elsewhere, and a solver that was used before. -/
theorem solve_forgets_history_push :
    ∃ sv' : Solver Float (.euclidean 1) [1], sv'.workspace.isSome = true ∧
      sv'.config = .standard ∧ (Problem.push Float).Reaches .pushedBefore ∧
      Agree (.new .standard .none) sv' (.push Float) .pushedBefore .none (fun _ => 0) (fun _ => 0)
        3 := by
  have hconfig := ((Solver.new .standard .none).solveWithin_cases (Problem.push Float) .none
    (fun _ => 0) 1).config
  exact ⟨_, by decide +kernel, hconfig, Problem.reaches_pushedBefore,
    solve_forgets_history hconfig rfl Problem.reaches_pushedBefore.same .none _ _ 3⟩

set_option maxRecDepth 100000 in
/-- A solve without an iteration leaves the derivatives that were stored before. -/
theorem data_depend_on_history :
    (Problem.push Float).Reaches .pushedBefore ∧
      ((Solver.new .standard .none).solveWithin .pushedBefore .none (fun _ => 0)
          0).problem.stages.storedExpansions ≠
        ((Solver.new .standard .none).solveWithin (Problem.push Float) .none (fun _ => 0)
          0).problem.stages.storedExpansions := by
  refine ⟨Problem.reaches_pushedBefore, ?_⟩
  intro h
  have hgradients := congrArg (Horizon.running fun e => e.lx.toList) h
  revert hgradients
  decide +kernel

end Solver

end Shooting
