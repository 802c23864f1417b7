import Shooting.Proofs.Solver.Finiteness
import Shooting.Proofs.Solver.Ledger
import Shooting.Proofs.Solver.Refusal

/-!
# The path that an error carries

A solve that meets a value that is not finite ends with an error, and the error carries the path
that the solve was at. `Solver.Meets` says how that can come about and which path it is: the one
that the solve began with, if it could not even be expanded, and otherwise the one of the last step,
whose evaluations are ordinary numbers and whose derivatives are not all.

So what the error carries has been evaluated to ordinary numbers if the path to start from was
(`Solver.error_carries_path`), up to the sum of the costs along the path of a step, which may
overflow. If the path to start from was not, the error carries it nevertheless
(`Solver.carried_cost_infinite`).

No law of arithmetic is used.
-/

namespace Shooting

variable {α : Type} [Scalar α] {s : StateSpace} {nus : List Nat}

/-- Costs and next states along a path are ordinary numbers, and so is the total cost. -/
structure Problem.IsValidAlong (p : Problem α s nus) (path : Path α s nus) : Prop where
  cost : Scalar.isFinite (p.costAlong path) = true
  evaluations : ∀ e ∈ (p.stages.models.evaluations path).toList id id, e.isFinite = true

namespace Run

variable {c : Config α} {clock : Nat → Nat} {budget i j : Nat} {r₀ r r' : Run α s nus}

/-- A run that has not been expanded between two iterations has just taken a step. -/
theorem accepts_of_unexpanded (hnext : r.iterate c i = .next r') (hun : r'.unexpanded = true) :
    r.Accepts c i := by
  have hrun : (r.iterate c i).run = r' := congrArg Step.run hnext
  rcases (iterate_cases c r i).completes_or with
    ⟨m, hm, -⟩ | ⟨status, -, hstop⟩ | ⟨e, -, hfail⟩
  · have haccepted : m.accepted = true := hm.unexpanded.symm.trans (hrun ▸ hun)
    have htally := hm.accepted
    rwa [haccepted] at htally
  · cases hnext.symm.trans hstop
  · cases hnext.symm.trans hfail

/-- An iteration that fails takes no step. -/
theorem not_accepts_of_fail {e : SolverError α} (hfail : r.iterate c i = .fail r' e) :
    ¬ r.Accepts c i := by
  have hstays := stays_invalid ((iterate_cases c r i).failed hfail)
  unfold Accepts
  rw [hfail]
  have hsame : r'.tally.accepted = r.tally.accepted := hstays.accepted
  show ¬ r'.tally.accepted = r.tally.accepted + 1
  omega

end Run

namespace Solver

variable {sv : Solver α s nus} {p : Problem α s nus} {g : Guess α} {clock : Nat → Nat}
  {budget : Nat}

/-- Iteration number `j`, from the run `r`, is the last one in which a solve that begins with `r₀`
takes a step. -/
structure LastStep (sv : Solver α s nus) (clock : Nat → Nat) (budget : Nat) (r₀ : Run α s nus)
    (j : Nat) (r : Run α s nus) : Prop where
  performs : r₀.Performs sv.config clock budget j r
  accepts : r.Accepts sv.config j
  last : ∀ k r', r₀.Performs sv.config clock budget k r' → r'.Accepts sv.config k → k ≤ j

/-- There is one last step. -/
theorem LastStep.unique {r₀ r r' : Run α s nus} {j k : Nat}
    (h : sv.LastStep clock budget r₀ j r) (h' : sv.LastStep clock budget r₀ k r') :
    j = k ∧ r = r' := by
  obtain rfl : j = k :=
    Nat.le_antisymm (h'.last j r h.performs h.accepts) (h.last k r' h'.performs h'.accepts)
  exact ⟨rfl, h.performs.reached.unique h'.performs.reached⟩

/-- How a solve can meet a value that is not finite, and the path it is at then. -/
inductive Meets (sv : Solver α s nus) (p : Problem α s nus) (g : Guess α) (clock : Nat → Nat)
    (budget : Nat) : EvaluationFault α → Path α s nus → Prop where
  /-- The path to start from has no finite cost, and no iteration is begun. -/
  | cost {path : Path α s nus} {feasible : Bool} (hstart : g.Starts p path feasible)
      (hnone : ∀ r₀, ¬ sv.Begins p g r₀)
      (hinfinite : Scalar.isFinite (p.costAlong path) = false) :
      Meets sv p g clock budget (.initialCost (p.costAlong path)) path
  /-- The path to start from has a finite cost, but cannot be expanded. -/
  | start {r₀ : Run α s nus} (hbegin : sv.Begins p g r₀)
      (hnone : ∀ k r, r₀.Performs sv.config clock budget k r → ¬ r.Accepts sv.config k)
      (hcost : Scalar.isFinite (p.costAlong r₀.workspace.path) = true)
      (hundefined : ¬ p.DefinedAlong r₀.workspace.path) :
      Meets sv p g clock budget (.derivatives 0) r₀.workspace.path
  /-- The last step leads to a path of ordinary numbers, but not all derivatives along it are. -/
  | step {r₀ r : Run α s nus} {j : Nat} (hbegin : sv.Begins p g r₀)
      (hlast : sv.LastStep clock budget r₀ j r)
      (hfinite : p.FiniteAlong (r.iterate sv.config j).run.workspace.path)
      (hundefined : ¬ p.DefinedAlong (r.iterate sv.config j).run.workspace.path) :
      Meets sv p g clock budget (.derivatives (j + 1)) (r.iterate sv.config j).run.workspace.path

/-- An iteration that fails cannot expand its path. -/
theorem Begins.undefined_of_fail {r₀ r r' : Run α s nus} {i : Nat} {e : SolverError α}
    (h : sv.Begins p g r₀) (hperf : r₀.Performs sv.config clock budget i r)
    (hfail : r.iterate sv.config i = .fail r' e) :
    r.unexpanded = true ∧ ¬ p.DefinedAlong r.workspace.path ∧
      r'.workspace = r.workspace ∧
      e = .invalidNumericValue (.derivatives i) r.workspace.path.toTrajectory := by
  obtain ⟨hun, hinfinite, rfl, rfl⟩ :=
    Run.refresh_error ((Run.iterate_cases sv.config r i).failed hfail)
  refine ⟨hun, ?_, rfl, rfl⟩
  intro hdefined
  have hcheck := ((h.consistent_of_reaches hperf.reached).isFinite_expand hun).mpr
    ⟨hdefined.evaluations, hdefined.expansions⟩
  rw [hinfinite] at hcheck
  cases hcheck

/-- **An iteration that fails is the first one or comes right after a step.** -/
theorem Begins.meets_of_fail {r₀ r r' : Run α s nus} {i : Nat} {e : SolverError α}
    (h : sv.Begins p g r₀) (hperf : r₀.Performs sv.config clock budget i r)
    (hfail : r.iterate sv.config i = .fail r' e) :
    sv.Meets p g clock budget (.derivatives i) r.workspace.path := by
  obtain ⟨hun, hundefined, -⟩ := h.undefined_of_fail hperf hfail
  have hbefore {k : Nat} {r'' : Run α s nus} (hk : r₀.Performs sv.config clock budget k r'')
      (haccepts : r''.Accepts sv.config k) : k < i := by
    refine Nat.lt_of_le_of_ne (hperf.le_of_not_next (by rw [hfail]; nofun) hk) ?_
    rintro rfl
    rw [← hperf.reached.unique hk.reached] at haccepts
    exact Run.not_accepts_of_fail hfail haccepts
  obtain ⟨reached, within, inTime⟩ := hperf
  cases reached with
  | start =>
    refine .start h (fun k r hk haccepts => Nat.not_lt_zero k (hbefore hk haccepts)) ?_ hundefined
    rw [← h.consistent.cost]
    obtain ⟨-, hfin⟩ := h
    exact hfin
  | @next j r₁ _ reached₁ within₁ inTime₁ hnext =>
    have haccepts := Run.accepts_of_unexpanded hnext hun
    obtain ⟨r₂, policy, f, hprep, htakes⟩ := haccepts.takes
    have hfinite := htakes.finiteAlong
      (Run.refresh_consistent (h.consistent_of_reaches reached₁) hprep).1.same
    have hlast : sv.LastStep clock budget r₀ j r₁ :=
      ⟨⟨reached₁, within₁, inTime₁⟩, haccepts,
        fun k r hk haccepts => Nat.le_of_lt_succ (hbefore hk haccepts)⟩
    have hmeets := Meets.step h hlast hfinite
    rw [hnext] at hmeets
    exact hmeets hundefined

/-- What an error carries if every path to start from with the given arguments is valid. -/
theorem Meets.valid {cause : EvaluationFault α} {path : Path α s nus}
    (h : sv.Meets p g clock budget cause path)
    (hstart : ∀ path feasible, g.Starts p path feasible → p.IsValidAlong path) :
    p.IsValidAlong path ∨ p.FiniteAlong path ∧
      ∃ r₀ j r, sv.Begins p g r₀ ∧ sv.LastStep clock budget r₀ j r := by
  cases h with
  | cost hstarts hnone hinfinite => exact .inl (hstart _ _ hstarts)
  | start hbegin => exact .inl (hstart _ _ hbegin.starts)
  | step hbegin hlast hfinite => exact .inr ⟨hfinite, _, _, _, hbegin, hlast⟩

/-- The path of the last step, if there is one, is the one that the error carries. -/
theorem Meets.eq_of_lastStep {cause : EvaluationFault α} {path : Path α s nus}
    (h : sv.Meets p g clock budget cause path) {r₀ r : Run α s nus} {j : Nat}
    (hbegin : sv.Begins p g r₀) (hlast : sv.LastStep clock budget r₀ j r) :
    path = (r.iterate sv.config j).run.workspace.path := by
  cases h with
  | cost hstarts hnone hinfinite => exact absurd hbegin (hnone r₀)
  | start hbegin' hnone =>
    obtain rfl := hbegin.unique hbegin'
    exact absurd hlast.accepts (hnone j r hlast.performs)
  | step hbegin' hlast' =>
    obtain rfl := hbegin.unique hbegin'
    obtain ⟨rfl, rfl⟩ := hlast.unique hlast'
    rfl

/-- What is promised of the trajectory that an error carries. -/
structure Carries (sv : Solver α s nus) (p : Problem α s nus) (g : Guess α) (clock : Nat → Nat)
    (budget : Nat) (cause : EvaluationFault α) (t : Trajectory α) (path : Path α s nus) : Prop where
  /-- It has the sizes that the problem asks for, and the solver is left with it. -/
  trajectory : t = path.toTrajectory
  sizes : p.path? t.states t.controls = .ok path
  solver : (sv.solveWithin p g clock budget).solver.trajectory = t
  meets : sv.Meets p g clock budget cause path
  /-- If a step was taken, it is where the last one led. -/
  lastStep : ∀ {r₀ j r}, sv.Begins p g r₀ → sv.LastStep clock budget r₀ j r →
    path = (r.iterate sv.config j).run.workspace.path
  /-- If the path to start from was evaluated to ordinary numbers, so was this one, but for the sum
  of the costs after a step. -/
  valid : (∀ path₀ feasible, g.Starts p path₀ feasible → p.IsValidAlong path₀) →
    p.IsValidAlong path ∨ p.FiniteAlong path ∧
      ∃ r₀ j r, sv.Begins p g r₀ ∧ sv.LastStep clock budget r₀ j r

/-- **An error about a value that is not finite carries the path the solve was at**: where the last
step led, or else where the solve began. -/
theorem error_carries_path {cause : EvaluationFault α} {t : Trajectory α}
    (h : (sv.solveWithin p g clock budget).outcome =
      .error (.error (.solver (.invalidNumericValue cause t)))) :
    ∃ path, sv.Carries p g clock budget cause t path := by
  have carries {path : Path α s nus} (ht : t = path.toTrajectory)
      (hsolver : (sv.solveWithin p g clock budget).solver.trajectory = t)
      (hmeets : sv.Meets p g clock budget cause path) :
      ∃ path, sv.Carries p g clock budget cause t path := by
    refine ⟨path, ht, ?_, hsolver, hmeets, hmeets.eq_of_lastStep, hmeets.valid⟩
    rw [ht]
    exact Problem.path?_toTrajectory path
  have hconcludes := sv.solveWithin_cases p g clock budget
  generalize sv.solveWithin p g clock budget = solved at hconcludes h carries
  cases hconcludes with
  | refused hinit =>
    -- what refuses the arguments is another error
    cases h
    rw [initialize?_eq] at hinit
    split at hinit
    next => cases hinit
    next => split at hinit <;> cases hinit
  | misused => cases h
  | @invalid p' w e hinit hbudget hinfinite he =>
    cases h
    obtain ⟨rfl, rfl⟩ := SolverError.invalidNumericValue.inj he
    obtain ⟨hstarts, hcost⟩ := starts_of_initialize? hinit
    refine carries rfl rfl ?_
    rw [hcost] at hinfinite ⊢
    refine .cost hstarts ?_ hinfinite
    rintro r₀ ⟨hinit', hfin⟩
    obtain ⟨rfl, rfl⟩ := Prod.mk.inj (Except.ok.inj (hinit.symm.trans hinit'))
    rw [hcost, hinfinite] at hfin
    cases hfin
  | ended => cases h
  | @failed r₀ r r' i e hbegin hbudget hperf hfail =>
    obtain ⟨-, -, hworkspace, rfl⟩ := hbegin.undefined_of_fail hperf hfail
    cases h
    refine carries rfl ?_ (hbegin.meets_of_fail hperf hfail)
    show r'.workspace.path.toTrajectory = _
    rw [hworkspace]

/-- A point at `1` that nothing moves, and a cost at the end that is finite there without having a
finite slope. -/
def steep : Problem Float (.euclidean 1) [1] :=
  let stay : Model Float (.euclidean 1) 1 :=
    .lqr { Lqr.driftless (.identity 1) 0 0 (.identity 1) with
      lx := .replicate 1 1
      lu := .replicate 1 1 }
  let stop : Model Float (.euclidean 1) 0 :=
    .lqr { Lqr.terminal ((Mat.identity 1).scale 1e308) with lx := .replicate 1 1e308 }
  ⟨.replicate 1 1, .stage ⟨stay, .zero⟩ (.last ⟨0, stop, .zero⟩)⟩

set_option maxRecDepth 100000 in
/-- A step is taken to a path of ordinary numbers, and the next iteration fails there. -/
theorem error_carries_path_steep :
    ∃ t path, ((Solver.new .standard .none).solveWithin steep
        ⟨some [[1.6e308], [0]], some [[0]], true, none⟩ (fun _ => 0) 3).outcome =
          .error (.error (.solver (.invalidNumericValue (.derivatives 1) t))) ∧
      t = path.toTrajectory ∧ steep.FiniteAlong path ∧ ¬ steep.DefinedAlong path := by
  have hfails : (match ((Solver.new .standard .none).solveWithin steep
      ⟨some [[1.6e308], [0]], some [[0]], true, none⟩ (fun _ => 0) 3).outcome with
      | .error (.error (.solver (.invalidNumericValue (.derivatives k) _))) => decide (k = 1)
      | .error (.error (.problem _)) | .error (.error (.matrix _))
      | .error (.error (.state _)) | .error (.error (.observer _)) => false
      | _ => false) = true := by
    decide +kernel
  split at hfails
  next k t hout =>
    obtain rfl := of_decide_eq_true hfails
    obtain ⟨path, hcarries⟩ := error_carries_path hout
    have hmeets := hcarries.meets
    have htrajectory := hcarries.trajectory
    cases hmeets with
    | step hbegin hlast hfinite hundefined =>
      exact ⟨t, _, hout, htrajectory, hfinite, hundefined⟩
  all_goals cases hfails

set_option maxRecDepth 100000 in
/-- **The path that an error carries need not be valid**: where the first cost is not finite, it is
the path that was given. -/
theorem carried_cost_infinite :
    ∃ cause path, ((Solver.new .standard .none).solveWithin (Problem.push Float)
        ⟨some [[1e200], [0]], some [[0]], false, none⟩ (fun _ => 0) 3).outcome =
          .error (.error (.solver (.invalidNumericValue cause path.toTrajectory))) ∧
      ¬ (Problem.push Float).IsValidAlong path := by
  have hstart : ((Solver.new .standard .none).initialize? (Problem.push Float)
      ⟨some [[1e200], [0]], some [[0]], false, none⟩).toOption.any (fun start =>
        !Scalar.isFinite (start.1.evaluate start.2.path).totalCost) = true := by
    decide +kernel
  obtain ⟨⟨p', w⟩, hinit, hinfinite⟩ := exists_ok_of_any hstart
  have hinfinite : Scalar.isFinite (p'.evaluate w.path).totalCost = false := by
    simpa using hinfinite
  refine ⟨_, w.path, congrArg Solved.outcome
    (solveWithin_of_invalid hinit (by decide : 3 < Vec.sizeLimit) hinfinite _), ?_⟩
  intro hvalid
  have hcost := hvalid.cost
  rw [← (starts_of_initialize? hinit).2, hinfinite] at hcost
  cases hcost

end Solver

end Shooting
