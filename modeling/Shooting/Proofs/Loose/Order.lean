import Shooting.Proofs.Loose.Sweep

/-!
# The order in which stages are evaluated

A solve evaluates whole paths: the one it starts from, the current one of each iteration when it
expands the problem, and the last one if a candidate was evaluated since. `Solver.solveWithinIn` is
`Solver.solveWithin` with an order of the running stages for each of these sweeps; the candidates of
a line search are rolled out stage by stage, so there is nothing to be ordered in them.

`Problem.any_order_will_do` says that nothing depends on these orders: not what is stored, not the
cost, and nothing of a solve.
-/

namespace Shooting

variable {α : Type} [Scalar α] {s : StateSpace} {nus : List Nat}

/-- The orders in which a solve goes through the running stages: when it evaluates the path it starts
from, in the expansion of each iteration, and when it evaluates the last path again. -/
structure Orders where
  initial : List Nat
  expansion : (iteration : Nat) → List Nat
  final : List Nat

/-- Every order lists each of `n` stages once. -/
structure Orders.Complete (o : Orders) (n : Nat) : Prop where
  initial : o.initial.Perm (List.range n)
  expansion : ∀ i, (o.expansion i).Perm (List.range n)
  final : o.final.Perm (List.range n)

namespace Run

/-- `Run.refresh` with an order of its own. -/
def refreshIn (order : List Nat) (r : Run α s nus) (iteration : Nat) :
    Except (Run α s nus × SolverError α) (Run α s nus) :=
  if r.unexpanded then
    let problem := Sweep.expand.inOrder order r.problem r.workspace.path
    let r := { r with problem, tally.expansions := r.tally.expansions + 1 }
    if problem.stages.isFinite then
      .ok { r with
        workspace.gaps := problem.gaps r.workspace.path
        unexpanded := false }
    else .error (r.invalidValue (.derivatives iteration))
  else .ok r

/-- One iteration. The expansion it finds is that of the current path, and is not made again. -/
def iterateIn (order : List Nat) (c : Config α) (r : Run α s nus) (iteration : Nat) :
    Step α s nus :=
  match r.refreshIn order iteration with
  | .error (r, e) => .fail r e
  | .ok r => r.iterate c iteration

/-- Evaluates the current path again if a candidate was evaluated since. -/
def reevaluateIn (order : List Nat) (r : Run α s nus) : Run α s nus :=
  if r.stale then
    let problem := Sweep.evaluate.inOrder order r.problem r.workspace.path
    { r with
      problem
      workspace.cost := problem.totalCost
      tally.evaluations := r.tally.evaluations + 1
      stale := false }
  else r

/-- Ends a solve with a result. -/
def finishIn (order : List Nat) (c : Config α) (r : Run α s nus) (status : Status)
    (iterations : Nat) : Solved α s nus :=
  (r.reevaluateIn order).finish c status iterations

/-- Iterates at most `budget` more times, the next iteration being number `iteration`. -/
def iterateFromIn (o : Orders) (c : Config α) (clock : Nat → Nat) :
    (budget iteration : Nat) → Run α s nus → Solved α s nus
  | 0, iteration, r => r.finishIn o.final c .maxIterationsReached iteration
  | n + 1, iteration, r =>
    if isTimedOut c clock iteration then r.finishIn o.final c .timeout iteration
    else
      match r.iterateIn (o.expansion iteration) c iteration with
      | .next r => iterateFromIn o c clock n (iteration + 1) r
      | .stop r status iterations => r.finishIn o.final c status iterations
      | .fail r e => r.abort c e

end Run

/-- `Solver.solveWithin` with orders of its own. -/
def Solver.solveWithinIn (o : Orders) (sv : Solver α s nus) (p : Problem α s nus) (g : Guess α)
    (clock : Nat → Nat) (budget : Nat) : Solved α s nus :=
  let c := sv.config
  match sv.initialize? p g with
  | .error e => ⟨p, sv, [], .error (.error e)⟩
  | .ok (p, w) =>
    if budget < Vec.sizeLimit then
      let problem := Sweep.evaluate.inOrder o.initial p w.path
      let initialCost := problem.totalCost
      let r : Run α s nus :=
        { problem
          workspace := w
          observers := sv.observers
          tally := ⟨1, 0, 0, 0, 0, []⟩
          initialCost
          unexpanded := true
          stale := false
          log := [] }
      if Scalar.isFinite initialCost then
        let r := { r with workspace.cost := initialCost }.say [.configuration c, .lineHeader]
        r.iterateFromIn o c clock budget 0
      else
        let (r, e) := r.invalidValue (.initialCost initialCost)
        r.abort c e
    else ⟨p, { sv with workspace := some w }, [], .error .misuse⟩

namespace Run

/-- A run that was made ready stays as it is. -/
theorem refresh_refreshed {r r' : Run α s nus} {i : Nat} (h : r.refresh i = .ok r') (j : Nat) :
    r'.refresh j = .ok r' := by
  -- what comes out has either just been expanded or was so before
  have hready : r'.unexpanded = false := by
    unfold refresh at h
    by_cases hun : r.unexpanded = true
    · rw [if_pos hun] at h
      dsimp only at h
      split at h
      next =>
        obtain rfl := Except.ok.inj h
        rfl
      next => cases h
    · rw [if_neg hun] at h
      obtain rfl := Except.ok.inj h
      exact Bool.eq_false_iff.mpr hun
  unfold refresh
  rw [hready]
  rfl

/-- An iteration goes on from what `Run.refresh` makes of the run. -/
theorem iterate_eq (c : Config α) (r : Run α s nus) (i : Nat) :
    r.iterate c i = match r.refresh i with
      | .error (r, e) => .fail r e
      | .ok r => r.iterate c i := by
  cases h : r.refresh i with
  | error failed =>
    obtain ⟨r', e⟩ := failed
    unfold iterate
    rw [h]
  | ok r' =>
    -- on the right the iteration refreshes once more, and finds everything ready
    have hagain := refresh_refreshed h i
    unfold iterate
    rw [h]
    dsimp only
    rw [hagain]

section

variable {order : List Nat} (hperm : order.Perm (List.range nus.length))
include hperm

theorem iterateIn_eq (c : Config α) (r : Run α s nus) (i : Nat) :
    r.iterateIn order c i = r.iterate c i := by
  have hrefresh : r.refreshIn order i = r.refresh i := by
    unfold refreshIn
    rw [Sweep.inOrder_eq .expand hperm]
    rfl
  rw [iterate_eq, iterateIn, hrefresh]

theorem finishIn_eq (c : Config α) (r : Run α s nus) (status : Status) (iterations : Nat) :
    r.finishIn order c status iterations = r.finish c status iterations := by
  unfold finishIn reevaluateIn
  by_cases hstale : r.stale = true
  · rw [if_pos hstale, Sweep.inOrder_eq .evaluate hperm]
    unfold finish settle
    rw [if_pos hstale]
    rfl
  · rw [if_neg hstale]

end

/-- **The order is no matter in any number of iterations.** -/
theorem iterateFromIn_eq {o : Orders} (ho : o.Complete nus.length) (c : Config α)
    (clock : Nat → Nat) (budget : Nat) : ∀ (i : Nat) (r : Run α s nus),
    r.iterateFromIn o c clock budget i = r.iterateFrom c clock budget i := by
  induction budget with
  | zero =>
    intro i r
    exact finishIn_eq ho.final c r _ i
  | succ n ih =>
    intro i r
    rw [iterateFromIn, iterateFrom, finishIn_eq ho.final, iterateIn_eq (ho.expansion i)]
    by_cases htime : isTimedOut c clock i = true
    · rw [if_pos htime, if_pos htime]
    · rw [if_neg htime, if_neg htime]
      cases r.iterate c i with
      | next r' => exact ih (i + 1) r'
      | stop r' status iterations => exact finishIn_eq ho.final c r' status iterations
      | fail r' e => rfl

end Run

theorem Solver.solveWithinIn_eq {o : Orders} (ho : o.Complete nus.length) (sv : Solver α s nus)
    (p : Problem α s nus) (g : Guess α) (clock : Nat → Nat) (budget : Nat) :
    sv.solveWithinIn o p g clock budget = sv.solveWithin p g clock budget := by
  unfold solveWithinIn solveWithin
  simp only [Sweep.inOrder_eq .evaluate ho.initial, Run.iterateFromIn_eq ho]
  rfl

/-- **Any order will do.** For a problem of models of the library, a sweep that writes into the data
of one stage after the other comes to the typed sweep in the same order. If the order lists every
running stage once and the trajectory fits, it leaves the data and answers the cost that the sweep in
stage order does; and a solve with such orders leaves and answers what a solve does. -/
theorem Problem.any_order_will_do {p : Problem α s nus}
    (hlib : p.stages.models.ofLibrary = true) :
    (∀ (k : Sweep) (order : List Nat) (path : Path α s nus),
      LooseProblem.sweepInPlace k order path.toTrajectory.states path.toTrajectory.controls
        p.toLoose = .ok (k.inOrder order p path).totalCost (k.inOrder order p path).toLoose) ∧
    (∀ (k : Sweep) (order : List Nat) (xs us : List (List α)),
      order.Perm (List.range nus.length) → (⟨xs, us⟩ : Trajectory α).Fits p.toLoose →
      ∃ q : Problem α s nus, k.problem? p xs us = .ok (q, q.totalCost) ∧
        LooseProblem.sweepInPlace k (List.range nus.length) xs us p.toLoose =
          .ok q.totalCost q.toLoose ∧
        LooseProblem.sweepInPlace k order xs us p.toLoose = .ok q.totalCost q.toLoose) ∧
    ∀ (o : Orders) (sv : Solver α s nus) (g : Guess α) (clock : Nat → Nat) (budget : Nat),
      o.Complete nus.length →
      sv.solveWithinIn o p g clock budget = sv.solveWithin p g clock budget := by
  refine ⟨?_, ?_, ?_⟩
  · intro k order path
    exact LooseProblem.run_sweepInPlace hlib path k order
  · intro k order xs us hperm hfits
    obtain ⟨path, hlists⟩ := LooseProblem.exists_path_of_fits p hfits
    have hpath := path?_toTrajectory (p := p) path
    rw [hlists] at hpath
    have hsweep (order : List Nat) (hperm : order.Perm (List.range nus.length)) :
        LooseProblem.sweepInPlace k order xs us p.toLoose =
          .ok (k.problem p path).totalCost (k.problem p path).toLoose := by
      have hrun := LooseProblem.run_sweepInPlace hlib path k order
      rw [hlists, k.inOrder_eq hperm] at hrun
      exact hrun
    exact ⟨k.problem p path, k.problem?_of_path hpath, hsweep _ (.refl _), hsweep order hperm⟩
  · intro o sv g clock budget ho
    exact Solver.solveWithinIn_eq ho sv p g clock budget

/-- Two stages, one of them in finite differences, from the last to the first. -/
theorem Problem.any_order_will_do_backwards :
    let push : Model Float (.euclidean 1) 1 :=
      .lqr (.driftless (.identity 1) (.identity 1) (.identity 1) (.identity 1))
    let p : Problem Float (.euclidean 1) [1, 1] :=
      ⟨.replicate 1 1, .stage ⟨push, .zero⟩ (.stage ⟨.differenced .standard push, .zero⟩
        (.last ⟨1, push, .zero⟩))⟩
    let backwards : Orders := ⟨[1, 0], fun _ => [1, 0], [1, 0]⟩
    p.stages.models.ofLibrary = true ∧ backwards.Complete 2 ∧
      (⟨[[1], [2], [3]], [[4], [5]]⟩ : Trajectory Float).Fits p.toLoose ∧
      (∀ k : Sweep, ∃ q : Problem Float (.euclidean 1) [1, 1],
        LooseProblem.sweepInPlace k [0, 1] [[1], [2], [3]] [[4], [5]] p.toLoose =
          .ok q.totalCost q.toLoose ∧
        LooseProblem.sweepInPlace k [1, 0] [[1], [2], [3]] [[4], [5]] p.toLoose =
          .ok q.totalCost q.toLoose) ∧
      (Solver.new .standard .none).solveWithinIn backwards p .none (fun _ => 0) 3 =
        (Solver.new .standard .none).solveWithin p .none (fun _ => 0) 3 := by
  intro push p backwards
  have hperm : [1, 0].Perm (List.range 2) := by decide
  have hcomplete : backwards.Complete 2 := ⟨hperm, fun _ => hperm, hperm⟩
  have hfits : (⟨[[1], [2], [3]], [[4], [5]]⟩ : Trajectory Float).Fits p.toLoose := ⟨rfl, rfl⟩
  obtain ⟨-, hsweeps, hsolves⟩ := any_order_will_do (p := p) rfl
  refine ⟨rfl, hcomplete, hfits, ?_, hsolves backwards _ _ _ _ hcomplete⟩
  intro k
  obtain ⟨q, -, hstages, hbackwards⟩ := hsweeps k [1, 0] _ _ hperm hfits
  exact ⟨q, hstages, hbackwards⟩

end Shooting
