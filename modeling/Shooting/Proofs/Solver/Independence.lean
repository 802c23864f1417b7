import Shooting.Proofs.Solver.Course

/-!
# What a solve does not depend on

Observers and logs do not influence a solve: runs that differ in nothing else are twins
(`Run.Twins`), and stay so (`Run.Twins.iterateFrom`).

Nor does it matter what was done before. A problem remembers the last evaluation and the last
expansion of each of its stages, and whoever worked on it, a solve evaluates the path it starts from
and its first iteration expands it. So two solves of problems that ask the same begin with runs that
differ at most in the stored expansions (`Run.Alike`), and are twins from the first iteration on
(`Run.Alike.iterate`).

No law of arithmetic is used.
-/

namespace Shooting

variable {α : Type} {s : StateSpace} {nus : List Nat}

namespace Run

/-- The runs differ in nothing but observers and logs. -/
structure Twins (r r' : Run α s nus) : Prop where
  problem : r'.problem = r.problem
  workspace : r'.workspace = r.workspace
  tally : r'.tally = r.tally
  initialCost : r'.initialCost = r.initialCost
  unexpanded : r'.unexpanded = r.unexpanded
  stale : r'.stale = r.stale

/-- The runs may differ in the stored expansions, too, as long as new ones are due. -/
structure Alike (r r' : Run α s nus) : Prop where
  same : r'.problem.Same r.problem
  evaluations : r'.problem.stages.storedEvaluations = r.problem.stages.storedEvaluations
  expanded : r.unexpanded = false → r'.problem = r.problem
  workspace : r'.workspace = r.workspace
  tally : r'.tally = r.tally
  initialCost : r'.initialCost = r.initialCost
  unexpanded : r'.unexpanded = r.unexpanded
  stale : r'.stale = r.stale

theorem Twins.alike {r r' : Run α s nus} (h : r.Twins r') : r.Alike r' :=
  ⟨h.problem ▸ .refl _, congrArg (·.stages.storedEvaluations) h.problem, fun _ => h.problem,
    h.workspace, h.tally, h.initialCost, h.unexpanded, h.stale⟩

end Run

/-- The steps are of one kind and lead to twins. -/
inductive Step.Twins : Step α s nus → Step α s nus → Prop where
  | next {r r' : Run α s nus} (h : r.Twins r') : Twins (.next r) (.next r')
  | stop {r r' : Run α s nus} (h : r.Twins r') (status : Status) (n : Nat) :
      Twins (.stop r status n) (.stop r' status n)
  | fail {r r' : Run α s nus} (h : r.Twins r') (e : SolverError α) :
      Twins (.fail r e) (.fail r' e)

variable [Scalar α]

namespace Run

variable {c : Config α} {r r' : Run α s nus} {i : Nat}

/-! ## One iteration -/

namespace Twins

theorem backward (h : r.Twins r') : r'.backward = r.backward := by
  unfold Run.backward
  rw [h.workspace, h.problem]

theorem search (h : r.Twins r') (c : Config α) : r'.search c = r.search c := by
  unfold Run.search
  rw [h.workspace, h.problem]

omit [Scalar α] in
theorem withdrawn (h : r.Twins r') (policy : Policy α s.ndx nus) (failure : BackwardFailure) :
    (r.withdrawn policy failure).Twins (r'.withdrawn policy failure) :=
  ⟨h.problem, congrArg (fun w : Workspace α s nus => { w with policy }) h.workspace, h.tally,
    h.initialCost, h.unexpanded, h.stale⟩

theorem planned (h : r.Twins r') (policy : Policy α s.ndx nus) :
    (r.planned policy).Twins (r'.planned policy) :=
  ⟨h.problem,
    congrArg (fun w : Workspace α s nus =>
      { w with policy, expected := .ofPolicy policy w.gaps w.feasible }) h.workspace,
    h.tally, h.initialCost, h.unexpanded, h.stale⟩

theorem searched (h : r.Twins r') (c : Config α) : (r.searched c).Twins (r'.searched c) := by
  have hsearch := h.search c
  refine ⟨congrArg LineSearch.problem hsearch, h.workspace, ?_, h.initialCost, h.unexpanded,
    h.stale⟩
  unfold Run.searched
  rw [hsearch, h.tally]

theorem afterBackwardFailure (h : r.Twins r') (c : Config α) (i : Nat) :
    (r.afterBackwardFailure c i).Twins (r'.afterBackwardFailure c i) := by
  obtain ⟨p, w, o, t, cost, unexpanded, stale, log⟩ := r
  obtain ⟨p', w', o', t', cost', unexpanded', stale', log'⟩ := r'
  obtain ⟨rfl, rfl, rfl, rfl, rfl, rfl⟩ := h
  unfold Run.afterBackwardFailure
  dsimp only
  split
  · refine .stop ?_ _ _
    exact ⟨rfl, rfl, rfl, rfl, rfl, rfl⟩
  · refine .next ?_
    exact ⟨rfl, rfl, rfl, rfl, rfl, rfl⟩

theorem afterStep (h : r.Twins r') (c : Config α) (i : Nat) (f : Found α s nus) (feasibility : α) :
    (r.afterStep c i f feasibility).Twins (r'.afterStep c i f feasibility) := by
  obtain ⟨p, w, o, t, cost, unexpanded, stale, log⟩ := r
  obtain ⟨p', w', o', t', cost', unexpanded', stale', log'⟩ := r'
  obtain ⟨rfl, rfl, rfl, rfl, rfl, rfl⟩ := h
  refine .next ?_
  exact ⟨rfl, rfl, rfl, rfl, rfl, rfl⟩

theorem afterRejection (h : r.Twins r') (c : Config α) (i : Nat) (length feasibility : α) :
    (r.afterRejection c i length feasibility).Twins (r'.afterRejection c i length feasibility) := by
  obtain ⟨p, w, o, t, cost, unexpanded, stale, log⟩ := r
  obtain ⟨p', w', o', t', cost', unexpanded', stale', log'⟩ := r'
  obtain ⟨rfl, rfl, rfl, rfl, rfl, rfl⟩ := h
  unfold Run.afterRejection
  dsimp only
  split
  · refine .stop ?_ _ _
    exact ⟨rfl, rfl, rfl, rfl, rfl, rfl⟩
  · refine .next ?_
    exact ⟨rfl, rfl, rfl, rfl, rfl, rfl⟩

end Twins
/-! What an iteration works on once the run is prepared is the same for both. -/

namespace Alike

/-- Preparing them makes twins of both, or fails for both. -/
theorem refresh (h : r.Alike r') (i : Nat) :
    (∃ r₁ r₁', r.refresh i = .ok r₁ ∧ r'.refresh i = .ok r₁' ∧ r₁.Twins r₁') ∨
      ∃ q q' e, r.refresh i = .error (q, e) ∧ r'.refresh i = .error (q', e) ∧ q.Twins q' := by
  obtain ⟨p, w, o, t, cost, unexpanded, stale, log⟩ := r
  obtain ⟨p', w', o', t', cost', unexpanded', stale', log'⟩ := r'
  obtain ⟨hsame, hevals, hexpanded, rfl, rfl, rfl, rfl, rfl⟩ := h
  have hexpand := Problem.expand_congr hsame hevals w'.path
  unfold Run.refresh
  dsimp only at hsame hevals hexpanded ⊢
  rw [hexpand]
  cases unexpanded' with
  | false => exact .inl ⟨_, _, rfl, rfl, hexpanded rfl, rfl, rfl, rfl, rfl, rfl⟩
  | true =>
    rw [if_pos rfl, if_pos rfl]
    split
    next => exact .inl ⟨_, _, rfl, rfl, rfl, rfl, rfl, rfl, rfl, rfl⟩
    next => exact .inr ⟨_, _, _, rfl, rfl, rfl, rfl, rfl, rfl, rfl, rfl⟩

theorem refresh_ok (h : r.Alike r') {r₁ : Run α s nus} (hprep : r.refresh i = .ok r₁) :
    ∃ r₁', r'.refresh i = .ok r₁' ∧ r₁.Twins r₁' := by
  rcases h.refresh i with ⟨_, r₁', hr, hr', htwins⟩ | ⟨_, _, _, hr, -⟩
  · obtain rfl := Except.ok.inj (hr.symm.trans hprep)
    exact ⟨r₁', hr', htwins⟩
  · rw [hr] at hprep
    cases hprep

theorem refresh_error (h : r.Alike r') {q : Run α s nus} {e : SolverError α}
    (hprep : r.refresh i = .error (q, e)) :
    ∃ q', r'.refresh i = .error (q', e) ∧ q.Twins q' := by
  rcases h.refresh i with ⟨_, _, hr, -⟩ | ⟨_, q', _, hr, hr', htwins⟩
  · rw [hr] at hprep
    cases hprep
  · obtain ⟨rfl, rfl⟩ := Prod.mk.inj (Except.error.inj (hr.symm.trans hprep))
    exact ⟨q', hr', htwins⟩

end Alike

/-- **Of runs that are alike, an iteration makes twins.** -/
theorem Iteration.twins {step : Step α s nus} (hstep : r.Iteration c i step) (h : r.Alike r') :
    step.Twins (r'.iterate c i) := by
  cases hstep with
  | invalid hprep =>
    obtain ⟨q', hprep', htwins⟩ := h.refresh_error hprep
    rw [iterate_of_invalid c hprep']
    exact .fail htwins _
  | unplanned hprep hback =>
    obtain ⟨r₁', hprep', htwins⟩ := h.refresh_ok hprep
    rw [iterate_of_failure hprep' (htwins.backward.trans hback)]
    exact (htwins.withdrawn _ _).afterBackwardFailure c i
  | @optimal r₁ policy status hprep hback hend =>
    obtain ⟨r₁', hprep', htwins⟩ := h.refresh_ok hprep
    have hplanned := htwins.planned policy
    rw [← hplanned.workspace] at hend
    rw [iterate_of_verdict hprep' (htwins.backward.trans hback) hend]
    exact .stop hplanned _ _
  | @stepped r₁ policy f hprep hback hgo hfound =>
    obtain ⟨r₁', hprep', htwins⟩ := h.refresh_ok hprep
    have hplanned := htwins.planned policy
    rw [← hplanned.workspace] at hgo ⊢
    rw [← hplanned.search] at hfound
    rw [iterate_of_found hprep' (htwins.backward.trans hback) hgo hfound]
    exact (hplanned.searched c).afterStep c i f _
  | @rejected r₁ policy hprep hback hgo hfound =>
    obtain ⟨r₁', hprep', htwins⟩ := h.refresh_ok hprep
    have hplanned := htwins.planned policy
    rw [← hplanned.workspace] at hgo ⊢
    rw [← hplanned.search] at hfound ⊢
    rw [iterate_of_not_found hprep' (htwins.backward.trans hback) hgo hfound]
    exact (hplanned.searched c).afterRejection c i _ _

theorem Alike.iterate (h : r.Alike r') (c : Config α) (i : Nat) :
    (r.iterate c i).Twins (r'.iterate c i) :=
  (iterate_cases c r i).twins h

end Run

/-! ## All iterations -/

omit [Scalar α] in
/-- Two solves leave the same, observers and logs apart. -/
structure Solved.Twins (d d' : Solved α s nus) : Prop where
  problem : d'.problem = d.problem
  workspace : d'.solver.workspace = d.solver.workspace
  outcome : d'.outcome = d.outcome

omit [Scalar α] in
/-- Two solves leave the same, observers, logs and stored expansions apart. -/
structure Solved.Alike (d d' : Solved α s nus) : Prop where
  same : d'.problem.Same d.problem
  evaluations : d'.problem.stages.storedEvaluations = d.problem.stages.storedEvaluations
  workspace : d'.solver.workspace = d.solver.workspace
  outcome : d'.outcome = d.outcome

omit [Scalar α] in
theorem Solved.Twins.alike {d d' : Solved α s nus} (h : d.Twins d') : d.Alike d' :=
  ⟨h.problem ▸ .refl _, congrArg (·.stages.storedEvaluations) h.problem, h.workspace, h.outcome⟩

namespace Run

variable {c : Config α} {clock clock' : Nat → Nat} {r r' : Run α s nus}

theorem Twins.finish (h : r.Twins r') (c : Config α) (status : Status) (n : Nat) :
    (r.finish c status n).Twins (r'.finish c status n) := by
  obtain ⟨p, w, o, t, cost, unexpanded, stale, log⟩ := r
  obtain ⟨p', w', o', t', cost', unexpanded', stale', log'⟩ := r'
  obtain ⟨rfl, rfl, rfl, rfl, rfl, rfl⟩ := h
  cases stale' <;> exact ⟨rfl, rfl, rfl⟩

omit [Scalar α] in
theorem Twins.abort (h : r.Twins r') (c : Config α) (e : SolverError α) :
    (r.abort c e).Twins (r'.abort c e) :=
  ⟨h.problem, congrArg some h.workspace, rfl⟩

/-- Once the steps of an iteration are twins, the solves go on in the same way if twins do. -/
theorem iterateFrom_of_twins {left i : Nat} (htime : isTimedOut c clock' i = isTimedOut c clock i)
    (hstart : isTimedOut c clock i = false) (hstep : (r.iterate c i).Twins (r'.iterate c i))
    (hnext : ∀ {r₁ r₁' : Run α s nus}, r₁.Twins r₁' →
      (r₁.iterateFrom c clock left (i + 1)).Twins (r₁'.iterateFrom c clock' left (i + 1))) :
    (r.iterateFrom c clock (left + 1) i).Twins (r'.iterateFrom c clock' (left + 1) i) := by
  unfold Run.iterateFrom
  rw [htime, hstart, if_neg Bool.false_ne_true, if_neg Bool.false_ne_true]
  generalize r.iterate c i = step at hstep ⊢
  generalize r'.iterate c i = step' at hstep ⊢
  cases hstep with
  | next h₁ => exact hnext h₁
  | stop h₁ status n => exact h₁.finish c status n
  | fail h₁ e => exact h₁.abort c e

/-- **Solves go on from twins in the same way** if their time limits pass in the same iterations. -/
theorem Twins.iterateFrom (htime : ∀ i, isTimedOut c clock' i = isTimedOut c clock i) :
    ∀ (left i : Nat) {r r' : Run α s nus}, r.Twins r' →
      (r.iterateFrom c clock left i).Twins (r'.iterateFrom c clock' left i)
  | 0, i, _, _, h => h.finish c .maxIterationsReached i
  | left + 1, i, r, r', h => by
    cases hlate : isTimedOut c clock i with
    | true =>
      unfold Run.iterateFrom
      rw [htime, hlate, if_pos rfl, if_pos rfl]
      exact h.finish c .timeout i
    | false =>
      exact iterateFrom_of_twins (htime i) hlate (h.alike.iterate c i)
        fun h₁ => iterateFrom htime left (i + 1) h₁

/-- So do solves that go on from runs that are alike, once they have an iteration to do. -/
theorem Alike.iterateFrom (htime : ∀ i, isTimedOut c clock' i = isTimedOut c clock i)
    {left i : Nat} (hpos : 0 < left) (hstart : isTimedOut c clock i = false) (h : r.Alike r') :
    (r.iterateFrom c clock left i).Twins (r'.iterateFrom c clock' left i) := by
  obtain ⟨left, rfl⟩ : ∃ n, left = n + 1 := ⟨left - 1, by omega⟩
  exact iterateFrom_of_twins (htime i) hstart (h.iterate c i)
    fun h₁ => h₁.iterateFrom htime left (i + 1)

/-- Without an iteration the stored expansions stay as they were. -/
theorem Alike.finish (h : r.Alike r') (hfresh : r.stale = false) (c : Config α) (status : Status)
    (n : Nat) : (r.finish c status n).Alike (r'.finish c status n) := by
  obtain ⟨p, w, o, t, cost, unexpanded, stale, log⟩ := r
  obtain ⟨p', w', o', t', cost', unexpanded', stale', log'⟩ := r'
  obtain ⟨hsame, hevals, -, rfl, rfl, rfl, rfl, rfl⟩ := h
  dsimp only at hsame hevals hfresh
  subst hfresh
  have hgaps := Problem.gaps_congr hsame hevals w'.path
  refine ⟨hsame, hevals, ?_, ?_⟩ <;> unfold Run.finish Run.settle <;> dsimp only [Run.solver]
  · simp [hgaps]
  · simp [hgaps, Run.info]

end Run

/-! ## The beginning -/

namespace Solver

variable {sv sv' : Solver α s nus} {p q : Problem α s nus} {g : Guess α}

theorem zeroControls_congr (p q : Problem α s nus) :
    (p.stages.running fun st => st.zeroControl.toList) =
      q.stages.running fun st => st.zeroControl.toList := by
  have hzeros {nus : List Nat} (a : Stages α s nus) :
      (a.running fun st => st.zeroControl.toList) = nus.map fun nu => (0 : Vec α nu).toList := by
    induction a with
    | last => rfl
    | stage st as ih => exact congrArg (_ :: ·) ih
  rw [hzeros, hzeros]

/-- The path from which a solve starts, or the fault for which it is refused, depends on what the
problem asks alone. -/
theorem initialPath_congr (hsame : q.Same p) (g : Guess α) :
    (initialPath q g).map Prod.snd = (initialPath p g).map Prod.snd := by
  unfold initialPath
  dsimp only
  rw [zeroControls_congr q p]
  generalize g.controls.getD _ = us
  cases g.states with
  | some xs =>
    have hpath : q.path? xs us = p.path? xs us := rfl
    dsimp only
    rw [hpath]
    cases p.path? xs us <;> rfl
  | none =>
    have hcontrols : q.controls? us = p.controls? us := rfl
    have hrollout (us : Controls α nus) : (q.rollout us).2 = (p.rollout us).2 := by
      unfold Problem.rollout
      dsimp only
      rw [Stages.rolloutFrom_congr q.start us hsame.models, hsame.start]
    unfold Problem.rollout?
    dsimp only
    rw [hcontrols]
    cases p.controls? us with
    | error fault => rfl
    | ok us => exact congrArg (fun path => Except.ok (path, true)) (hrollout us)

/-- So does the workspace at the start of a solve. -/
theorem initialize?_congr (hconfig : sv'.config = sv.config) (hsame : q.Same p) (g : Guess α) :
    (sv'.initialize? q g).map Prod.snd = (sv.initialize? p g).map Prod.snd := by
  have hpath := initialPath_congr hsame g
  unfold initialize?
  dsimp only
  rw [hconfig]
  cases (sv.config.validate >>= fun _ =>
      sv.config.initialRegularization g.regularization).mapError
        fun fault => Error.solver (.invalidParameters fault) with
  | error e => rfl
  | ok regularization =>
    generalize initialPath q g = x at hpath ⊢
    generalize initialPath p g = y at hpath ⊢
    cases x with
    | error fault =>
      cases y with
      | error fault' =>
        cases hpath
        rfl
      | ok start' => cases hpath
    | ok start =>
      cases y with
      | error fault' => cases hpath
      | ok start' =>
        obtain ⟨q', path, feasible⟩ := start
        obtain ⟨p', path', feasible'⟩ := start'
        cases Except.ok.inj hpath
        rfl

/-- What happens to the arguments of two solves that are asked the same. -/
theorem initialize?_cases (hconfig : sv'.config = sv.config) (hsame : q.Same p) (g : Guess α) :
    (∃ e, sv.initialize? p g = .error e ∧ sv'.initialize? q g = .error e) ∨
      ∃ p' q' w, sv.initialize? p g = .ok (p', w) ∧ sv'.initialize? q g = .ok (q', w) ∧
        q'.Same p' := by
  have hboth := initialize?_congr hconfig hsame g
  cases hp : sv.initialize? p g with
  | error e =>
    cases hq : sv'.initialize? q g with
    | error e' =>
      rw [hp, hq] at hboth
      cases hboth
      exact .inl ⟨e, rfl, rfl⟩
    | ok started' =>
      rw [hp, hq] at hboth
      cases hboth
  | ok started =>
    cases hq : sv'.initialize? q g with
    | error e' =>
      rw [hp, hq] at hboth
      cases hboth
    | ok started' =>
      rw [hp, hq] at hboth
      obtain ⟨p', w⟩ := started
      obtain ⟨q', w'⟩ := started'
      cases Except.ok.inj hboth
      obtain ⟨-, _, _, _, -, hpath, -⟩ := initialize?_ok hp
      obtain ⟨-, _, _, _, -, hpath', -⟩ := initialize?_ok hq
      have hp' := (initialPath_ok hpath).1.toSame
      have hq' := (initialPath_ok hpath').1.toSame
      exact .inr ⟨p', q', w, rfl, rfl, hq'.trans (hsame.trans hp'.symm)⟩

/-- What one of them starts with, the other one starts with too. -/
theorem initialize?_same (hconfig : sv'.config = sv.config) (hsame : q.Same p)
    {p' : Problem α s nus} {w : Workspace α s nus} (hinit : sv.initialize? p g = .ok (p', w)) :
    ∃ q', sv'.initialize? q g = .ok (q', w) ∧ q'.Same p' := by
  rcases initialize?_cases hconfig hsame g with
    ⟨e, hrefused, -⟩ | ⟨_, q', _, hinit', hinitq, hsame'⟩
  · rw [hinit] at hrefused
    cases hrefused
  · obtain ⟨rfl, rfl⟩ := Prod.mk.inj (Except.ok.inj (hinit.symm.trans hinit'))
    exact ⟨q', hinitq, hsame'⟩

/-- Two solves that are asked the same begin with runs that are alike. -/
theorem alike_firstRun (sv sv' : Solver α s nus) (hsame : q.Same p) (w : Workspace α s nus) :
    (sv.firstRun p w).Alike (sv'.firstRun q w) := by
  have hp := p.same_evaluate w.path
  have hq := q.same_evaluate w.path
  have hevals : (q.evaluate w.path).stages.storedEvaluations =
      (p.evaluate w.path).stages.storedEvaluations := by
    show (q.stages.evaluate w.path).storedEvaluations = (p.stages.evaluate w.path).storedEvaluations
    rw [Stages.storedEvaluations_evaluate, Stages.storedEvaluations_evaluate, hsame.models]
  have hcost := Problem.totalCost_congr hevals
  refine ⟨hq.trans (hsame.trans hp.symm), hevals, nofun, ?_, rfl, hcost, rfl, rfl⟩
  exact congrArg (fun cost => { w with cost }) hcost

/-- With the same problem they are twins, whoever observes them. -/
theorem twins_firstRun (sv sv' : Solver α s nus) (p : Problem α s nus) (w : Workspace α s nus) :
    (sv.firstRun p w).Twins (sv'.firstRun p w) := ⟨rfl, rfl, rfl, rfl, rfl, rfl⟩

/-! ## Solves -/

variable {clock clock' : Nat → Nat} {budget : Nat}

/-- **Nothing depends on who observes a solve.** -/
theorem solveWithin_observers (sv : Solver α s nus) (o : Observers α) (p : Problem α s nus)
    (g : Guess α) (clock : Nat → Nat) (budget : Nat) :
    (sv.solveWithin p g clock budget).Twins
      (({ sv with observers := o } : Solver α s nus).solveWithin p g clock budget) := by
  cases hinit : sv.initialize? p g with
  | error e =>
    rw [solveWithin_of_refused hinit, solveWithin_of_refused (by exact hinit)]
    exact ⟨rfl, rfl, rfl⟩
  | ok started =>
    obtain ⟨p', w⟩ := started
    have hinit' : ({ sv with observers := o } : Solver α s nus).initialize? p g = .ok (p', w) :=
      hinit
    by_cases hbudget : budget < Vec.sizeLimit
    · cases hfin : Scalar.isFinite (p'.evaluate w.path).totalCost with
      | false =>
        rw [solveWithin_of_invalid hinit hbudget hfin, solveWithin_of_invalid hinit' hbudget hfin]
        exact ⟨rfl, rfl, rfl⟩
      | true =>
        rw [solveWithin_of_begins (.intro hinit hfin) hbudget,
          solveWithin_of_begins (.intro hinit' hfin) hbudget]
        exact (twins_firstRun sv _ p' w).iterateFrom (fun _ => rfl) budget 0
    · rw [solveWithin_of_misused hinit hbudget, solveWithin_of_misused hinit' hbudget]
      exact ⟨rfl, rfl, rfl⟩

theorem Begins.exists_alike {r₀ : Run α s nus} (h : sv.Begins p g r₀)
    (hconfig : sv'.config = sv.config) (hsame : q.Same p) :
    ∃ r₀', sv'.Begins q g r₀' ∧ r₀.Alike r₀' := by
  obtain @⟨p', w, hinit, hfin⟩ := h
  obtain ⟨q', hinitq, hsame'⟩ := initialize?_same hconfig hsame hinit
  have halike := alike_firstRun sv sv' hsame' w
  have hcost : (q'.evaluate w.path).totalCost = (p'.evaluate w.path).totalCost :=
    halike.initialCost
  exact ⟨_, .intro hinitq (hcost ▸ hfin), halike⟩

/-- **Two solves that are asked the same leave the same**, observers and logs apart, if they come to
an iteration. -/
theorem solveWithin_twins (hconfig : sv'.config = sv.config) (hsame : q.Same p)
    (htime : ∀ i, Run.isTimedOut sv.config clock' i = Run.isTimedOut sv.config clock i)
    {r₀ : Run α s nus} (hbegin : sv.Begins p g r₀) (hpos : 0 < budget)
    (hbudget : budget < Vec.sizeLimit) :
    (sv.solveWithin p g clock budget).Twins (sv'.solveWithin q g clock' budget) := by
  obtain ⟨r₀', hbegin', halike⟩ := hbegin.exists_alike hconfig hsame
  rw [solveWithin_of_begins hbegin hbudget, solveWithin_of_begins hbegin' hbudget, hconfig]
  exact halike.iterateFrom htime hpos rfl

/-- If they come to none, the stored expansions may differ. -/
theorem solveWithin_alike (hconfig : sv'.config = sv.config) (hsame : q.Same p)
    (htime : ∀ i, Run.isTimedOut sv.config clock' i = Run.isTimedOut sv.config clock i)
    {p' : Problem α s nus} {w : Workspace α s nus} (hinit : sv.initialize? p g = .ok (p', w))
    (hbudget : budget < Vec.sizeLimit) :
    (sv.solveWithin p g clock budget).Alike (sv'.solveWithin q g clock' budget) := by
  cases hfin : Scalar.isFinite (p'.evaluate w.path).totalCost with
  | false =>
    obtain ⟨q', hinitq, hsame'⟩ := initialize?_same hconfig hsame hinit
    have halike := alike_firstRun sv sv' hsame' w
    have hcost : (q'.evaluate w.path).totalCost = (p'.evaluate w.path).totalCost :=
      halike.initialCost
    rw [solveWithin_of_invalid hinit hbudget hfin,
      solveWithin_of_invalid hinitq hbudget (hcost ▸ hfin)]
    refine ⟨halike.same, halike.evaluations, rfl, ?_⟩
    dsimp only
    rw [hcost]
  | true =>
    have hbegin := Begins.intro hinit hfin
    rcases Nat.eq_zero_or_pos budget with rfl | hpos
    · obtain ⟨r₀', hbegin', halike⟩ := hbegin.exists_alike hconfig hsame
      rw [solveWithin_of_begins hbegin hbudget, solveWithin_of_begins hbegin' hbudget, hconfig]
      exact halike.finish rfl _ _ _
    · exact (solveWithin_twins hconfig hsame htime hbegin hpos hbudget).alike

end Solver

end Shooting
