import Shooting.Proofs.Config
import Shooting.Proofs.OrderedScalar
import Shooting.Proofs.Solver.Consistency
import Shooting.Proofs.Solver.Ledger
import Shooting.Proofs.Solver.Succession

/-!
# The regularization of a solver

A solve starts within the bounds of the regularization, and raising and lowering it stays within
them, whatever the factors are: `Config.Allows` is what the bounds say of one value, and
`Damping.Within` says of both regularizations that they are the same and within the bounds. An
iteration keeps this, whatever it comes to (`Iteration.within`), and reports nothing else
(`Run.Bounded`).

A solve is out of regularization exactly if an iteration is of no avail while the regularization is
at its upper bound (`Iterates.saturates`, `exists_iterates_of_saturated`).

A solver can be used for one problem after another, of whatever shape. `AnySolver` is a solver
without a shape, and what it keeps from one solve to the next is within the bounds from the first
solve on that is not refused.
-/

namespace Shooting

variable {α : Type} {s : StateSpace} {nus : List Nat}

section

variable [Scalar α]

/-- The value is within the bounds of the regularization. -/
structure Config.Allows (c : Config α) (r : α) : Prop where
  lower : c.regularizationMin ≤ r
  upper : r ≤ c.regularizationMax

/-- Both regularizations are the same, and within the bounds. -/
structure Damping.Within (c : Config α) (d : Damping α) : Prop where
  equal : d.control = d.state
  allowed : c.Allows d.state

end

variable [Scalar α] [OrderedScalar α]

/-! ## Values within the bounds -/

namespace Config

variable {c : Config α} {r : α}

theorem IsValid.min_isNaN (h : c.IsValid) : Scalar.isNaN c.regularizationMin = false :=
  OrderedScalar.isNaN_of_isFinite h.lower.1

theorem IsValid.max_isNaN (h : c.IsValid) : Scalar.isNaN c.regularizationMax = false :=
  OrderedScalar.isNaN_of_isFinite h.upper.1

theorem Allows.pos (hr : c.Allows r) (h : c.IsValid) : 0 < r :=
  OrderedScalar.lt_of_lt_of_le h.lower.2 hr.lower

theorem allows_min (h : c.IsValid) : c.Allows c.regularizationMin :=
  ⟨OrderedScalar.le_refl h.min_isNaN, h.upper.2⟩

theorem allows_max (h : c.IsValid) : c.Allows c.regularizationMax :=
  ⟨h.upper.2, OrderedScalar.le_refl h.max_isNaN⟩

/-- The regularization of a solve starts within the bounds, whatever is asked for. -/
theorem allows_initial (h : c.IsValid) {o : Option α} (hr : c.initialRegularization o = .ok r) :
    c.Allows r := by
  cases o with
  | none =>
    obtain rfl := Except.ok.inj hr
    exact allows_min h
  | some a =>
    unfold initialRegularization at hr
    dsimp only at hr
    split at hr
    next => cases hr
    next hnumber =>
      have hnumber : Scalar.isNaN a = false := by simpa using hnumber
      obtain rfl := Except.ok.inj hr
      unfold Scalar.clamp
      split
      next => exact allows_min h
      next hlower =>
        split
        next => exact allows_max h
        next hupper =>
          exact ⟨OrderedScalar.le_of_not_lt hnumber h.min_isNaN hlower,
            OrderedScalar.le_of_not_lt h.max_isNaN hnumber hupper⟩

/-- A solve starts with what is asked for if that is allowed. -/
theorem Allows.initial (hr : c.Allows r) (hnumber : Scalar.isNaN r = false) :
    c.initialRegularization (some r) = .ok r := by
  have hlower : ¬ r < c.regularizationMin := fun hlt =>
    OrderedScalar.lt_irrefl r (OrderedScalar.lt_of_lt_of_le hlt hr.lower)
  have hupper : ¬ c.regularizationMax < r := fun hlt =>
    OrderedScalar.lt_irrefl _ (OrderedScalar.lt_of_lt_of_le hlt hr.upper)
  unfold initialRegularization
  dsimp only
  rw [hnumber, if_neg Bool.false_ne_true]
  unfold Scalar.clamp
  rw [if_neg hlower, if_neg hupper]

/-- A factor may be infinite, and then the product is its bound. -/
theorem Allows.raised (hr : c.Allows r) (h : c.IsValid) : c.Allows (c.raise r) := by
  unfold Config.raise Scalar.min
  rw [h.max_isNaN]
  split
  next => exact allows_max h
  next hnumber =>
    rw [if_neg Bool.false_ne_true]
    split
    next => exact allows_max h
    next hupper =>
      have hgrows := OrderedScalar.le_mul (hr.pos h) h.factors.1
      exact ⟨OrderedScalar.le_trans hr.lower hgrows,
        OrderedScalar.le_of_not_lt h.max_isNaN (by simpa using hnumber) hupper⟩

theorem Allows.lowered (hr : c.Allows r) (h : c.IsValid) : c.Allows (c.lower r) := by
  unfold Config.lower Scalar.max
  rw [h.min_isNaN]
  split
  next => exact allows_min h
  next hnumber =>
    have hnumber : Scalar.isNaN (r / c.regularizationDecrease) = false := by simpa using hnumber
    rw [if_neg Bool.false_ne_true]
    split
    next => exact allows_min h
    next hlower =>
      have hshrinks := OrderedScalar.div_le (hr.pos h) h.factors.2 hnumber
      exact ⟨OrderedScalar.le_of_not_lt hnumber h.min_isNaN hlower,
        OrderedScalar.le_trans hshrinks hr.upper⟩

/-- Nothing is larger than the bound. -/
theorem raise_max (h : c.IsValid) : c.raise c.regularizationMax = c.regularizationMax := by
  have hpos := (allows_max h).pos h
  have hraised := (allows_max h).raised h
  have hgrows := OrderedScalar.le_mul hpos h.factors.1
  unfold Config.raise Scalar.min at hraised ⊢
  rw [h.max_isNaN] at hraised ⊢
  split
  next => rfl
  next =>
    rw [if_neg Bool.false_ne_true]
    split
    next => rfl
    next hupper =>
      rw [if_neg ‹_›, if_neg Bool.false_ne_true, if_neg hupper] at hraised
      exact (OrderedScalar.eq_of_le_of_le hpos hgrows hraised.upper).symm

/-- A value within the bounds that is not below the upper one is the upper one. -/
theorem Allows.eq_max_iff (hr : c.Allows r) (h : c.IsValid) :
    c.regularizationMax ≤ r ↔ r = c.regularizationMax := by
  refine ⟨fun hle => OrderedScalar.eq_of_le_of_le (hr.pos h) hr.upper hle, ?_⟩
  rintro rfl
  exact OrderedScalar.le_refl h.max_isNaN

end Config

/-! ## Workspaces -/

namespace Workspace

variable {c : Config α} {w : Workspace α s nus}

theorem within_start (h : c.IsValid) {o : Option α} {regularization : α}
    (hr : c.initialRegularization o = .ok regularization) (path : Path α s nus) (feasible : Bool) :
    (start path feasible regularization).damping.Within c :=
  ⟨rfl, Config.allows_initial h hr⟩

theorem within_raise (hw : w.damping.Within c) (h : c.IsValid) : (w.raise c).damping.Within c :=
  ⟨congrArg c.raise hw.equal, hw.allowed.raised h⟩

theorem within_lower (hw : w.damping.Within c) (h : c.IsValid) : (w.lower c).damping.Within c :=
  ⟨congrArg c.lower hw.equal, hw.allowed.lowered h⟩

theorem isSaturated_iff (hw : w.damping.Within c) (h : c.IsValid) :
    w.isSaturated c = true ↔ w.damping.state = c.regularizationMax := by
  unfold isSaturated
  rw [decide_eq_true_iff, hw.allowed.eq_max_iff h]

end Workspace

namespace Run

variable {c : Config α} {r r' : Run α s nus} {i n : Nat}

/-! ## Iterations -/

theorem within_afterBackwardFailure (hr : r.workspace.damping.Within c) (h : c.IsValid) (i : Nat) :
    (r.afterBackwardFailure c i).run.workspace.damping.Within c := by
  rcases afterBackwardFailure_cases c r i with ⟨-, heq⟩ | ⟨-, heq⟩ <;> rw [heq]
  · exact hr
  · exact Workspace.within_raise hr h

/-- Lowering and raising may both apply. -/
theorem within_afterStep (hr : r.workspace.damping.Within c) (h : c.IsValid) (i : Nat)
    (f : Found α s nus) (feasibility : α) :
    (r.afterStep c i f feasibility).run.workspace.damping.Within c := by
  have haccepted : (r.workspace.accept f.cost f.path f.length).damping.Within c := hr
  unfold afterStep
  dsimp only [Step.run, Run.report]
  split
  · split
    · exact Workspace.within_raise (Workspace.within_lower haccepted h) h
    · exact Workspace.within_raise haccepted h
  · split
    · exact Workspace.within_lower haccepted h
    · exact haccepted

theorem within_afterRejection (hr : r.workspace.damping.Within c) (h : c.IsValid) (i : Nat)
    (length feasibility : α) :
    (r.afterRejection c i length feasibility).run.workspace.damping.Within c := by
  rcases afterRejection_cases c r i length feasibility with ⟨-, heq⟩ | ⟨-, heq⟩ <;> rw [heq] <;>
    exact Workspace.within_raise hr h

/-- **Whatever an iteration comes to, the regularization stays within its bounds.** -/
theorem Iteration.within {step : Step α s nus} (hstep : r.Iteration c i step) (h : c.IsValid)
    (hr : r.workspace.damping.Within c) : step.run.workspace.damping.Within c := by
  have prepared {r₁ : Run α s nus} (hprep : r.refresh i = .ok r₁) :
      r₁.workspace.damping.Within c :=
    (prepares_refresh hprep).damping ▸ hr
  cases hstep with
  | invalid hprep =>
    obtain ⟨-, -, rfl, -⟩ := refresh_error hprep
    exact hr
  | @unplanned r₁ policy failure hprep hback =>
    have hr₁ := prepared hprep
    exact within_afterBackwardFailure (r := r₁.withdrawn policy failure) hr₁ h i
  | optimal hprep hback hend =>
    have hr₁ := prepared hprep
    exact hr₁
  | stepped hprep hback hgo hfound =>
    have hr₁ := prepared hprep
    exact within_afterStep (r := (Run.planned _ _).searched c) hr₁ h i _ _
  | rejected hprep hback hgo hfound =>
    have hr₁ := prepared hprep
    exact within_afterRejection (r := (Run.planned _ _).searched c) hr₁ h i _ _

/-- The regularization of the run is within its bounds, and so are all that were reported to the
observers since they were `o`. -/
structure Bounded (c : Config α) (o : Observers α) (r : Run α s nus) : Prop where
  within : r.workspace.damping.Within c
  reports : ∃ reports, r.observers = o.hearAll reports ∧
    ∀ report ∈ reports, report.metrics.damping.Within c

theorem Bounded.iterate {o : Observers α} (hr : r.Bounded c o) (h : c.IsValid) (i : Nat) :
    (r.iterate c i).run.Bounded c o := by
  have hwithin := (iterate_cases c r i).within h hr.within
  obtain ⟨reports, hobservers, hbounded⟩ := hr.reports
  refine ⟨hwithin, ?_⟩
  rcases (iterate_cases c r i).completes_or with ⟨m, hm, -⟩ | ⟨status, hm, -⟩ | ⟨e, hm, -⟩
  · refine ⟨reports ++ [⟨m, (r.iterate c i).run.workspace.path.toTrajectory⟩], ?_, ?_⟩
    · rw [hm.observers, hobservers, Observers.hearAll_append]
      rfl
    · intro report hreport
      rcases List.mem_append.mp hreport with hold | hnew
      · exact hbounded report hold
      · obtain rfl := List.mem_singleton.mp hnew
        exact hm.damping ▸ hwithin
  · exact ⟨reports, hm.observers.trans hobservers, hbounded⟩
  · exact ⟨reports, hm.observers.trans hobservers, hbounded⟩

/-! ## Running out of regularization -/

/-- Iteration number `i` from the run `r` is of no avail: its backward pass ends early, or none of
its steps is accepted. -/
inductive IsVain (c : Config α) (r : Run α s nus) (i : Nat) : Prop where
  | unplanned {r₁ : Run α s nus} {policy : Policy α s.ndx nus} {failure : BackwardFailure}
      (hprep : r.refresh i = .ok r₁) (hback : r₁.backward = (policy, some failure))
  | rejected {r₁ : Run α s nus} {policy : Policy α s.ndx nus}
      (hprep : r.refresh i = .ok r₁) (hback : r₁.backward = (policy, none))
      (hgo : (r₁.planned policy).workspace.verdict c = none)
      (hfound : ((r₁.planned policy).search c).found = none)

omit [OrderedScalar α] in
/-- A solve runs out of regularization in an iteration that is of no avail at the bound. -/
theorem Iteration.of_saturated {status : Status} {step : Step α s nus}
    (hstep : r.Iteration c i step) (hstop : step = .stop r' status n)
    (hstatus : status = .regularizationSaturated) :
    r.IsVain c i ∧ r.workspace.isSaturated c = true := by
  subst hstatus
  rcases hstep.ends hstop with
    ⟨-, r₁, policy, -, -, -, hend⟩ | ⟨-, r₁, policy, hprep, hbound, hvain⟩
  · cases Workspace.isConverged_of_verdict hend
  · unfold Workspace.isSaturated at hbound ⊢
    rw [(prepares_refresh hprep).damping] at hbound
    rcases hvain with ⟨failure, hback⟩ | ⟨hback, hgo, hfound⟩
    · exact ⟨.unplanned hprep hback, hbound⟩
    · exact ⟨.rejected hprep hback hgo hfound, hbound⟩

omit [OrderedScalar α] in
theorem afterBackwardFailure_of_saturated (h : r.workspace.isSaturated c = true) (i : Nat) :
    ∃ r', r.afterBackwardFailure c i = .stop r' .regularizationSaturated i ∧
      r'.workspace = r.workspace := by
  rcases afterBackwardFailure_cases c r i with ⟨-, heq⟩ | ⟨hshort, -⟩
  · exact ⟨_, heq, rfl⟩
  · exact absurd (hshort.symm.trans h) Bool.false_ne_true

omit [OrderedScalar α] in
theorem afterRejection_of_saturated (h : r.workspace.isSaturated c = true) (i : Nat)
    (length feasibility : α) :
    ∃ r', r.afterRejection c i length feasibility = .stop r' .regularizationSaturated (i + 1) ∧
      r'.workspace = r.workspace.raise c := by
  rcases afterRejection_cases c r i length feasibility with ⟨-, heq⟩ | ⟨hshort, -⟩
  · exact ⟨_, heq, rfl⟩
  · exact absurd (hshort.symm.trans h) Bool.false_ne_true

omit [OrderedScalar α] in
/-- An iteration whose backward pass ends early is of no avail. -/
theorem PassFails.isVain (h : r.PassFails i) : r.IsVain c i := by
  obtain ⟨r₁, policy, failure, hprep, hback⟩ := h
  exact .unplanned hprep hback

omit [OrderedScalar α] in
/-- Nothing is gained by an iteration that is of no avail. -/
theorem IsVain.stays (h : r.IsVain c i) : r.Stays (r.iterate c i).run := by
  cases h with
  | unplanned hprep hback =>
    rw [iterate_of_failure hprep hback]
    exact (stays_refresh hprep).trans (keeps_afterBackwardFailure c _ _ _ i).toStays
  | rejected hprep hback hgo hfound =>
    rw [iterate_of_not_found hprep hback hgo hfound]
    exact (stays_refresh hprep).trans (keeps_afterRejection c _ _ i _ _).toStays

omit [OrderedScalar α] in
/-- Short of the bound, an iteration that is of no avail raises the regularization and leaves one
more attempt. -/
theorem IsVain.next (h : r.IsVain c i) (hleft : r.workspace.isSaturated c = false) :
    ∃ r', r.iterate c i = .next r' ∧
      r'.workspace.damping = ⟨c.raise r.workspace.damping.state,
        c.raise r.workspace.damping.control⟩ := by
  unfold Workspace.isSaturated at hleft
  cases h with
  | @unplanned r₁ policy failure hprep hback =>
    rw [← (prepares_refresh hprep).damping] at hleft ⊢
    rw [iterate_of_failure hprep hback]
    rcases afterBackwardFailure_cases c (r₁.withdrawn policy failure) i with
      ⟨hbound, -⟩ | ⟨-, hnext⟩
    · exact absurd (hleft.symm.trans hbound) Bool.false_ne_true
    · exact ⟨_, hnext, rfl⟩
  | @rejected r₁ policy hprep hback hgo hfound =>
    rw [← (prepares_refresh hprep).damping] at hleft ⊢
    rw [iterate_of_not_found hprep hback hgo hfound]
    rcases afterRejection_cases c ((r₁.planned policy).searched c) i _ _ with
      ⟨hbound, -⟩ | ⟨-, hnext⟩
    · exact absurd (hleft.symm.trans hbound) Bool.false_ne_true
    · exact ⟨_, hnext, rfl⟩

omit [OrderedScalar α] in
/-- A pass that fails at the bound ends the solve, and its iteration is not completed. -/
theorem PassFails.stop (h : r.PassFails i) (hbound : r.workspace.isSaturated c = true) :
    ∃ r', r.iterate c i = .stop r' .regularizationSaturated i := by
  obtain ⟨r₁, policy, failure, hprep, hback⟩ := h
  have hsaturated : (r₁.withdrawn policy failure).workspace.isSaturated c = true := by
    unfold Workspace.isSaturated at hbound ⊢
    rwa [← (prepares_refresh hprep).damping] at hbound
  obtain ⟨r', hstop, -⟩ := afterBackwardFailure_of_saturated hsaturated i
  exact ⟨r', (iterate_of_failure hprep hback).trans hstop⟩

/-- An iteration that is of no avail at the bound ends the solve there. -/
theorem IsVain.stop (hvain : r.IsVain c i) (h : c.IsValid) (hr : r.workspace.damping.Within c)
    (hbound : r.workspace.damping.state = c.regularizationMax) :
    ∃ r' n, r.iterate c i = .stop r' .regularizationSaturated n ∧
      r'.workspace.damping = ⟨c.regularizationMax, c.regularizationMax⟩ := by
  have hdamping : r.workspace.damping = ⟨c.regularizationMax, c.regularizationMax⟩ := by
    rw [← hbound]
    exact congrArg (Damping.mk _) hr.equal
  have hsaturated := (Workspace.isSaturated_iff hr h).mpr hbound
  unfold Workspace.isSaturated at hsaturated
  cases hvain with
  | @unplanned r₁ policy failure hprep hback =>
    rw [← (prepares_refresh hprep).damping] at hsaturated hdamping
    obtain ⟨r', hstop, hworkspace⟩ :=
      afterBackwardFailure_of_saturated (r := r₁.withdrawn policy failure) hsaturated i
    refine ⟨r', i, (iterate_of_failure hprep hback).trans hstop, ?_⟩
    rw [hworkspace]
    exact hdamping
  | @rejected r₁ policy hprep hback hgo hfound =>
    rw [← (prepares_refresh hprep).damping] at hsaturated hdamping
    obtain ⟨r', hstop, hworkspace⟩ :=
      afterRejection_of_saturated (r := (r₁.planned policy).searched c) hsaturated i
        ((r₁.planned policy).search c).length (r₁.planned policy).workspace.feasibility
    refine ⟨r', i + 1, (iterate_of_not_found hprep hback hgo hfound).trans hstop, ?_⟩
    rw [hworkspace]
    show Damping.mk (c.raise r₁.workspace.damping.state)
      (c.raise r₁.workspace.damping.control) = _
    rw [hdamping, Config.raise_max h]

end Run

/-! ## Solves -/

/-- The regularizations that are answered. -/
def ConvergenceInfo.damping (i : ConvergenceInfo α) : Damping α :=
  ⟨i.stateRegularization, i.controlRegularization⟩

namespace Solver

variable {sv : Solver α s nus} {p : Problem α s nus} {g : Guess α} {clock : Nat → Nat}
  {budget i j n : Nat} {r₀ r r' : Run α s nus} {res : SolveResult α}

omit [OrderedScalar α] in
/-- A solve with these arguments does iteration number `i`, and does so from the run `r`. -/
structure Iterates (sv : Solver α s nus) (p : Problem α s nus) (g : Guess α) (clock : Nat → Nat)
    (budget i : Nat) (r : Run α s nus) : Prop where
  room : budget < Vec.sizeLimit
  performs : ∃ r₀, sv.Begins p g r₀ ∧ r₀.Performs sv.config clock budget i r

theorem within_initialize? {p' : Problem α s nus} {w : Workspace α s nus}
    (h : sv.initialize? p g = .ok (p', w)) : w.damping.Within sv.config := by
  obtain ⟨hvalid, regularization, path, feasible, hreg, -, rfl⟩ := initialize?_ok h
  exact Workspace.within_start (Config.isValid_of_validate hvalid) hreg path feasible

theorem Begins.bounded (h : sv.Begins p g r₀) : r₀.Bounded sv.config sv.observers := by
  obtain ⟨hinit, -⟩ := h
  have hwithin := within_initialize? hinit
  exact ⟨hwithin, [], rfl, nofun⟩

theorem Begins.bounded_of_reaches (h : sv.Begins p g r₀)
    (hreached : r₀.Reaches sv.config clock budget i r) : r.Bounded sv.config sv.observers :=
  hreached.induct h.bounded fun _ hr => hr.iterate (Config.isValid_of_validate h.validate) _

theorem Begins.bounded_of_ends {status : Status} (h : sv.Begins p g r₀)
    (hend : r₀.Ends sv.config clock budget r status n) : r.Bounded sv.config sv.observers :=
  hend.induct h.bounded fun _ hr => hr.iterate (Config.isValid_of_validate h.validate) _

/-- What every iteration of a solve can rely on once its run is prepared. -/
theorem Begins.prepared (h : sv.Begins p g r₀) (hreached : r₀.Reaches sv.config clock budget i r)
    (hprep : r.refresh i = .ok r') :
    r'.Consistent p ∧ r'.unexpanded = false ∧ r'.workspace.damping.Within sv.config := by
  obtain ⟨hc, hexp⟩ := Run.refresh_consistent (h.consistent_of_reaches hreached) hprep
  refine ⟨hc, hexp, ?_⟩
  rw [(Run.prepares_refresh hprep).damping]
  exact (h.bounded_of_reaches hreached).within

/-- The regularization is within its bounds before an iteration and after it. -/
theorem Iterates.within (h : sv.Iterates p g clock budget i r) :
    r.workspace.damping.Within sv.config ∧
      (r.iterate sv.config i).run.workspace.damping.Within sv.config := by
  obtain ⟨-, r₀, hbegin, hperf⟩ := h
  have hbounded := hbegin.bounded_of_reaches hperf.reached
  have hvalid := Config.isValid_of_validate hbegin.validate
  exact ⟨hbounded.within, (hbounded.iterate hvalid i).within⟩

/-- **However a solve ends, all it reports and the workspace it leaves are within the bounds.** Only
a refused solve leaves the workspace there was. -/
theorem Concludes.bounded {solved : Solved α s nus} (h : sv.Concludes p g clock budget solved) :
    (∀ w, solved.solver.workspace = some w →
        w.damping.Within sv.config ∨ sv.workspace = some w) ∧
      ∃ reports, solved.solver.observers = sv.observers.hearAll reports ∧
        ∀ report ∈ reports, report.metrics.damping.Within sv.config := by
  have untold : ∃ reports : List (Report α), sv.observers = sv.observers.hearAll reports ∧
      ∀ report ∈ reports, report.metrics.damping.Within sv.config := ⟨[], rfl, nofun⟩
  cases h with
  | refused hinit => exact ⟨fun w hw => .inr hw, untold⟩
  | misused hinit hbudget =>
    refine ⟨?_, untold⟩
    intro w hw
    obtain rfl := Option.some.inj hw
    exact .inl (within_initialize? hinit)
  | invalid hinit hbudget hinfinite he =>
    refine ⟨?_, untold⟩
    intro w hw
    obtain rfl := Option.some.inj hw
    exact .inl (within_initialize? hinit)
  | @ended r₀ r status n hbegin hbudget hend =>
    have hbounded := hbegin.bounded_of_ends hend
    obtain ⟨reports, hobservers, hreports⟩ := hbounded.reports
    refine ⟨?_, reports, r.settle_observers.trans hobservers, hreports⟩
    intro w hw
    obtain rfl := Option.some.inj hw
    rw [r.settle_damping]
    exact .inl hbounded.within
  | @failed r₀ r r' i e hbegin hbudget hperf hfail =>
    have hvalid := Config.isValid_of_validate hbegin.validate
    have hbounded := (hbegin.bounded_of_reaches hperf.reached).iterate hvalid i
    rw [hfail] at hbounded
    obtain ⟨reports, hobservers, hreports⟩ := hbounded.reports
    refine ⟨?_, reports, hobservers, hreports⟩
    intro w hw
    obtain rfl := Option.some.inj hw
    exact .inl hbounded.within

/-- What is answered is within the bounds. -/
theorem within_answer (h : (sv.solveWithin p g clock budget).outcome = .ok res) :
    res.info.damping.Within sv.config := by
  obtain ⟨r₀, r, status, n, hbegin, hend, hfinish⟩ := solveWithin_ok h
  rw [hfinish] at h
  obtain rfl := Except.ok.inj h
  show r.settle.workspace.damping.Within sv.config
  rw [r.settle_damping]
  exact (hbegin.bounded_of_ends hend).within

/-! ## Solves that run out of regularization -/

/-- An iteration that is of no avail at the bound ends the solve there, and is the last. -/
theorem Iterates.saturates (h : sv.Iterates p g clock budget i r) (hvain : r.IsVain sv.config i)
    (hbound : r.workspace.damping.state = sv.config.regularizationMax) :
    (∀ j r', sv.Iterates p g clock budget j r' → j ≤ i) ∧
      ∃ res, (sv.solveWithin p g clock budget).outcome = .ok res ∧
        res.status = .regularizationSaturated ∧
        res.info.damping = ⟨sv.config.regularizationMax, sv.config.regularizationMax⟩ := by
  have hwithin := h.within.1
  obtain ⟨hbudget, r₀, hbegin, hperf⟩ := h
  have hvalid := Config.isValid_of_validate hbegin.validate
  obtain ⟨r', n, hstop, hdamping⟩ := hvain.stop hvalid hwithin hbound
  refine ⟨?_, ?_⟩
  · rintro j r'' ⟨-, r₀', hbegin', hperf'⟩
    obtain rfl := hbegin.unique hbegin'
    exact hperf.last hstop hperf'
  · rw [solveWithin_of_begins hbegin hbudget, hperf.iterateFrom_of_stop hstop]
    exact ⟨_, rfl, rfl, (r'.settle_damping).trans hdamping⟩

/-- A solve that is out of regularization came to an iteration that was of no avail at the bound. -/
theorem exists_iterates_of_saturated (h : (sv.solveWithin p g clock budget).outcome = .ok res)
    (hstatus : res.status = .regularizationSaturated) :
    ∃ i r, sv.Iterates p g clock budget i r ∧ r.IsVain sv.config i ∧
      r.workspace.damping.state = sv.config.regularizationMax := by
  obtain ⟨-, -, hbudget⟩ := begins_of_ok h
  obtain ⟨r₀, r, status, n, hbegin, hend, hfinish⟩ := solveWithin_ok h
  rw [hfinish] at h
  obtain rfl := Except.ok.inj h
  obtain rfl : status = .regularizationSaturated := hstatus
  cases hend with
  | @stop i _ r₁ _ _ hperf hstop =>
    have hiterates : sv.Iterates p g clock budget i r₁ := ⟨hbudget, r₀, hbegin, hperf⟩
    have hvalid := Config.isValid_of_validate hbegin.validate
    obtain ⟨hvain, hsaturated⟩ :=
      (Run.iterate_cases sv.config r₁ i).of_saturated hstop rfl
    exact ⟨i, r₁, hiterates, hvain,
      (Workspace.isSaturated_iff hiterates.within.1 hvalid).mp hsaturated⟩

end Solver

namespace AnySolver

variable {c : Config α} {sv : AnySolver α} {t : Task α}

/-- The regularization that the solver is left with, if any, is within the bounds. -/
structure Regular (c : Config α) (sv : AnySolver α) : Prop where
  config : sv.config = c
  within : ∀ d, sv.damping = some d → d.Within c

theorem Regular.after (h : sv.Regular c) (t : Task α) : (sv.after t).Regular c := by
  obtain ⟨rfl, hwithin⟩ := h
  refine ⟨sv.config_after t, ?_⟩
  intro d hd
  have hbounded := ((sv.solver t).solveWithin_cases t.problem t.guess t.clock t.budget).bounded.1
  unfold damping AnySolver.after ofSolver at hd
  dsimp only at hd
  cases hleft : (sv.solve t).solver.workspace with
  | none =>
    rw [hleft] at hd
    exact hwithin d hd
  | some w =>
    rw [hleft] at hd
    obtain rfl := Option.some.inj hd
    -- the solver had no workspace of this shape before
    exact (hbounded w hleft).resolve_right nofun

theorem Regular.afterAll (h : sv.Regular c) (ts : List (Task α)) : (sv.afterAll ts).Regular c := by
  induction ts generalizing sv with
  | nil => exact h
  | cons t ts ih => exact ih (h.after t)

omit [OrderedScalar α] in
/-- What is promised of the regularization of a solver when it is given a task. -/
structure Regulates (c : Config α) (sv : AnySolver α) (t : Task α) : Prop where
  /-- What the solver shows. -/
  shown : ∀ d, sv.damping = some d → d.Within c
  /-- Before every iteration and after it. -/
  iterations : ∀ i r, (sv.solver t).Iterates t.problem t.guess t.clock t.budget i r →
    r.workspace.damping.Within c ∧ (r.iterate c i).run.workspace.damping.Within c
  /-- In all figures that observers are told. -/
  reports : ∃ reports, (sv.solve t).solver.observers = sv.observers.hearAll reports ∧
    ∀ report ∈ reports, report.metrics.damping.Within c
  answer : ∀ res, (sv.solve t).outcome = .ok res → res.info.damping.Within c
  saturated : (∃ res, (sv.solve t).outcome = .ok res ∧ res.status = .regularizationSaturated) ↔
    ∃ i r, (sv.solver t).Iterates t.problem t.guess t.clock t.budget i r ∧ r.IsVain c i ∧
      r.workspace.damping.state = c.regularizationMax
  /-- The iteration in which the solve runs out of regularization is the last. -/
  last : ∀ i r, (sv.solver t).Iterates t.problem t.guess t.clock t.budget i r → r.IsVain c i →
    r.workspace.damping.state = c.regularizationMax →
      (∀ j r', (sv.solver t).Iterates t.problem t.guess t.clock t.budget j r' → j ≤ i) ∧
        ∀ res, (sv.solve t).outcome = .ok res →
          res.info.damping = ⟨c.regularizationMax, c.regularizationMax⟩

theorem Regular.regulates (h : sv.Regular c) (t : Task α) : sv.Regulates c t := by
  obtain ⟨rfl, hshown⟩ := h
  have hconcludes := (sv.solver t).solveWithin_cases t.problem t.guess t.clock t.budget
  refine ⟨hshown, fun i r h => h.within, hconcludes.bounded.2, fun res => Solver.within_answer,
    ⟨?_, ?_⟩, ?_⟩
  · rintro ⟨res, houtcome, hstatus⟩
    exact Solver.exists_iterates_of_saturated houtcome hstatus
  · rintro ⟨i, r, hiterates, hvain, hbound⟩
    obtain ⟨-, res, houtcome, hstatus, -⟩ := hiterates.saturates hvain hbound
    exact ⟨res, houtcome, hstatus⟩
  · intro i r hiterates hvain hbound
    obtain ⟨hlast, res, houtcome, -, hdamping⟩ := hiterates.saturates hvain hbound
    refine ⟨hlast, ?_⟩
    intro res' houtcome'
    obtain rfl := Except.ok.inj (houtcome.symm.trans houtcome')
    exact hdamping

/-- **The regularization of a solver stays within its bounds** through any number of solves, from
the first one on that is not refused, and a solve runs out of it exactly in an iteration that is of
no avail at the upper bound. -/
theorem regularization_within_bounds (c : Config Float) (o : Observers Float)
    (ts : List (Task Float)) (t : Task Float) :
    (((new c o).afterAll ts).damping.isSome = true ↔ ∃ t ∈ ts, t.IsAdmitted c) ∧
      ((new c o).afterAll ts).Regulates c t := by
  have hnew : (new c o).Regular c := ⟨rfl, nofun⟩
  refine ⟨?_, (hnew.afterAll ts).regulates t⟩
  unfold damping
  rw [Option.isSome_map, isSome_last_afterAll]
  exact or_iff_left Bool.false_ne_true

/-- The task to push a point, with an infinite regularization to start from. -/
def pushHard : Task Float where
  space := .euclidean 1
  controls := [1]
  problem := .push Float
  guess := ⟨none, none, false, some (1 / 0)⟩
  clock := fun _ => 0
  budget := 3

set_option maxRecDepth 100000 in
/-- A solver that was asked for an infinite regularization is left with one within the bounds. -/
theorem regularization_within_bounds_push :
    ∃ d, ((new Config.standard .none).afterAll [pushHard]).damping = some d ∧
      d.Within Config.standard := by
  have hadmitted : pushHard.IsAdmitted .standard := by
    have hok : ((Solver.new Config.standard .none).initialize? (Problem.push Float)
        pushHard.guess).toOption.isSome = true := by decide +kernel
    cases hinit : (Solver.new Config.standard .none).initialize? (Problem.push Float)
        pushHard.guess with
    | error e => simp [hinit, Except.toOption] at hok
    | ok started => exact ⟨started, hinit⟩
  obtain ⟨hsome, hregulates⟩ :=
    regularization_within_bounds .standard .none [pushHard] pushHard
  obtain ⟨d, hd⟩ := Option.isSome_iff_exists.mp (hsome.mpr ⟨_, .head _, hadmitted⟩)
  exact ⟨d, hd, hregulates.shown d hd⟩

end AnySolver

end Shooting
