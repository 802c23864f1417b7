import Shooting.Proofs.Solver.Feasibility
import Shooting.Proofs.StrictModel

/-!
# What is not finite is kept out

A solve looks for values that are not ordinary numbers in three places: at the cost of the path it
starts from, at evaluations and derivatives when a path is expanded, and at states, controls and
evaluations while a candidate is rolled out. `Problem.FiniteAlong` is what these checks are for: the
states and the controls of a path and all that the models say along it are ordinary numbers.

* `Workspace.tryStep_iff`: a candidate is complete exactly if that is so along it, and no other one
  is ever looked at, whatever the thresholds are (`FoundBy.finiteAlong`);
* `Run.Vetted`, the invariant: a path that has been expanded is such a path. The check reads stage
  data alone, but a model of the library shows in them what is wrong with a state or a control;
* `Run.iterate_finiteAlong`: so is the path after every iteration that does not fail.

Gaps are not checked. They are differences of ordinary numbers and may overflow, unless they are
differences of states from themselves (`Problem.FiniteAlong.gaps`).
-/

namespace Shooting

variable {α : Type} [Scalar α] {s : StateSpace} {nus : List Nat}

/-! ## Paths of ordinary numbers -/

/-- The trajectory consists of ordinary numbers. -/
structure Trajectory.IsFinite (t : Trajectory α) : Prop where
  states : ∀ x ∈ t.states, ∀ a ∈ x, Scalar.isFinite a = true
  controls : ∀ u ∈ t.controls, ∀ a ∈ u, Scalar.isFinite a = true

/-- A path, and costs and next states along it, consist of ordinary numbers. -/
structure Models.FiniteAlong (ms : Models α s nus) (path : Path α s nus) : Prop where
  trajectory : path.toTrajectory.IsFinite
  evaluations : ∀ e ∈ (ms.evaluations path).toList id id, e.isFinite = true

/-- A path consists of ordinary numbers, and so do costs and next states along it. -/
def Problem.FiniteAlong (p : Problem α s nus) (path : Path α s nus) : Prop :=
  p.stages.models.FiniteAlong path

theorem Problem.Same.finiteAlong {p q : Problem α s nus} (h : p.Same q) (path : Path α s nus) :
    p.FiniteAlong path ↔ q.FiniteAlong path := by
  unfold Problem.FiniteAlong
  rw [h.models]

theorem Vec.isFinite_iff_mem {n : Nat} {v : Vec α n} :
    v.isFinite = true ↔ ∀ a ∈ v.toList, Scalar.isFinite a = true :=
  List.all_eq_true

namespace Models

theorem finiteAlong_last {m : (nu : Nat) × Model α s nu} {x : Vec α s.nx} :
    FiniteAlong (.last m) (.last x) ↔
      x.isFinite = true ∧ (m.2.evaluate x none).isFinite = true := by
  rw [Vec.isFinite_iff_mem]
  constructor
  · intro h
    exact ⟨h.trajectory.states _ (List.mem_singleton.mpr rfl),
      h.evaluations _ (List.mem_singleton.mpr rfl)⟩
  · rintro ⟨hx, he⟩
    refine ⟨⟨?_, nofun⟩, ?_⟩
    · exact List.forall_mem_singleton.mpr hx
    · exact List.forall_mem_singleton.mpr he

theorem finiteAlong_stage {nu : Nat} {m : Model α s nu} {ms : Models α s nus} {k : Knot α s nu}
    {ks : Path α s nus} :
    FiniteAlong (.stage m ms) (.stage k ks) ↔
      k.state.isFinite = true ∧ k.control.isFinite = true ∧
        (m.evaluate k.state (some k.control)).isFinite = true ∧ ms.FiniteAlong ks := by
  rw [Vec.isFinite_iff_mem, Vec.isFinite_iff_mem]
  constructor
  · rintro ⟨⟨hx, hu⟩, he⟩
    obtain ⟨hx₀, hx⟩ := List.forall_mem_cons.mp hx
    obtain ⟨hu₀, hu⟩ := List.forall_mem_cons.mp hu
    obtain ⟨he₀, he⟩ := List.forall_mem_cons.mp he
    exact ⟨hx₀, hu₀, he₀, ⟨hx, hu⟩, he⟩
  · rintro ⟨hx₀, hu₀, he₀, ⟨hx, hu⟩, he⟩
    exact ⟨⟨List.forall_mem_cons.mpr ⟨hx₀, hx⟩, List.forall_mem_cons.mpr ⟨hu₀, hu⟩⟩,
      List.forall_mem_cons.mpr ⟨he₀, he⟩⟩

/-- Whether all models are part of the library. -/
def ofLibrary : {nus : List Nat} → Models α s nus → Bool
  | _, .last m => m.2.ofLibrary
  | _, .stage m ms => m.ofLibrary && ofLibrary ms

/-- **Where the models find ordinary numbers, the path consists of them.** -/
theorem finiteAlong_of_evaluations [StrictScalar α] : ∀ {nus : List Nat} {ms : Models α s nus}
    {path : Path α s nus}, ms.ofLibrary = true →
    (∀ e ∈ (ms.evaluations path).toList id id, e.isFinite = true) → ms.FiniteAlong path
  | _, .last m, .last x, hlib, h => by
    have he := h _ (List.mem_singleton.mpr rfl)
    exact finiteAlong_last.mpr ⟨(Model.isFinite_of_evaluate hlib he).1, he⟩
  | _, .stage m ms, .stage k ks, hlib, h => by
    obtain ⟨hm, hms⟩ := Bool.and_eq_true_iff.mp hlib
    obtain ⟨he, hes⟩ := List.forall_mem_cons.mp h
    obtain ⟨hx, hu⟩ := Model.isFinite_of_evaluate hm he
    exact finiteAlong_stage.mpr ⟨hx, hu _ rfl, he, finiteAlong_of_evaluations hms hes⟩

end Models

namespace Problem.FiniteAlong

variable {p : Problem α s nus} {path : Path α s nus}

theorem isFinite_of_mem_stateList (h : p.FiniteAlong path) {x : Vec α s.nx}
    (hx : x ∈ path.stateList) : x.isFinite = true := by
  have hstates : path.toTrajectory.states = path.stateList.map Vec.toList :=
    (Horizon.toList_map Knot.state id Vec.toList path).symm
  refine Vec.isFinite_iff_mem.mpr (h.trajectory.states _ ?_)
  rw [hstates]
  exact List.mem_map_of_mem hx

/-- Predictions are ordinary numbers if those are that the first state is predicted by. -/
theorem isFinite_of_mem_predictionsAlong (h : p.FiniteAlong path)
    (hstart : p.start.isFinite = true) {x : Vec α s.nx} (hx : x ∈ p.predictionsAlong path) :
    x.isFinite = true := by
  rcases List.mem_cons.mp hx with rfl | hx
  · exact hstart
  · have hnexts : x ∈ ((p.stages.models.evaluations path).toList id id).map Evaluation.next := by
      rw [Horizon.toList_map]
      exact List.mem_append_left _ hx
    obtain ⟨e, he, rfl⟩ := List.mem_map.mp hnexts
    exact (Bool.and_eq_true_iff.mp (h.evaluations e he)).2

/-- **The gaps of a path that follows its own predictions are ordinary numbers** where the
difference of states is that of their entries. -/
theorem gaps [StrictScalar α] {n : Nat} {p : Problem α (.euclidean n) nus}
    {path : Path α (.euclidean n) nus} (h : p.FiniteAlong path) (hrollout : p.IsRollout path) :
    ∀ gap ∈ p.gapsAlong path, gap.isFinite = true := by
  rw [hrollout.gapsAlong]
  intro gap hgap
  obtain ⟨x, hx, rfl⟩ := List.mem_map.mp hgap
  refine Vec.isFinite_iff.mpr ?_
  intro i
  show Scalar.isFinite ((x - x).get i) = true
  rw [Vec.get_sub]
  exact StrictScalar.isFinite_sub_self (Vec.isFinite_iff.mp (h.isFinite_of_mem_stateList hx) i)

end Problem.FiniteAlong

/-! ## Candidates -/

/-- The path along which a policy leads, whatever the values on it are. -/
def candidateFrom (length : α) (closing : Bool) :
    {nus : List Nat} → (predicted : Vec α s.nx) → Models α s nus → Path α s nus → Gaps α s nus →
      Policy α s.ndx nus → Path α s nus
  | _, predicted, .last _, .last _, .last gap, .last _ =>
    .last (trialState length closing predicted gap)
  | _, predicted, .stage m ms, .stage k ks, .stage gap gaps, .stage p ps =>
    let k' := trialKnot length closing predicted k gap p
    .stage k' (candidateFrom length closing (m.evaluate k'.state (some k'.control)).next ms ks gaps
      ps)

theorem candidateFrom_stage {nu : Nat} (length : α) (closing : Bool) (predicted : Vec α s.nx)
    (m : Model α s nu) (ms : Models α s nus) (k : Knot α s nu) (ks : Path α s nus)
    (gap : Vec α s.ndx) (gaps : Gaps α s nus) (p : StagePolicy α s.ndx nu)
    (ps : Policy α s.ndx nus) :
    candidateFrom length closing predicted (.stage m ms) (.stage k ks) (.stage gap gaps)
        (.stage p ps) =
      let k' := trialKnot length closing predicted k gap p
      .stage k' (candidateFrom length closing (m.evaluate k'.state (some k'.control)).next ms ks
        gaps ps) := rfl

/-- The candidate of a step of the given length, be it complete or not. -/
def Workspace.candidate (w : Workspace α s nus) (p : Problem α s nus) (length : α) :
    Path α s nus :=
  candidateFrom length (w.feasible || length == 1) p.start p.stages.models w.path w.gaps w.policy

/-- The induction is along the horizon: the checks at a stage are those of its own knot, and the
rest is a candidate from the next state on. -/
theorem tryStepFrom_iff {length : α} {closing : Bool} : ∀ {nus : List Nat} {predicted : Vec α s.nx}
    {cost : α} {stages : Stages α s nus} {path path' : Path α s nus} {gaps : Gaps α s nus}
    {policy : Policy α s.ndx nus},
    (tryStepFrom length closing predicted cost stages path gaps policy).2.map Prod.snd =
        some path' ↔
      candidateFrom length closing predicted stages.models path gaps policy = path' ∧
        stages.models.FiniteAlong path'
  | _, predicted, _, .last st, .last _, path', .last gap, .last _ => by
    show _ ↔ Horizon.last (trialState length closing predicted gap) = path' ∧
      Models.FiniteAlong (.last st.anyModel) path'
    rw [tryStepFrom_last]
    dsimp only
    split
    next hfin =>
      obtain ⟨heval, hstate⟩ := Bool.and_eq_true_iff.mp hfin
      rw [Option.map_some, Option.some_inj]
      exact ⟨fun h => ⟨h, h ▸ Models.finiteAlong_last.mpr ⟨hstate, heval⟩⟩, And.left⟩
    next hfin =>
      refine ⟨nofun, ?_⟩
      rintro ⟨rfl, h⟩
      obtain ⟨hstate, heval⟩ := Models.finiteAlong_last.mp h
      exact absurd (Bool.and_eq_true_iff.mpr ⟨heval, hstate⟩) hfin
  | _, predicted, cost, .stage st rest, .stage k ks, path', .stage gap gaps, .stage p ps => by
    have hmodels : Stages.models (.stage st rest) = .stage st.model (Stages.models rest) := rfl
    rw [tryStepFrom_stage, hmodels, candidateFrom_stage]
    generalize trialKnot length closing predicted k gap p = k'
    dsimp only
    split
    next hfin =>
      obtain ⟨hfin, hcontrol⟩ := Bool.and_eq_true_iff.mp hfin
      obtain ⟨heval, hstate⟩ := Bool.and_eq_true_iff.mp hfin
      rw [Option.map_map, Option.map_eq_some_iff]
      constructor
      · rintro ⟨⟨c, ks'⟩, hrest, rfl⟩
        obtain ⟨hks, hfinite⟩ := tryStepFrom_iff.mp (congrArg (Option.map Prod.snd) hrest)
        exact ⟨congrArg (Horizon.stage k') hks,
          Models.finiteAlong_stage.mpr ⟨hstate, hcontrol, heval, hfinite⟩⟩
      · rintro ⟨rfl, h⟩
        obtain ⟨-, -, -, hfinite⟩ := Models.finiteAlong_stage.mp h
        obtain ⟨⟨c, ks'⟩, hrest, hks⟩ := Option.map_eq_some_iff.mp
          (tryStepFrom_iff.mpr ⟨rfl, hfinite⟩)
        exact ⟨(c, ks'), hrest, congrArg (Horizon.stage k') hks⟩
    next hfin =>
      refine ⟨nofun, ?_⟩
      rintro ⟨rfl, h⟩
      obtain ⟨hstate, hcontrol, heval, -⟩ := Models.finiteAlong_stage.mp h
      exact absurd (Bool.and_eq_true_iff.mpr
        ⟨Bool.and_eq_true_iff.mpr ⟨heval, hstate⟩, hcontrol⟩) hfin

namespace Workspace

variable {w : Workspace α s nus} {p : Problem α s nus} {length : α} {path : Path α s nus}

/-- **A candidate is complete exactly if it consists of ordinary numbers**, and so do costs and next
states along it. -/
theorem tryStep_iff : (w.tryStep p length).2.map Prod.snd = some path ↔
    w.candidate p length = path ∧ p.FiniteAlong path :=
  tryStepFrom_iff

variable {q q' : Problem α s nus}

theorem candidate_congr (h : q.Same p) (length : α) :
    w.candidate q length = w.candidate p length := by
  unfold candidate
  rw [h.start, h.models]

/-- A complete candidate is the one of its length, whatever the stages remember. -/
theorem candidate_of_tryStep {cost : α} {path : Path α s nus} (h : q.Same p)
    (htry : w.tryStep q length = (q', some (cost, path))) :
    path = w.candidate p length ∧ cost = p.costAlong path ∧ p.FiniteAlong path := by
  have hcomplete : (w.tryStep q length).2.map Prod.snd = some path := by rw [htry]; rfl
  obtain ⟨hpath, hfinite⟩ := tryStep_iff.mp hcomplete
  exact ⟨hpath.symm.trans (candidate_congr h length), (cost_tryStep htry).trans (h.costAlong path),
    (h.finiteAlong path).mp hfinite⟩

/-- A candidate that was given up does not consist of ordinary numbers. -/
theorem not_finiteAlong_of_tryStep (h : q.Same p) (htry : w.tryStep q length = (q', none)) :
    ¬ p.FiniteAlong (w.candidate p length) := by
  intro hfinite
  rw [← candidate_congr h, ← h.finiteAlong] at hfinite
  have hcomplete := tryStep_iff.mpr ⟨rfl, hfinite⟩
  rw [htry] at hcomplete
  cases hcomplete

end Workspace

/-- **A line search finds no other candidates.** -/
theorem FoundBy.finiteAlong {c : Config α} {w : Workspace α s nus} {p q : Problem α s nus}
    {f : Found α s nus} (h : FoundBy c w p q f) :
    w.candidate p f.length = f.path ∧ p.FiniteAlong f.path := by
  obtain ⟨p', hp', htry⟩ := h.candidate
  obtain ⟨hpath, -, hfinite⟩ := Workspace.candidate_of_tryStep hp'.toSame htry
  exact ⟨hpath.symm, hfinite⟩

/-! ## Paths that can be expanded -/

/-- Total cost, evaluations and derivatives along a path are ordinary numbers. -/
structure Models.DefinedAlong (ms : Models α s nus) (path : Path α s nus) : Prop where
  cost : Scalar.isFinite (ms.evaluations path).totalCost = true
  evaluations : ∀ e ∈ (ms.evaluations path).toList id id, e.isFinite = true
  expansions : ∀ finite ∈ (ms.expansions path).toList Expansion.isFinite fun e => e.2.isFinite,
    finite = true

/-- Total cost, evaluations and derivatives along a path are ordinary numbers. -/
def Problem.DefinedAlong (p : Problem α s nus) (path : Path α s nus) : Prop :=
  p.stages.models.DefinedAlong path

/-- What the check of an expanded path looks at. -/
theorem Stages.isFinite_iff : ∀ {nus : List Nat} {stages : Stages α s nus},
    stages.isFinite = true ↔
      (∀ e ∈ stages.storedEvaluations.toList id id, e.isFinite = true) ∧
        ∀ finite ∈ stages.storedExpansions.toList Expansion.isFinite fun e => e.2.isFinite,
          finite = true
  | _, .last st => by
    show (true && (st.data.eval.isFinite && st.data.expansion.isFinite)) = true ↔
      (∀ e ∈ [st.data.eval], e.isFinite = true) ∧
        ∀ finite ∈ [st.data.expansion.isFinite], finite = true
    rw [Bool.true_and, Bool.and_eq_true_iff, List.forall_mem_singleton, List.forall_mem_singleton]
  | _, .stage st rest => by
    show (st.data.isFinite && (rest.running fun st => st.data.isFinite).all id &&
        rest.final.data.isFinite) = true ↔
      (∀ e ∈ st.data.eval :: (Stages.storedEvaluations rest).toList id id, e.isFinite = true) ∧
        ∀ finite ∈ st.data.expansion.isFinite ::
          (Stages.storedExpansions rest).toList Expansion.isFinite fun e => e.2.isFinite,
            finite = true
    have hrest := @Stages.isFinite_iff _ rest
    unfold Stages.isFinite at hrest
    rw [Bool.and_assoc, Bool.and_eq_true_iff, hrest, StageData.isFinite, Bool.and_eq_true_iff,
      List.forall_mem_cons, List.forall_mem_cons]
    exact and_and_and_comm

namespace Run

variable {p : Problem α s nus} {c : Config α} {r r₁ r' : Run α s nus} {i : Nat}

/-- The check that follows an expansion of the current path sees what the models say along it. -/
theorem Consistent.isFinite_expand (h : r.Consistent p) (hun : r.unexpanded = true) :
    (r.problem.expand r.workspace.path).stages.isFinite = true ↔
      (∀ e ∈ (p.stages.models.evaluations r.workspace.path).toList id id, e.isFinite = true) ∧
        ∀ finite ∈ (p.stages.models.expansions r.workspace.path).toList Expansion.isFinite
          fun e => e.2.isFinite, finite = true := by
  obtain ⟨heval, hexp⟩ := h.stored_expand hun
  rw [Stages.isFinite_iff, heval, hexp]

theorem isFinite_of_refresh (hun : r.unexpanded = true) (hprep : r.refresh i = .ok r₁) :
    (r.problem.expand r.workspace.path).stages.isFinite = true := by
  unfold refresh at hprep
  rw [if_pos hun] at hprep
  dsimp only at hprep
  split at hprep
  next hfin => exact hfin
  next => cases hprep

/-- The invariant: a path that has been expanded is one of ordinary numbers. -/
def Vetted (p : Problem α s nus) (r : Run α s nus) : Prop :=
  r.unexpanded = false → p.FiniteAlong r.workspace.path

/-- A step leads to a path of ordinary numbers. -/
theorem Takes.finiteAlong {policy : Policy α s.ndx nus} {f : Found α s nus}
    (ht : r.Takes c policy f r') (hsame : r.problem.Same p) :
    p.FiniteAlong r'.workspace.path := by
  rw [ht.path]
  exact (hsame.finiteAlong _).mp ht.found.finiteAlong.2

variable [StrictScalar α]

theorem refresh_finiteAlong (hlib : p.stages.models.ofLibrary = true) (hc : r.Consistent p)
    (hv : r.Vetted p) (hprep : r.refresh i = .ok r₁) : p.FiniteAlong r₁.workspace.path := by
  rw [(stays_refresh hprep).path]
  cases hun : r.unexpanded with
  | false => exact hv hun
  | true =>
    have hevals := ((hc.isFinite_expand hun).mp (isFinite_of_refresh hun hprep)).1
    exact Models.finiteAlong_of_evaluations hlib hevals

/-- **After an iteration that does not fail, the path is one of ordinary numbers.** It has been
expanded, or it is a candidate that was complete. -/
theorem iterate_finiteAlong (hlib : p.stages.models.ofLibrary = true) (hc : r.Consistent p)
    (hv : r.Vetted p) (hok : ∀ r' e, r.iterate c i ≠ .fail r' e) :
    p.FiniteAlong (r.iterate c i).run.workspace.path := by
  cases hprep : r.refresh i with
  | error failed => exact absurd (iterate_of_invalid c hprep) (hok _ _)
  | ok r₁ =>
    rcases (iterate_cases c r i).stays_or_takes with hs | ⟨r₂, policy, f, hprep', -, -, ht⟩
    · rw [hs.path, ← (stays_refresh hprep).path]
      exact refresh_finiteAlong hlib hc hv hprep
    · exact ht.finiteAlong (refresh_consistent hc hprep').1.same

/-- An iteration that fails leaves the path unexpanded. -/
theorem iterate_vetted (hlib : p.stages.models.ofLibrary = true) (hc : r.Consistent p)
    (hv : r.Vetted p) : (r.iterate c i).run.Vetted p := by
  by_cases hfail : ∃ r' e, r.iterate c i = .fail r' e
  · obtain ⟨r', e, hfail⟩ := hfail
    obtain ⟨hun, -, rfl, -⟩ := refresh_error ((iterate_cases c r i).failed hfail)
    rw [hfail]
    intro hdown
    exact absurd (hun.symm.trans hdown) (by decide)
  · intro _
    exact iterate_finiteAlong hlib hc hv fun r' e h => hfail ⟨r', e, h⟩

end Run

/-! ## Iterations that accept a step -/

/-- Iteration number `i` from the run `r` accepts a step. -/
def Run.Accepts (c : Config α) (i : Nat) (r : Run α s nus) : Prop :=
  (r.iterate c i).run.tally.accepted = r.tally.accepted + 1

theorem Run.stays_or_accepts (c : Config α) (i : Nat) (r : Run α s nus) :
    r.Stays (r.iterate c i).run ∨ r.Accepts c i := by
  rcases (iterate_cases c r i).stays_or_takes with hs | ⟨r₁, policy, f, hprep, -, -, ht⟩
  · exact .inl hs
  · exact .inr (by rw [Accepts, ht.accepted, (stays_refresh hprep).accepted])

theorem Run.Accepts.takes {c : Config α} {i : Nat} {r : Run α s nus} (h : r.Accepts c i) :
    ∃ r₁ policy f, r.refresh i = .ok r₁ ∧ r₁.Takes c policy f (r.iterate c i).run := by
  rcases (iterate_cases c r i).stays_or_takes with hs | ⟨r₁, policy, f, hprep, -, -, ht⟩
  · have hsame := hs.accepted
    unfold Accepts at h
    omega
  · exact ⟨r₁, policy, f, hprep, ht⟩

theorem Run.Consistent.holdsEvaluations {p : Problem α s nus} {r : Run α s nus}
    (h : r.Consistent p) (hfresh : r.stale = false) :
    r.problem.HoldsEvaluations p r.workspace.path := by
  have heval := h.evaluated hfresh
  refine ⟨h.same, heval, ?_⟩
  rw [← h.same.models] at heval
  exact (Problem.totalCost_eq_costAlong heval).trans (h.same.costAlong _)

/-! ## Solves -/

namespace Solver

variable {sv : Solver α s nus} {p : Problem α s nus} {g : Guess α} {clock : Nat → Nat}
  {budget : Nat} {r₀ : Run α s nus}

/-- Costs have been checked unless a step was accepted. -/
theorem Begins.costs_of_ends (h : sv.Begins p g r₀) {r : Run α s nus} {status : Status} {n : Nat}
    (hend : r₀.Ends sv.config clock budget r status n) :
    Scalar.isFinite r.initialCost = true ∧ (Scalar.isFinite r.workspace.cost = true ∨
      ∃ i r', r₀.Performs sv.config clock budget i r' ∧ r'.Accepts sv.config i) := by
  refine hend.induct (P := fun r => Scalar.isFinite r.initialCost = true ∧
    (Scalar.isFinite r.workspace.cost = true ∨
      ∃ i r', r₀.Performs sv.config clock budget i r' ∧ r'.Accepts sv.config i)) ?_ ?_
  · obtain ⟨-, hfin⟩ := h
    exact ⟨hfin, .inl hfin⟩
  · rintro i r hperf ⟨hinitial, hcost⟩
    refine ⟨by rw [Run.initialCost_iterate]; exact hinitial, ?_⟩
    rcases r.stays_or_accepts sv.config i with hs | haccepts
    · rw [hs.cost]
      exact hcost
    · exact .inr ⟨i, r, hperf, haccepts⟩

/-- The path that a solve starts from, and its cost as it is evaluated. -/
theorem starts_of_initialize? {p' : Problem α s nus} {w : Workspace α s nus}
    (hinit : sv.initialize? p g = .ok (p', w)) :
    g.Starts p w.path w.feasible ∧ (p'.evaluate w.path).totalCost = p.costAlong w.path := by
  obtain ⟨-, regularization, path, feasible, -, hpath, rfl⟩ := initialize?_ok hinit
  obtain ⟨hsame, hstarts⟩ := initialPath_ok hpath
  refine ⟨hstarts, ?_⟩
  rw [← hsame.costAlong]
  exact (Problem.totalCost_eq_costAlong (by simp [Problem.evaluate])).trans
    ((Problem.same_evaluate _ _).costAlong _)

/-- **What cannot be expanded is not solved**: the error says whether it was the cost or what came
with the first expansion. -/
theorem solveWithin_of_undefined {p' : Problem α s nus} {w : Workspace α s nus}
    (hinit : sv.initialize? p g = .ok (p', w)) (hundefined : ¬ p.DefinedAlong w.path)
    (hbudget : 0 < budget) (hroom : budget < Vec.sizeLimit) :
    ∃ cause, (cause = .initialCost (p.costAlong w.path) ∨ cause = .derivatives 0) ∧
      (sv.solveWithin p g clock budget).outcome =
        .error (.error (.solver (.invalidNumericValue cause w.path.toTrajectory))) := by
  have hcost := (starts_of_initialize? hinit).2
  cases hfin : Scalar.isFinite (p'.evaluate w.path).totalCost with
  | false =>
    rw [solveWithin_of_invalid hinit hroom hfin]
    exact ⟨_, .inl (congrArg _ hcost), rfl⟩
  | true =>
    have hbegin : sv.Begins p g (sv.firstRun p' w) := .intro hinit hfin
    obtain ⟨n, rfl⟩ := Nat.exists_eq_succ_of_ne_zero hbudget.ne'
    rw [solveWithin_of_begins hbegin hroom]
    unfold Run.iterateFrom
    rw [if_neg (by simp [Run.isTimedOut])]
    cases hprep : (sv.firstRun p' w).refresh 0 with
    | error failed =>
      obtain ⟨r', e⟩ := failed
      obtain ⟨-, -, -, rfl⟩ := Run.refresh_error hprep
      rw [Run.iterate_of_invalid _ hprep]
      exact ⟨_, .inr rfl, rfl⟩
    | ok r₁ =>
      have hcheck := Run.isFinite_of_refresh (r := sv.firstRun p' w) rfl hprep
      obtain ⟨hevals, hexps⟩ := (hbegin.consistent.isFinite_expand rfl).mp hcheck
      have hfinite : Scalar.isFinite (p.costAlong w.path) = true := by rwa [← hcost]
      exact absurd ⟨hfinite, hevals, hexps⟩ hundefined

variable [StrictScalar α]

theorem Begins.vetted_of_reaches (h : sv.Begins p g r₀) (hlib : p.stages.models.ofLibrary = true)
    {i : Nat} {r : Run α s nus} (hr : r₀.Reaches sv.config clock budget i r) : r.Vetted p := by
  have hstart : r₀.Vetted p := by
    obtain ⟨-, -⟩ := h
    exact nofun
  exact hr.induct hstart fun hperf hv =>
    Run.iterate_vetted hlib (h.consistent_of_reaches hperf.reached) hv

/-- All iterations before one that is reached have not failed. -/
theorem Begins.finiteAlong_of_reaches (h : sv.Begins p g r₀)
    (hlib : p.stages.models.ofLibrary = true) {i : Nat} {r : Run α s nus}
    (hr : r₀.Reaches sv.config clock budget (i + 1) r) : p.FiniteAlong r.workspace.path := by
  cases hr with
  | @next _ r _ reached within inTime hnext =>
    have hfinite := Run.iterate_finiteAlong (c := sv.config) (i := i) hlib
      (h.consistent_of_reaches reached) (h.vetted_of_reaches hlib reached) (by rw [hnext]; nofun)
    rwa [hnext] at hfinite

/-- A solve that may iterate ends after an iteration or in one. -/
theorem Begins.finiteAlong_of_ends (h : sv.Begins p g r₀)
    (hlib : p.stages.models.ofLibrary = true) (hbudget : 0 < budget) {r : Run α s nus}
    {status : Status} {n : Nat} (hend : r₀.Ends sv.config clock budget r status n) :
    p.FiniteAlong r.workspace.path := by
  cases hend with
  | budget reached =>
    obtain ⟨n, rfl⟩ := Nat.exists_eq_succ_of_ne_zero hbudget.ne'
    exact h.finiteAlong_of_reaches hlib reached
  | timeout reached _ late =>
    -- the time is not looked at before the first iteration
    obtain ⟨n, rfl⟩ : ∃ m, n = m + 1 := by
      refine Nat.exists_eq_succ_of_ne_zero ?_
      rintro rfl
      cases late
    exact h.finiteAlong_of_reaches hlib reached
  | @stop i _ r _ _ hperf hstop =>
    have hfinite := Run.iterate_finiteAlong (c := sv.config) (i := i) hlib
      (h.consistent_of_reaches hperf.reached) (h.vetted_of_reaches hlib hperf.reached)
      (by rw [hstop]; nofun)
    rwa [hstop] at hfinite

/-- An answer after an iteration is about a path of ordinary numbers. -/
theorem exists_finiteAlong_of_answer (hlib : p.stages.models.ofLibrary = true)
    (hbudget : 0 < budget) {res : SolveResult α}
    (hout : (sv.solveWithin p g clock budget).outcome = .ok res) :
    ∃ path, res.Describes p path ∧ p.FiniteAlong path := by
  obtain ⟨r₀, r, status, n, hbegin, hend, hfinish⟩ := solveWithin_ok hout
  rw [hfinish] at hout
  exact ⟨_, ((hbegin.consistent_of_ends hend).describes hout).1,
    hbegin.finiteAlong_of_ends hlib hbudget hend⟩

/-- What is let into the paths and the answers of a solve. -/
structure KeepsFinite (sv : Solver α s nus) (p : Problem α s nus) (g : Guess α)
    (clock : Nat → Nat) (budget : Nat) : Prop where
  /-- A candidate is complete exactly if it consists of ordinary numbers, and so do costs and next
  states along it. -/
  candidate : ∀ (w : Workspace α s nus) (q : Problem α s nus) (length : α) {path : Path α s nus},
    (w.tryStep q length).2.map Prod.snd = some path ↔
      w.candidate q length = path ∧ q.FiniteAlong path
  /-- No other candidate is accepted, whatever the thresholds are. -/
  found : ∀ (c : Config α) (w : Workspace α s nus) (q : Problem α s nus) {f : Found α s nus},
    (lineSearch c w q).found = some f → w.candidate q f.length = f.path ∧ q.FiniteAlong f.path
  /-- After every step the path is one of ordinary numbers, and the stages hold its evaluations. -/
  accepted : ∀ {r₀ i r}, sv.Begins p g r₀ → r₀.Performs sv.config clock budget i r →
    r.Accepts sv.config i →
      p.FiniteAlong (r.iterate sv.config i).run.workspace.path ∧
        (r.iterate sv.config i).run.problem.HoldsEvaluations p
          (r.iterate sv.config i).run.workspace.path
  /-- Every answer is about such a path, and the stages are left with its evaluations. -/
  answered : ∀ {res}, (sv.solveWithin p g clock budget).outcome = .ok res →
    ∃ path, p.FiniteAlong path ∧ res.Describes p path ∧
      (sv.solveWithin p g clock budget).problem.HoldsEvaluations p path
  /-- Costs that do not come from a step are ordinary numbers. -/
  cost : ∀ {res}, (sv.solveWithin p g clock budget).outcome = .ok res →
    Scalar.isFinite res.initialCost = true ∧
      (Scalar.isFinite res.finalCost = true ∨ ∃ r₀ i r, sv.Begins p g r₀ ∧
        r₀.Performs sv.config clock budget i r ∧ r.Accepts sv.config i)
  /-- A path to start from with a cost, an evaluation or a derivative that is not finite is an
  error, where there is room for the budget, and is not answered in any case. -/
  undefined : ∀ {p' w}, sv.initialize? p g = .ok (p', w) → ¬ p.DefinedAlong w.path →
    (budget < Vec.sizeLimit →
      ∃ cause, (cause = .initialCost (p.costAlong w.path) ∨ cause = .derivatives 0) ∧
        (sv.solveWithin p g clock budget).outcome =
          .error (.error (.solver (.invalidNumericValue cause w.path.toTrajectory)))) ∧
      ∀ res, (sv.solveWithin p g clock budget).outcome ≠ .ok res

/-- **Only ordinary numbers get into the path of a solve** over models of the library, from the
first iteration on, and what does not start with them is refused. Gaps are ordinary numbers in a
Euclidean space if the path follows its own predictions. -/
theorem keeps_finite :
    (∀ {s : StateSpace} {nus : List Nat} (sv : Solver α s nus) (p : Problem α s nus) (g : Guess α)
      (clock : Nat → Nat) (budget : Nat), p.stages.models.ofLibrary = true → 0 < budget →
        sv.KeepsFinite p g clock budget) ∧
      ∀ {n : Nat} {nus : List Nat} {p : Problem α (.euclidean n) nus}
        {path : Path α (.euclidean n) nus}, p.FiniteAlong path → p.IsRollout path →
          ∀ gap ∈ p.gapsAlong path, gap.isFinite = true := by
  refine ⟨?_, fun hfinite hrollout => hfinite.gaps hrollout⟩
  intro s nus sv p g clock budget hlib hbudget
  refine ⟨fun w q length path => Workspace.tryStep_iff,
    fun c w q f hfound => (lineSearch_found hfound).finiteAlong, ?_, ?_, ?_, ?_⟩
  · intro r₀ i r hbegin hperf haccepts
    have hconsistent := hbegin.consistent_of_reaches hperf.reached
    obtain ⟨r₁, policy, f, hprep, ht⟩ := haccepts.takes
    exact ⟨ht.finiteAlong (Run.refresh_consistent hconsistent hprep).1.same,
      (Run.iterate_consistent hconsistent).holdsEvaluations ht.stale⟩
  · intro res hout
    obtain ⟨r₀, r, status, n, hbegin, hend, hfinish⟩ := solveWithin_ok hout
    rw [hfinish] at hout ⊢
    obtain ⟨hdescribes, hholds⟩ := (hbegin.consistent_of_ends hend).describes hout
    exact ⟨_, hbegin.finiteAlong_of_ends hlib hbudget hend, hdescribes, hholds⟩
  · intro res hout
    obtain ⟨r₀, r, status, n, hbegin, hend, hfinish⟩ := solveWithin_ok hout
    rw [hfinish] at hout
    have hconsistent := hbegin.consistent_of_ends hend
    have hfinal : res.finalCost = r.workspace.cost :=
      (hconsistent.describes hout).1.finalCost.trans hconsistent.cost.symm
    obtain ⟨hinitial, hcost⟩ := hbegin.costs_of_ends hend
    rw [(Run.answers_of_finish hout).initialCost, hfinal]
    refine ⟨hinitial, hcost.imp_right ?_⟩
    rintro ⟨i, r', hperf, haccepts⟩
    exact ⟨r₀, i, r', hbegin, hperf, haccepts⟩
  · intro p' w hinit hundefined
    refine ⟨solveWithin_of_undefined hinit hundefined hbudget, ?_⟩
    intro res hout
    by_cases hroom : budget < Vec.sizeLimit
    · obtain ⟨cause, -, herror⟩ := solveWithin_of_undefined hinit hundefined hbudget hroom
      rw [herror] at hout
      cases hout
    · rw [solveWithin_of_misused hinit hroom] at hout
      cases hout

set_option maxRecDepth 100000 in
/-- A step that leads to a path without gaps, and a state to start from that is infinite. -/
theorem keeps_finite_push :
    (Problem.push Float).stages.models.ofLibrary = true ∧ 0 < 3 ∧
      (∃ res path, ((Solver.new .standard .none).solveWithin (Problem.push Float) .none
          (fun _ => 0) 3).outcome = .ok res ∧
        res.stepLengths = [1] ∧ res.trajectory = path.toTrajectory ∧
          (Problem.push Float).FiniteAlong path ∧ (Problem.push Float).IsRollout path ∧
            ∀ gap ∈ (Problem.push Float).gapsAlong path, gap.isFinite = true) ∧
      ∃ cause t, ((Solver.new .standard .none).solveWithin (Problem.push Float)
          ⟨some [[1 / 0], [0]], none, false, none⟩ (fun _ => 0) 3).outcome =
        .error (.error (.solver (.invalidNumericValue cause t))) := by
  have hlib : (Problem.push Float).stages.models.ofLibrary = true := rfl
  have hkeeps (g : Guess Float) := keeps_finite.1 (.new .standard .none) (Problem.push Float) g
    (fun _ => 0) 3 hlib (by decide)
  refine ⟨hlib, by decide, ?_, ?_⟩
  · have hsolve : ((Solver.new .standard .none).solveWithin (Problem.push Float) .none
        (fun _ => 0) 3).outcome.toOption.any
          (fun res => res.converged && decide (res.stepLengths = [1])) = true := by
      decide +kernel
    obtain ⟨res, hout, hres⟩ := exists_ok_of_any hsolve
    obtain ⟨hconv, hsteps⟩ := Bool.and_eq_true_iff.mp hres
    obtain ⟨path, hfinite, hdescribes, -⟩ := (hkeeps .none).answered hout
    obtain ⟨path', hpath', hrollout, -⟩ :=
      (trustsFlag _ _ _ _ _).converged hout (.inl rfl) hconv
    obtain rfl : path' = path := by
      have hlists := Problem.path?_toTrajectory (p := Problem.push Float) path'
      rw [← hpath', hdescribes.trajectory, Problem.path?_toTrajectory] at hlists
      exact (Except.ok.inj hlists).symm
    exact ⟨res, path', hout, of_decide_eq_true hsteps, hpath', hfinite, hrollout,
      keeps_finite.2 hfinite hrollout⟩
  · have hstart : ((Solver.new .standard .none).initialize? (Problem.push Float)
        ⟨some [[1 / 0], [0]], none, false, none⟩).toOption.any (fun start =>
          !Scalar.isFinite ((Problem.push Float).costAlong start.2.path)) = true := by
      decide +kernel
    obtain ⟨⟨p', w⟩, hinit, hinfinite⟩ := exists_ok_of_any hstart
    have hundefined : ¬ (Problem.push Float).DefinedAlong w.path := by
      intro hdefined
      have hcost : Scalar.isFinite ((Problem.push Float).costAlong w.path) = true :=
        hdefined.cost
      rw [hcost] at hinfinite
      cases hinfinite
    obtain ⟨cause, -, herror⟩ := ((hkeeps _).undefined hinit hundefined).1 (by decide)
    exact ⟨cause, _, herror⟩

set_option maxRecDepth 100000 in
/-- An answer with a gap that overflows. -/
theorem gap_overflows :
    let p : Problem Float (.euclidean 1) [] :=
      ⟨.replicate 1 1e308, .last ⟨0, .lqr (.terminal 0), .zero⟩⟩
    p.stages.models.ofLibrary = true ∧
      ∃ res, ((Solver.new .standard .none).solveWithin p ⟨some [[-1e308]], some [], false, none⟩
        (fun _ => 0) 1).outcome = .ok res ∧
        ∃ gap ∈ res.gaps, ∃ a ∈ gap, Scalar.isFinite a = false := by
  intro p
  refine ⟨rfl, ?_⟩
  have hsolve : ((Solver.new .standard .none).solveWithin p
      ⟨some [[-1e308]], some [], false, none⟩ (fun _ => 0) 1).outcome.toOption.any
        (fun res => res.gaps.any fun gap => gap.any fun a => !Scalar.isFinite a) = true := by
    decide +kernel
  obtain ⟨res, hout, hres⟩ := exists_ok_of_any hsolve
  obtain ⟨gap, hgap, hres⟩ := List.any_eq_true.mp hres
  obtain ⟨a, ha, hfinite⟩ := List.any_eq_true.mp hres
  exact ⟨res, hout, gap, hgap, a, ha, by simpa using hfinite⟩

end Solver

end Shooting
