import Shooting.Proofs.Loose.Sizes
import Shooting.Proofs.Solver.History

/-!
# Sessions

A session is a problem in memory together with a solver, and it goes on with requests of any kind in
any order, refused ones included. Whatever is asked for, all data keep the sizes of their own models
and the workspace of a solve fits its problem; and none of the operations that follow the sizes
clashes with them (`Session.sizes_kept`).

The reason is one invariant: the problem of a session is always one whose sizes were forgotten
(`Session.IsOf`). A request that is served keeps it (`IsOf.serve`), because what an operation does in
memory is what it does to a problem with sizes.
-/

namespace Shooting

variable {α β γ : Type} [Scalar α] {s : StateSpace} {nus : List Nat}

/-! ## Answers -/

/-- An operation with a check of its arguments: it answers what passes the check and refuses the
rest with the fault that the check finds. -/
def Loose.Obeys (check : Except SizeFault Unit) (answer : Loose (ProblemError α) β) : Prop :=
  match check with
  | .ok () => ∃ b, answer = .ok b
  | .error fault => answer = .error (.error (.dimensionMismatch fault))

omit [Scalar α] in
theorem Loose.obeys_sized (found : Except SizeFault γ) (f : γ → β) :
    Loose.Obeys (found.map fun _ => ()) (Loose.sized (found.map f) : Loose (ProblemError α) β) := by
  cases found with
  | ok c => exact ⟨f c, rfl⟩
  | error fault => rfl

namespace LooseProblem

/-- What is said of a problem that answers all that fits it, and nothing ends in a clash of sizes. -/
structure Answers [PseudoInverting α] (p : LooseProblem α) : Prop where
  evaluate : ∀ xs us, Loose.Obeys (p.checkTrajectory xs us) (p.evaluate xs us)
  expand : ∀ xs us, Loose.Obeys (p.checkTrajectory xs us) (p.expand xs us)
  rollout : ∀ us, Loose.Obeys (p.checkControls us) (p.rollout us)
  evaluateStage : ∀ t m x u, p.models[t]? = some m →
    Loose.Obeys (m.model.check x (some u)) (p.evaluateStage t x u)
  evaluateTerminal : ∀ x,
    Loose.Obeys (p.terminalModel.model.check x none) (p.evaluateTerminal x)
  gaps : ∀ xs, xs.map List.length = p.spaces.map StateSpace.nx →
    ∃ fs, p.gaps xs = .ok fs ∧ fs.map List.length = p.spaces.map StateSpace.ndx
  quasiStatic : ∀ t x maxIter tol, ∃ a, p.quasiStatic t x maxIter tol = .ok a
  quasiStaticControls : ∀ xs maxIter tol, ∃ a, p.quasiStaticControls xs maxIter tol = .ok a
  solve : ∀ (sv : LooseSolver α) g clock budget, ∃ solved,
    sv.solve p g clock budget = .ok solved ∧
      (budget < Vec.sizeLimit → solved.outcome ≠ .error .misuse)

variable (p : Problem α s nus)

theorem evaluate_obeys (xs us : List (List α)) :
    Loose.Obeys (p.toLoose.checkTrajectory xs us) (p.toLoose.evaluate xs us) := by
  rw [checkTrajectory_toLoose, evaluate_toLoose, Problem.evaluate?]
  cases p.path? xs us with
  | ok path => exact ⟨_, rfl⟩
  | error fault => rfl

theorem expand_obeys (xs us : List (List α)) :
    Loose.Obeys (p.toLoose.checkTrajectory xs us) (p.toLoose.expand xs us) := by
  rw [checkTrajectory_toLoose, expand_toLoose, Problem.expand?]
  cases p.path? xs us with
  | ok path => exact ⟨_, rfl⟩
  | error fault => rfl

theorem rollout_obeys (us : List (List α)) :
    Loose.Obeys (p.toLoose.checkControls us) (p.toLoose.rollout us) := by
  rw [checkControls_toLoose, rollout_toLoose, Problem.rollout?]
  cases p.controls? us with
  | ok us => exact ⟨_, rfl⟩
  | error fault => rfl

theorem check_attempt {nu : Nat} (st : Stage α s nu) (x u : List α) :
    st.model.check x (some u) = (attempt x u st).2.map fun _ => () := by
  unfold Model.check Model.arguments? attempt
  cases Model.state? (.model st.model.name) s x with
  | error fault => rfl
  | ok x =>
    show Except.map _ ((Model.control? (.model st.model.name) nu u).map some >>= _) = _
    cases Model.control? (.model st.model.name) nu u <;> rfl

theorem evaluateStage_obeys {t : Nat} {m : AnyModel α} (hm : p.toLoose.models[t]? = some m)
    (x u : List α) : Loose.Obeys (m.model.check x (some u)) (p.toLoose.evaluateStage t x u) := by
  have hlength : t < nus.length := by
    have h := (List.getElem?_eq_some_iff.mp hm).1
    rwa [← horizon_toLoose p]
  obtain ⟨hout, -⟩ | ⟨nu, st, pre, rest, ht, hbefore, -⟩ :=
    p.stages.visit_spec (attempt x u) Stage.toLoose t
  · omega
  · have hp : p.toLoose = ofStages p.start.toList (pre ++ st.toLoose :: rest)
        p.stages.final.toLoose := toLoose_mk p.start _ hbefore
    rw [hp, model_ofStages _ pre rest _ ht] at hm
    obtain rfl := Option.some.inj hm
    have hcheck : st.toLoose.model.model.check x (some u) = _ := check_attempt st x u
    rw [hp, evaluateStage_attempt _ pre rest _ ht, hcheck]
    exact Loose.obeys_sized _ _

theorem evaluateTerminal_obeys (x : List α) :
    Loose.Obeys (p.toLoose.terminalModel.model.check x none) (p.toLoose.evaluateTerminal x) := by
  have hcheck : p.toLoose.terminalModel.model.check x none =
      (Model.state? (.model p.stages.final.model.name) s x).map fun _ => () := by
    show Model.check p.stages.final.model x none = _
    unfold Model.check Model.arguments?
    cases Model.state? (.model p.stages.final.model.name) s x <;> rfl
  rw [hcheck, evaluateTerminal_toLoose, Problem.evaluateTerminal?]
  dsimp only
  cases Model.state? (.model p.stages.final.model.name) s x with
  | ok x => exact ⟨_, rfl⟩
  | error fault => rfl

/-- States of the right number and size are those of a path. -/
theorem exists_path : ∀ {nus : List Nat} (xs : List (List α)),
    xs.map List.length = List.replicate (nus.length + 1) s.nx →
      ∃ path : Path α s nus, path.toTrajectory.states = xs
  | [], [], h => nomatch h
  | _ :: _, [], h => nomatch h
  | [], [x], h => by
    obtain ⟨v, hv⟩ := Option.isSome_iff_exists.mp
      ((Vec.ofList?_isSome_iff x).mpr (List.cons.inj h).1)
    exact ⟨.last v, congrArg (· :: []) (Vec.ofList?_eq_some_iff.mp hv)⟩
  | [], _ :: _ :: _, h => nomatch (List.cons.inj h).2
  | nu :: nus, x :: xs, h => by
    obtain ⟨hx, hxs⟩ := List.cons.inj h
    obtain ⟨v, hv⟩ := Option.isSome_iff_exists.mp ((Vec.ofList?_isSome_iff x).mpr hx)
    obtain ⟨path, hpath⟩ : ∃ path : Path α s nus, path.toTrajectory.states = xs :=
      exists_path xs hxs
    refine ⟨.stage ⟨v, 0⟩ path, ?_⟩
    rw [Path.states_stage, hpath]
    exact congrArg (· :: xs) (Vec.ofList?_eq_some_iff.mp hv)

theorem gaps_fit {xs : List (List α)}
    (h : xs.map List.length = p.toLoose.spaces.map StateSpace.nx) :
    ∃ fs, p.toLoose.gaps xs = .ok fs ∧
      fs.map List.length = p.toLoose.spaces.map StateSpace.ndx := by
  rw [spaces_toLoose, List.map_replicate] at h
  obtain ⟨path, rfl⟩ : ∃ path : Path α s nus, path.toTrajectory.states = xs := exists_path xs h
  exact ⟨_, gaps_toLoose p path, (p.gaps path).length_toLists p⟩

theorem solve_answers (sv : LooseSolver α) (g : Guess α) (clock : Nat → Nat) (budget : Nat) :
    ∃ solved, sv.solve p.toLoose g clock budget = .ok solved ∧
      (budget < Vec.sizeLimit → solved.outcome ≠ .error .misuse) := by
  let sv' : Solver α s nus := .new sv.config .none
  cases hinit : sv'.initialize? p g with
  | error e =>
    exact ⟨_, LooseSolver.solve_refused sv' sv.workspace p g clock budget hinit, nofun⟩
  | ok started =>
    obtain ⟨trial, hsolve⟩ := LooseSolver.solve_begun sv' sv.workspace p g clock budget hinit
    refine ⟨_, hsolve, fun hbudget hmisuse => ?_⟩
    have houtcome : (sv'.solveWithin p g clock budget).outcome = .error .misuse := by
      cases hcase : (sv'.solveWithin p g clock budget).outcome with
      | ok res =>
        unfold Solved.toLoose at hmisuse
        rw [hcase] at hmisuse
        cases hmisuse
      | error refusal =>
        unfold Solved.toLoose at hmisuse
        rw [hcase] at hmisuse
        exact congrArg _ (Except.error.inj hmisuse)
    have hconcludes := sv'.solveWithin_cases p g clock budget
    generalize sv'.solveWithin p g clock budget = solved at hconcludes houtcome
    cases hconcludes with
    | misused _ hmisused => exact hmisused hbudget
    | refused | invalid | ended | failed => cases houtcome

/-- **A problem whose sizes were forgotten answers all that fits it.** -/
theorem answers_toLoose [PseudoInverting α] : p.toLoose.Answers where
  evaluate := evaluate_obeys p
  expand := expand_obeys p
  rollout := rollout_obeys p
  evaluateStage _ _ x u hm := evaluateStage_obeys p hm x u
  evaluateTerminal := evaluateTerminal_obeys p
  gaps _ := gaps_fit p
  quasiStatic t x maxIter tol := ⟨_, quasiStatic_toLoose p t x maxIter tol⟩
  quasiStaticControls xs maxIter tol := ⟨_, quasiStaticControls_toLoose p xs maxIter tol⟩
  solve := solve_answers p

end LooseProblem

/-! ## Requests -/

/-- What can be asked for in a session. -/
inductive Request (α : Type) where
  | evaluate (xs us : List (List α))
  | expand (xs us : List (List α))
  | evaluateStage (t : Nat) (x u : List α)
  | evaluateTerminal (x : List α)
  | rollout (us : List (List α))
  | setStart (x₀ : List α)
  | gaps (xs : List (List α))
  | quasiStatic (t : Nat) (x : List α) (maxIter : Nat) (tol : α)
  | quasiStaticControls (xs : List (List α)) (maxIter : Nat) (tol : α)
  | solve (g : Guess α) (clock : Nat → Nat) (budget : Nat)
  /-- The solver is used for other problems in between, and comes back with whatever is left. -/
  | lend (sv : LooseSolver α)

/-- A problem in memory and a solver for it. -/
structure Session (α : Type) where
  problem : LooseProblem α
  solver : LooseSolver α
  /-- Whether the last solve was one of this problem and had its arguments accepted. -/
  begun : Bool

namespace LooseProblem

omit [Scalar α] in
/-- The problem after an operation, which is as before if the arguments were refused. There is none
if the operation does not come back. -/
def after (p : LooseProblem α) : Loose (ProblemError α) (LooseProblem α × β) → Option (LooseProblem α)
  | .ok (q, _) => some q
  | .error (.error _) => some p
  | .error .misuse => none

omit [Scalar α] in
/-- The problem that an operation leaves behind, whatever it answers. There is none if the operation
does not come back. -/
def left : Loose (ProblemError α) (LooseProblem α × Answer α β) → Option (LooseProblem α)
  | .ok (_, .error .misuse) => none
  | .ok (q, _) => some q
  | .error _ => none

end LooseProblem

namespace Session

omit [Scalar α] in
/-- A session with a problem and a solver that has not seen it. -/
def new (p : LooseProblem α) (sv : LooseSolver α) : Session α := ⟨p, sv, false⟩

omit [Scalar α] in
def withProblem (σ : Session α) (p : LooseProblem α) : Session α := { σ with problem := p }

/-- The session after a request. There is none if the request does not come back. -/
def serve [PseudoInverting α] (σ : Session α) : Request α → Option (Session α)
  | .evaluate xs us => (σ.problem.after (σ.problem.evaluate xs us)).map σ.withProblem
  | .expand xs us => (σ.problem.after (σ.problem.expand xs us)).map σ.withProblem
  | .evaluateStage t x u => (σ.problem.after (σ.problem.evaluateStage t x u)).map σ.withProblem
  | .evaluateTerminal x => (σ.problem.after (σ.problem.evaluateTerminal x)).map σ.withProblem
  | .rollout us => (σ.problem.after (σ.problem.rollout us)).map σ.withProblem
  | .setStart x₀ =>
    match σ.problem.setStart x₀ with
    | .ok p => some (σ.withProblem p)
    | .error _ => some σ
  | .gaps xs =>
    match σ.problem.gaps xs with
    | .error .misuse => none
    | _ => some σ
  | .quasiStatic t x maxIter tol =>
    (LooseProblem.left (σ.problem.quasiStatic t x maxIter tol)).map σ.withProblem
  | .quasiStaticControls xs maxIter tol =>
    (LooseProblem.left (σ.problem.quasiStaticControls xs maxIter tol)).map σ.withProblem
  | .solve g clock budget =>
    match σ.solver.solve σ.problem g clock budget with
    | .ok ⟨_, _, _, .error .misuse⟩ => none
    | .ok ⟨p, workspace, begun, _⟩ => some ⟨p, { σ.solver with workspace }, begun⟩
    | .error _ => none
  | .lend sv => some ⟨σ.problem, sv, false⟩

/-- The session after a sequence of requests. -/
def run [PseudoInverting α] (σ : Session α) : List (Request α) → Option (Session α)
  | [] => some σ
  | request :: requests => do (← σ.serve request).run requests

omit [Scalar α] in
/-- The problem of the session has the stages of `p`, and a workspace of a solve of it has their
sizes. -/
structure IsOf (σ : Session α) (p : Problem α s nus) : Prop where
  problem : ∃ q : Problem α s nus, q.stages.models = p.stages.models ∧ σ.problem = q.toLoose
  workspace : σ.begun = true → ∃ (w : Workspace α s nus) (trial : Path α s nus),
    σ.solver.workspace = some (w.toLoose trial)

end Session

/-! ## What is kept -/

omit [Scalar α] in
theorem Loose.exists_of_sized {found : Except SizeFault γ} {f : γ → β} {b : β}
    (h : Loose.sized (found.map f) = (.ok b : Loose (ProblemError α) β)) :
    ∃ c, found = .ok c ∧ f c = b := by
  cases found with
  | ok c => exact ⟨c, rfl, Except.ok.inj h⟩
  | error fault => cases h

namespace LooseProblem

omit [Scalar α] in
/-- What an operation leaves of a problem whose sizes were forgotten, if that is so of what it
answers. -/
theorem exists_of_after {q : Problem α s nus} {answer : Loose (ProblemError α) (LooseProblem α × β)}
    (hanswer : ∀ a, answer = .ok a → ∃ q' : Problem α s nus, q'.Same q ∧ a.1 = q'.toLoose)
    {p' : LooseProblem α} (h : q.toLoose.after answer = some p') :
    ∃ q' : Problem α s nus, q'.Same q ∧ p' = q'.toLoose := by
  cases answer with
  | ok a =>
    cases h
    exact hanswer a rfl
  | error refusal =>
    cases refusal with
    | misuse => cases h
    | error e =>
      cases h
      exact ⟨q, .refl q, rfl⟩

omit [Scalar α] in
theorem eq_of_left {q p' : LooseProblem α} {answer : Answer α β}
    (h : left (.ok (q, answer)) = some p') : p' = q := by
  unfold left at h
  split at h
  next => cases h
  next heq =>
    cases heq
    exact (Option.some.inj h).symm
  next => cases h

end LooseProblem

namespace Session.IsOf

variable {σ σ' : Session α} {p : Problem α s nus}

omit [Scalar α] in
theorem withProblem (h : σ.IsOf p) {q : Problem α s nus}
    (hq : q.stages.models = p.stages.models) : (σ.withProblem q.toLoose).IsOf p :=
  ⟨⟨q, hq, rfl⟩, h.workspace⟩

omit [Scalar α] in
theorem after {q : Problem α s nus} (h : σ.IsOf p) (hq : q.stages.models = p.stages.models)
    {answer : Loose (ProblemError α) (LooseProblem α × β)}
    (hanswer : ∀ a, answer = .ok a → ∃ q' : Problem α s nus, q'.Same q ∧ a.1 = q'.toLoose)
    (hafter : (q.toLoose.after answer).map σ.withProblem = some σ') : σ'.IsOf p := by
  obtain ⟨p', hp', rfl⟩ := Option.map_eq_some_iff.mp hafter
  obtain ⟨q', hsame, rfl⟩ := LooseProblem.exists_of_after hanswer hp'
  exact h.withProblem (hsame.models.trans hq)

omit [Scalar α] in
theorem after_sized {q : Problem α s nus} (h : σ.IsOf p) (hq : q.stages.models = p.stages.models)
    {found : Except SizeFault γ} {f : γ → LooseProblem α × β}
    (hfound : ∀ c, found = .ok c → ∃ q' : Problem α s nus, q'.Same q ∧ (f c).1 = q'.toLoose)
    (hafter : (q.toLoose.after (Loose.sized (found.map f))).map σ.withProblem = some σ') :
    σ'.IsOf p := by
  refine h.after hq ?_ hafter
  rintro a ha
  obtain ⟨c, hc, rfl⟩ := Loose.exists_of_sized ha
  exact hfound c hc

omit [Scalar α] in
theorem left {q q' : Problem α s nus} (h : σ.IsOf p) (hq : q.stages.models = p.stages.models)
    (hsame : q'.Same q) {answer : LooseProblem.Answer α β}
    (hleft : (LooseProblem.left (.ok (q'.toLoose, answer))).map σ.withProblem = some σ') :
    σ'.IsOf p := by
  obtain ⟨p', hp', rfl⟩ := Option.map_eq_some_iff.mp hleft
  rw [LooseProblem.eq_of_left hp']
  exact h.withProblem (hsame.models.trans hq)

theorem solve [PseudoInverting α] (h : σ.IsOf p) {g : Guess α} {clock : Nat → Nat} {budget : Nat}
    (hserve : σ.serve (.solve g clock budget) = some σ') : σ'.IsOf p := by
  obtain ⟨q, hq, hproblem⟩ := h.problem
  let sv : Solver α s nus := .new σ.solver.config .none
  have hconcludes := sv.solveWithin_cases q g clock budget
  unfold Session.serve at hserve
  rw [hproblem] at hserve
  dsimp only at hserve
  cases hinit : sv.initialize? q g with
  | error e =>
    have hsolve : σ.solver.solve q.toLoose g clock budget = _ :=
      LooseSolver.solve_refused sv σ.solver.workspace q g clock budget hinit
    rw [hsolve] at hserve
    cases hserve
    exact ⟨⟨q, hq, rfl⟩, nofun⟩
  | ok started =>
    obtain ⟨trial, hbegun⟩ :=
      LooseSolver.solve_begun sv σ.solver.workspace q g clock budget hinit
    have hsolve : σ.solver.solve q.toLoose g clock budget = _ := hbegun
    obtain ⟨w, hw⟩ := Option.isSome_iff_exists.mp
      ((hconcludes.isSome_workspace rfl).mpr ⟨started, hinit⟩)
    rw [hsolve] at hserve
    split at hserve
    next => cases hserve
    next hsolved =>
      cases hsolved
      cases hserve
      exact ⟨⟨_, hconcludes.same.models.trans hq, rfl⟩,
        fun _ => ⟨w, trial, congrArg (Option.map fun w => w.toLoose trial) hw⟩⟩
    next => cases hserve

/-- **A request that is served keeps all sizes.** -/
theorem serve [PseudoInverting α] (h : σ.IsOf p) {request : Request α}
    (hserve : σ.serve request = some σ') : σ'.IsOf p := by
  obtain ⟨q, hq, hproblem⟩ := h.problem
  cases request with
  | evaluate xs us =>
    rw [Session.serve, hproblem, LooseProblem.evaluate_toLoose] at hserve
    exact h.after_sized hq (fun (q', _) hq' => ⟨q', (Problem.Change.evaluate hq').same, rfl⟩) hserve
  | expand xs us =>
    rw [Session.serve, hproblem, LooseProblem.expand_toLoose] at hserve
    exact h.after_sized hq (fun (q', _) hq' => ⟨q', (Problem.Change.expand hq').same, rfl⟩) hserve
  | evaluateStage t x u =>
    rw [Session.serve, hproblem, LooseProblem.evaluateStage_toLoose] at hserve
    refine h.after hq ?_ hserve
    intro a ha
    cases hstep : q.evaluateStage? t x u with
    | error e =>
      rw [hstep] at ha
      cases ha
    | ok found =>
      rw [hstep] at ha
      cases ha
      exact ⟨found.1, (Problem.Change.evaluateStage hstep).same, rfl⟩
  | evaluateTerminal x =>
    rw [Session.serve, hproblem, LooseProblem.evaluateTerminal_toLoose] at hserve
    exact h.after_sized hq (fun (q', _) hq' => ⟨q', (Problem.Change.evaluateTerminal hq').same, rfl⟩)
      hserve
  | rollout us =>
    rw [Session.serve, hproblem, LooseProblem.rollout_toLoose] at hserve
    exact h.after_sized hq (fun (q', _) hq' => ⟨q', (Problem.Change.rollout hq').same, rfl⟩) hserve
  | setStart x₀ =>
    rw [Session.serve, hproblem, LooseProblem.setStart_toLoose] at hserve
    cases hstart : q.withStart? x₀ with
    | error fault =>
      rw [hstart] at hserve
      cases hserve
      exact h
    | ok q' =>
      rw [hstart] at hserve
      cases hserve
      obtain ⟨x, -, hq'⟩ := exists_of_bind_ok hstart
      cases hq'
      -- another initial state, and the models are not touched
      exact h.withProblem hq
  | gaps xs =>
    rw [Session.serve] at hserve
    split at hserve
    next => cases hserve
    next =>
      cases hserve
      exact h
  | quasiStatic t x maxIter tol =>
    rw [Session.serve, hproblem, LooseProblem.quasiStatic_toLoose] at hserve
    exact h.left hq (Problem.Change.quasiStatic t x maxIter tol).same hserve
  | quasiStaticControls xs maxIter tol =>
    rw [Session.serve, hproblem, LooseProblem.quasiStaticControls_toLoose] at hserve
    exact h.left hq (Problem.Change.quasiStaticControls xs maxIter tol).same hserve
  | solve g clock budget => exact h.solve hserve
  | lend sv =>
    cases hserve
    exact ⟨⟨q, hq, hproblem⟩, nofun⟩

/-- **A session keeps all sizes.** -/
theorem run [PseudoInverting α] : ∀ (requests : List (Request α)) {σ : Session α}, σ.IsOf p →
    σ.run requests = some σ' → σ'.IsOf p
  | [], _, h, hrun => by
    cases hrun
    exact h
  | request :: requests, σ, h, hrun => by
    obtain ⟨τ, hserve, hrest⟩ := Option.bind_eq_some_iff.mp hrun
    exact run requests (h.serve hserve) hrest

omit [Scalar α] in
theorem fits (h : σ.IsOf p) : σ.problem.Fits := by
  obtain ⟨q, -, hproblem⟩ := h.problem
  rw [hproblem]
  exact LooseProblem.fits_toLoose q

omit [Scalar α] in
theorem fits_workspace (h : σ.IsOf p) (hbegun : σ.begun = true) :
    ∃ w, σ.solver.workspace = some w ∧ w.Fits σ.problem := by
  obtain ⟨q, -, hproblem⟩ := h.problem
  obtain ⟨w, trial, hworkspace⟩ := h.workspace hbegun
  rw [hproblem]
  exact ⟨w.toLoose trial, hworkspace, w.fits_toLoose q trial⟩

theorem answers [PseudoInverting α] (h : σ.IsOf p) : σ.problem.Answers := by
  obtain ⟨q, -, hproblem⟩ := h.problem
  rw [hproblem]
  exact LooseProblem.answers_toLoose q

omit [Scalar α] in
theorem models (h : σ.IsOf p) : σ.problem.models = p.toLoose.models ∧
    σ.problem.terminalModel = p.toLoose.terminalModel := by
  have hrunning (q : Problem α s nus) : q.toLoose.models =
      q.stages.models.running fun m => ⟨s, _, m⟩ := by
    show (q.stages.running Stage.toLoose).map LooseStage.model = _
    rw [Horizon.map_running, Stages.models, Horizon.running_map]
    rfl
  have hterminal (q : Problem α s nus) : q.toLoose.terminalModel =
      (fun m : (nu : Nat) × Model α s nu => ⟨s, m.1, m.2⟩) q.stages.models.final :=
    (congrArg (fun m : (nu : Nat) × Model α s nu => AnyModel.mk s m.1 m.2)
      (Horizon.final_map Stage.model TerminalStage.anyModel q.stages)).symm
  obtain ⟨q, hq, hproblem⟩ := h.problem
  rw [hproblem, hrunning, hrunning, hterminal, hterminal, hq]
  exact ⟨rfl, rfl⟩

end Session.IsOf

theorem LooseProblem.models_of_new {x₀ : List α} {running : List (AnyModel α)}
    {terminal : AnyModel α} {p : LooseProblem α} (h : new x₀ running terminal = .ok p) :
    p.models = running ∧ p.terminalModel = terminal := by
  obtain ⟨⟨⟩, -, h⟩ := exists_of_bind_ok h
  dsimp only at h
  split at h
  next =>
    cases h
    refine ⟨?_, rfl⟩
    show (running.map LooseStage.fresh).map LooseStage.model = running
    rw [List.map_map]
    exact List.map_id running
  next => cases h

namespace Session

/-- **All sizes are kept, and nothing clashes.** A problem is made of all models that share the sizes
of their states with the initial state, and of no others. In any session with it, all data have the
sizes of their own models, the workspace of a solve has those of all stages, and the problem answers
what fits it. -/
theorem sizes_kept [PseudoInverting α] (x₀ : List α) (running : List (AnyModel α))
    (terminal : AnyModel α) :
    ((∃ p, LooseProblem.new x₀ running terminal = .ok p) ↔
      ∃ nx ndx, (∀ m ∈ running ++ [terminal], m.space.nx = nx ∧ m.space.ndx = ndx) ∧
        x₀.length = nx) ∧
    ∀ p, LooseProblem.new x₀ running terminal = .ok p →
      ∀ (sv : LooseSolver α) (requests : List (Request α)) (σ : Session α),
        (Session.new p sv).run requests = some σ →
          σ.problem.models = running ∧ σ.problem.terminalModel = terminal ∧ σ.problem.Fits ∧
          (σ.begun = true → ∃ w, σ.solver.workspace = some w ∧ w.Fits σ.problem) ∧
          σ.problem.Answers := by
  refine ⟨LooseProblem.new_ok_iff x₀ running terminal, ?_⟩
  intro p hnew sv requests σ hrun
  obtain ⟨hmodels, hterminal⟩ := LooseProblem.models_of_new hnew
  obtain ⟨made, hmade⟩ : ∃ made : AnyProblem α, p = made.toLoose := by
    rw [LooseProblem.new_eq] at hnew
    cases hmade : Problem.ofModels? x₀ running terminal with
    | ok made =>
      rw [hmade] at hnew
      exact ⟨made, (Except.ok.inj hnew).symm⟩
    | error fault =>
      rw [hmade] at hnew
      cases hnew
  have hstart : (Session.new p sv).IsOf made.problem := ⟨⟨made.problem, rfl, hmade⟩, nofun⟩
  have hend := hstart.run requests hrun
  have hsame := hend.models
  rw [hmade] at hmodels hterminal
  exact ⟨hsame.1.trans hmodels, hsame.2.trans hterminal, hend.fits, hend.fits_workspace,
    hend.answers⟩

/-- Stages with one control and with none, one of them with finite differences of finite
differences: a rollout, derivatives, a search, a solve, another initial state, and a refusal. -/
theorem sizes_kept_push :
    let push : Model Float (.euclidean 1) 1 :=
      .lqr (.driftless (.identity 1) (.identity 1) (.identity 1) (.identity 1))
    let running : List (AnyModel Float) :=
      [⟨.euclidean 1, 1, .differenced .standard (.differenced .standard push)⟩,
        ⟨.euclidean 1, 0, .lqr (.terminal (.identity 1))⟩]
    let requests : List (Request Float) :=
      [.rollout [[1], []], .expand [[1], [2], [2]] [[1], []], .quasiStatic 0 [1] 1 0,
        .solve .none (fun _ => 0) 1, .setStart [2], .evaluate [] []]
    ∃ p σ, LooseProblem.new [1] running ⟨.euclidean 1, 1, push⟩ = .ok p ∧
      (Session.new p ⟨.standard, none⟩).run requests = some σ ∧ σ.begun = true ∧
      σ.problem.Fits ∧ (∃ w, σ.solver.workspace = some w ∧ w.Fits σ.problem) ∧
      σ.problem.Answers := by
  intro push running requests
  have hkept := sizes_kept [1] running ⟨.euclidean 1, 1, push⟩
  have hrun : ∃ σ, (Session.new (.ofStages [1] (running.map .fresh) (.fresh ⟨.euclidean 1, 1, push⟩))
      ⟨.standard, none⟩).run requests = some σ ∧ σ.begun = true := by
    have hbegun : ((Session.new (.ofStages [1] (running.map .fresh)
        (.fresh ⟨.euclidean 1, 1, push⟩)) ⟨.standard, none⟩).run requests).map Session.begun =
          some true := by
      dsimp only [running, requests, push]
      decide +kernel
    exact Option.map_eq_some_iff.mp hbegun
  obtain ⟨σ, hσ, hbegun⟩ := hrun
  obtain ⟨-, -, hfits, hworkspace, hanswers⟩ := hkept.2 _ rfl _ requests σ hσ
  exact ⟨_, σ, rfl, hσ, hbegun, hfits, hworkspace hbegun, hanswers⟩

/-- Sizes do matter: the gap at a state of two entries, where one is expected, is a clash. -/
example :
    let stage : LooseStage Float := .fresh ⟨.euclidean 1, 0, .lqr (.terminal (.identity 1))⟩
    ((Session.new (.ofStages [1] [stage] stage) ⟨.standard, none⟩).serve
      (.gaps [[0, 0], [0]])).isNone = true := by
  decide +kernel

end Session

end Shooting
