import Shooting.Proofs.Loose.Problem

/-!
# One stage after the other

The operations of a problem in memory that pick a stage by its number: evaluating one stage, rolling
controls out, and searching for quasi-static controls. On a problem whose sizes were forgotten they
find the stage and its data where they look for them, and what they leave behind is again a problem
whose sizes were forgotten (`evaluateStage_toLoose`, `rollout_toLoose`, `quasiStatic_toLoose` and
their like).

A loop over the stages is followed with the stages that are done in front, as a list, and the stages
to come behind them, where their sizes are still known.
-/

namespace Shooting

/-- Visiting a place of a horizon: either it is outside, or one value is replaced and the values
before and behind it stay. `r` is any reading of the values. -/
theorem Horizon.visit_spec {F : Nat → Type} {G β γ : Type} (f : ∀ {nu}, F nu → F nu × β)
    (r : ∀ {nu}, F nu → γ) : ∀ {nus : List Nat} (h : Horizon F G nus) (t : Nat),
    (nus.length ≤ t ∧ h.visit f t = (h, none)) ∨
      ∃ (nu : Nat) (a : F nu) (pre rest : List γ), pre.length = t ∧
        h.running r = pre ++ r a :: rest ∧ (h.visit f t).1.running r = pre ++ r (f a).1 :: rest ∧
        (h.visit f t).1.final = h.final ∧ (h.visit f t).2 = some (f a).2
  | _, last _, _ => .inl ⟨Nat.zero_le _, by rw [visit]⟩
  | _, stage a rest, 0 => .inr ⟨_, a, [], rest.running r, rfl, rfl, rfl, rfl, rfl⟩
  | _, stage a rest, t + 1 => by
    obtain ⟨hout, hnone⟩ | ⟨nu, b, pre, behind, hpre, hbefore, hafter, hfinal, hanswer⟩ :=
      visit_spec f r rest t
    · refine .inl ⟨Nat.succ_le_succ hout, ?_⟩
      rw [visit, hnone]
    · exact .inr ⟨nu, b, r a :: pre, behind, congrArg (· + 1) hpre, congrArg (r a :: ·) hbefore,
        congrArg (r a :: ·) hafter, hfinal, hanswer⟩

variable {α : Type} [Scalar α] {s : StateSpace} {nu : Nat} {nus : List Nat}

namespace LooseProblem

/-- Evaluates running stage `t` alone. -/
def evaluateStage (p : LooseProblem α) (t : Nat) (x u : List α) :
    Loose (ProblemError α) (LooseProblem α × LooseEvaluation α) :=
  match p.models[t]? with
  | none => .error (.error (.invalidInput (.stageOutside t p.horizon)))
  | some m => do
    Loose.sized (m.model.check x (some u))
    let d ← m.evaluate (← Loose.entry p.datas t) x (some u)
    let datas ← Loose.put p.datas t d
    return ({ p with datas }, d.eval)

/-- Evaluates the last stage alone. -/
def evaluateTerminal (p : LooseProblem α) (x : List α) :
    Loose (ProblemError α) (LooseProblem α × LooseEvaluation α) := do
  Loose.sized (p.terminalModel.model.check x none)
  let terminalData ← p.terminalModel.evaluate p.terminalData x none
  return ({ p with terminalData }, terminalData.eval)

/-- Applies controls to the stages from number `t` on, after the states `xs`. -/
def rolloutFrom : List (List α) → (t : Nat) → (xs : List (List α)) → LooseProblem α →
    Loose (ProblemError α) (LooseProblem α × List (List α))
  | [], _, xs, p => return (p, xs)
  | u :: us, t, xs, p => do
    let (p, e) ← p.evaluateStage t (← Loose.entry xs t) u
    rolloutFrom us (t + 1) (xs ++ [e.next]) p

/-- The states that given controls produce. -/
def rollout (p : LooseProblem α) (us : List (List α)) :
    Loose (ProblemError α) (LooseProblem α × List (List α)) := do
  Loose.sized (p.checkControls us)
  let (p, xs) ← rolloutFrom us 0 [p.start] p
  match xs.getLast? with
  | some x =>
    let terminalData ← p.terminalModel.evaluate p.terminalData x none
    return ({ p with terminalData }, xs)
  | none => return (p, xs)

/-- What an operation answers that may leave something behind when it is refused. -/
abbrev Answer (α β : Type) : Type := Except (Refusal (ProblemError α)) β

section

variable [PseudoInverting α]

/-- The control that keeps running stage `t` at `x`. -/
def quasiStatic (p : LooseProblem α) (t : Nat) (x : List α) (maxIter : Nat) (tol : α) :
    Loose (ProblemError α) (LooseProblem α × Answer α (List α)) :=
  match p.models[t]? with
  | none => return (p, .error (.error (.invalidInput (.stageOutside t p.horizon))))
  | some m =>
    match m.model.check x none with
    | .error fault => return (p, .error (.error (.dimensionMismatch fault)))
    | .ok () => do
      let (d, outcome) ← m.model.quasiStaticLoose (← Loose.entry p.datas t) x maxIter tol
      let datas ← Loose.put p.datas t d
      return ({ p with datas },
        outcome.mapError fun failure => failure.toRefusal m.model.evaluator.name maxIter)

/-- Quasi-static controls for the stages from number `t` on, or zero where there is none. -/
def quasiStaticFrom (maxIter : Nat) (tol : α) : List (List α) → (t : Nat) → LooseProblem α →
    Loose (ProblemError α) (LooseProblem α × Answer α (List (List α)))
  | [], _, p => return (p, .ok [])
  | x :: xs, t, p => do
    let (p, answer) ← p.quasiStatic t x maxIter tol
    let keep (u : List α) : Loose (ProblemError α) (LooseProblem α × Answer α (List (List α))) := do
      let (p, us) ← quasiStaticFrom maxIter tol xs (t + 1) p
      return (p, us.map (u :: ·))
    match answer with
    | .ok u => keep u
    | .error .misuse => return (p, .error .misuse)
    | .error (.error (.dimensionMismatch fault)) =>
      return (p, .error (.error (.dimensionMismatch fault)))
    | .error (.error _) => keep (Loose.zeros (← Loose.entry p.models t).nu)

/-- Quasi-static controls along given states, of which there have to be enough. -/
def quasiStaticControls (p : LooseProblem α) (xs : List (List α)) (maxIter : Nat) (tol : α) :
    Loose (ProblemError α) (LooseProblem α × Answer α (List (List α))) :=
  if xs.length < p.horizon then
    return (p, .error (.error (.dimensionMismatch (.leadingStates p.horizon xs.length))))
  else quasiStaticFrom maxIter tol (xs.take p.horizon) 0 p

end

/-! ## One stage -/

section

variable (start : List α) (pre rest : List (LooseStage α)) (terminal : LooseStage α)

omit [Scalar α] in
theorem ofStages_snoc (st : LooseStage α) :
    ofStages start (pre ++ st :: rest) terminal = ofStages start (pre ++ [st] ++ rest) terminal := by
  rw [← List.append_cons]

omit [Scalar α] in
theorem model_ofStages {t : Nat} (ht : pre.length = t) (st : LooseStage α) :
    (ofStages start (pre ++ st :: rest) terminal).models[t]? = some st.model := by
  simp [ofStages, ← ht]

omit [Scalar α] in
theorem entry_ofStages {t : Nat} (ht : pre.length = t) (st : LooseStage α) :
    (Loose.entry (ofStages start (pre ++ st :: rest) terminal).datas t :
      Loose (ProblemError α) (LooseData α)) = .ok st.data := by
  show Loose.entry ((pre ++ st :: rest).map LooseStage.data) t = _
  rw [List.map_append, List.map_cons]
  exact Loose.entry_append ((List.length_map _).trans ht)

omit [Scalar α] in
theorem put_ofStages {t : Nat} (ht : pre.length = t) (st : LooseStage α) (d : LooseData α) :
    (Loose.put (ofStages start (pre ++ st :: rest) terminal).datas t d :
      Loose (ProblemError α) (List (LooseData α))) =
        .ok ((pre ++ ⟨st.model, d⟩ :: rest).map LooseStage.data) := by
  show Loose.put ((pre ++ st :: rest).map LooseStage.data) t d = _
  rw [List.map_append, List.map_append, List.map_cons, List.map_cons]
  exact Loose.put_append ((List.length_map _).trans ht) d

theorem evaluateStage_ofStages {t : Nat} (ht : pre.length = t) (st : Stage α s nu)
    (x : Vec α s.nx) (u : Vec α nu) :
    (ofStages start (pre ++ st.toLoose :: rest) terminal).evaluateStage t x.toList u.toList =
      .ok (ofStages start (pre ++ (st.evaluate x u).toLoose :: rest) terminal,
        (st.evaluate x u).data.eval.toLoose) := by
  have hcheck : st.toLoose.model.model.check x.toList (some u.toList) = .ok () :=
    st.model.check_toList x (some u)
  unfold evaluateStage
  rw [model_ofStages start pre rest terminal ht]
  dsimp only
  rw [hcheck, Loose.sized_ok, Loose.ok_bind, entry_ofStages start pre rest terminal ht,
    Loose.ok_bind, st.evaluate_toLoose, Loose.ok_bind, put_ofStages start pre rest terminal ht,
    Loose.ok_bind]
  simp [ofStages, Stage.toLoose, Stage.evaluate, StageData.toLoose]

theorem quasiStatic_ofStages [PseudoInverting α] {t : Nat} (ht : pre.length = t)
    (st : Stage α s nu) (x : List α) (maxIter : Nat) (tol : α) :
    (ofStages start (pre ++ st.toLoose :: rest) terminal).quasiStatic t x maxIter tol =
      .ok (ofStages start (pre ++ (Problem.quasiStaticOfStage st x maxIter tol).1.toLoose :: rest)
        terminal, (Problem.quasiStaticOfStage st x maxIter tol).2) := by
  unfold quasiStatic Problem.quasiStaticOfStage
  rw [model_ofStages start pre rest terminal ht]
  dsimp only
  cases hx : Model.state? (.model st.model.name) s x with
  | error fault =>
    have hcheck : st.toLoose.model.model.check x none = .error fault := by
      show Model.check st.model x none = _
      unfold Model.check Model.arguments?
      rw [hx]
      rfl
    rw [hcheck]
    rfl
  | ok v =>
    obtain rfl := Model.toList_of_state? hx
    have hcheck : st.toLoose.model.model.check v.toList none = .ok () :=
      st.model.check_toList v none
    have hsearch : st.toLoose.model.model.quasiStaticLoose st.toLoose.data v.toList maxIter tol = _ :=
      st.model.quasiStaticLoose_toList st.data v maxIter tol
    rw [hcheck]
    dsimp only
    rw [entry_ofStages start pre rest terminal ht, Loose.ok_bind, hsearch, Loose.ok_bind]
    dsimp only
    rw [put_ofStages start pre rest terminal ht, Loose.ok_bind]
    cases (st.model.quasiStatic v maxIter tol).outcome <;>
      simp [ofStages, Stage.toLoose, Except.map, Except.mapError]

end

/-! ## Evaluating one stage -/

/-- What a stage makes of lists that may not fit it. -/
def attempt (x u : List α) (st : Stage α s nu) :
    Stage α s nu × Except SizeFault (Evaluation α s.nx) :=
  match Model.state? (.model st.model.name) s x, Model.control? (.model st.model.name) nu u with
  | .ok x, .ok u => (st.evaluate x u, .ok (st.evaluate x u).data.eval)
  | .error fault, _ => (st, .error fault)
  | _, .error fault => (st, .error fault)

theorem evaluateStage?_eq (p : Problem α s nus) (t : Nat) (x u : List α) :
    p.evaluateStage? t x u = match p.stages.visit (attempt x u) t with
      | (_, none) => .error (.invalidInput (.stageOutside t nus.length))
      | (_, some (.error fault)) => .error (.dimensionMismatch fault)
      | (stages, some (.ok e)) => .ok ({ p with stages }, e) := rfl

theorem evaluateStage_attempt (start : List α) (pre rest : List (LooseStage α))
    (terminal : LooseStage α) {t : Nat} (ht : pre.length = t) (st : Stage α s nu) (x u : List α) :
    (ofStages start (pre ++ st.toLoose :: rest) terminal).evaluateStage t x u =
      Loose.sized ((attempt x u st).2.map fun e =>
        (ofStages start (pre ++ (attempt x u st).1.toLoose :: rest) terminal, e.toLoose)) := by
  have hrefused {fault : SizeFault} (h : st.model.check x (some u) = .error fault) :
      (ofStages start (pre ++ st.toLoose :: rest) terminal).evaluateStage t x u =
        .error (.error (.dimensionMismatch fault)) := by
    have hcheck : st.toLoose.model.model.check x (some u) = .error fault := h
    unfold evaluateStage
    rw [model_ofStages start pre rest terminal ht]
    dsimp only
    rw [hcheck]
    rfl
  unfold attempt
  cases hx : Model.state? (.model st.model.name) s x with
  | error fault =>
    refine hrefused ?_
    unfold Model.check Model.arguments?
    rw [hx]
    rfl
  | ok v =>
    cases hu : Model.control? (.model st.model.name) nu u with
    | error fault =>
      refine hrefused ?_
      unfold Model.check Model.arguments?
      rw [hx]
      show Functor.map _ (do
        let u ← (Model.control? (.model st.model.name) nu u).map some
        return (v, u)) = _
      rw [hu]
      rfl
    | ok w =>
      obtain rfl := Model.toList_of_state? hx
      obtain rfl := Model.toList_of_control? hu
      exact evaluateStage_ofStages start pre rest terminal ht st v w

variable (p : Problem α s nus)

omit [Scalar α] in
/-- A problem with stages that read as given. -/
theorem toLoose_mk (start : Vec α s.nx) (stages : Stages α s nus) {running : List (LooseStage α)}
    (h : stages.toLoose = running) :
    Problem.toLoose ⟨start, stages⟩ = ofStages start.toList running stages.final.toLoose := by
  rw [← h]
  rfl

/-- **Evaluating one stage in memory evaluates the stage.** -/
theorem evaluateStage_toLoose (t : Nat) (x u : List α) :
    p.toLoose.evaluateStage t x u =
      Loose.ofExcept ((p.evaluateStage? t x u).map fun (q, e) => (q.toLoose, e.toLoose)) := by
  rw [evaluateStage?_eq]
  obtain ⟨hout, hnone⟩ | ⟨nu, st, pre, rest, ht, hbefore, hafter, hfinal, hanswer⟩ :=
    p.stages.visit_spec (attempt x u) Stage.toLoose t
  · have hmodel : p.toLoose.models[t]? = none :=
      List.getElem?_eq_none (by simpa [Problem.toLoose, ofStages] using hout)
    unfold evaluateStage
    rw [hmodel, hnone, horizon_toLoose]
    rfl
  · have hstage := evaluateStage_attempt p.start.toList pre rest p.stages.final.toLoose ht st x u
    have hp : p.toLoose = ofStages p.start.toList (pre ++ st.toLoose :: rest)
        p.stages.final.toLoose := toLoose_mk p.start _ hbefore
    have hq := toLoose_mk p.start _ hafter
    rw [hp, hstage]
    generalize p.stages.visit (attempt x u) t = visited at hanswer hfinal hq
    obtain ⟨stages, answer⟩ := visited
    obtain rfl := hanswer
    dsimp only at hfinal hq
    rw [hfinal] at hq
    cases hattempt : (attempt x u st).2 with
    | error fault => rfl
    | ok e =>
      dsimp only
      rw [← hq]
      rfl

omit [Scalar α] in
theorem toLoose_setFinal (st : TerminalStage α s) : ∀ {nus : List Nat} (stages : Stages α s nus),
    Stages.toLoose (stages.setFinal st) = stages.toLoose ∧ Horizon.final (stages.setFinal st) = st
  | _, .last _ => ⟨rfl, rfl⟩
  | _, .stage a rest =>
    ⟨congrArg (a.toLoose :: ·) (toLoose_setFinal st rest).1, (toLoose_setFinal st rest).2⟩

theorem evaluateTerminal_ofStages (start : List α) (running : List (LooseStage α))
    (st : TerminalStage α s) (x : Vec α s.nx) :
    (ofStages start running st.toLoose).evaluateTerminal x.toList =
      .ok (ofStages start running (st.evaluate x).toLoose,
        (st.evaluate x).data.eval.toLoose) := by
  have hcheck : st.toLoose.model.model.check x.toList none = .ok () := st.model.check_toList x none
  show (Loose.sized (st.toLoose.model.model.check x.toList none) >>= fun _ =>
    st.toLoose.model.evaluate st.toLoose.data x.toList none >>= fun d =>
      pure ({ ofStages start running st.toLoose with terminalData := d }, d.eval)) = _
  rw [hcheck, Loose.sized_ok, Loose.ok_bind, TerminalStage.evaluate_toLoose, Loose.ok_bind]
  rfl

/-- **Evaluating the last stage in memory evaluates the last stage.** -/
theorem evaluateTerminal_toLoose (x : List α) :
    p.toLoose.evaluateTerminal x =
      Loose.sized ((p.evaluateTerminal? x).map fun (q, e) => (q.toLoose, e.toLoose)) := by
  unfold Problem.evaluateTerminal?
  dsimp only
  cases hx : Model.state? (.model p.stages.final.model.name) s x with
  | error fault =>
    have hcheck : p.toLoose.terminalModel.model.check x none = .error fault := by
      show Model.check p.stages.final.model x none = _
      unfold Model.check Model.arguments?
      rw [hx]
      rfl
    unfold evaluateTerminal
    rw [hcheck]
    rfl
  | ok v =>
    obtain rfl := Model.toList_of_state? hx
    obtain ⟨hrunning, hfinal⟩ := toLoose_setFinal (p.stages.final.evaluate v) p.stages
    have hq := toLoose_mk p.start _ hrunning
    rw [hfinal] at hq
    refine (evaluateTerminal_ofStages p.start.toList p.stages.toLoose p.stages.final v).trans ?_
    rw [← hq]
    rfl

/-! ## Rollouts -/

/-- The stages in front are evaluated, and `seen` are the states before the current one. -/
theorem rolloutFrom_toLoose (start : List α) (terminal : LooseStage α) : ∀ {nus : List Nat}
    (pre : List (LooseStage α)) (seen : List (List α)) (x : Vec α s.nx) (stages : Stages α s nus)
    (us : Controls α nus), seen.length = pre.length →
    rolloutFrom (us.running Vec.toList) pre.length (seen ++ [x.toList])
        (ofStages start (pre ++ stages.toLoose) terminal) =
      .ok (ofStages start (pre ++ (Stages.rolloutFrom x stages us).1.toLoose) terminal,
        seen ++ (Stages.rolloutFrom x stages us).2.toTrajectory.states)
  | _, _, _, _, .last _, .last (), _ => rfl
  | _, pre, seen, x, .stage st rest, .stage u us, hseen => by
    have hrest := rolloutFrom_toLoose start terminal (pre ++ [(st.evaluate x u).toLoose])
      (seen ++ [x.toList]) (st.evaluate x u).data.eval.next rest us (by simp [hseen])
    rw [List.length_append, ← ofStages_snoc] at hrest
    rw [Stages.toLoose_stage]
    show (Loose.entry (seen ++ [x.toList]) pre.length >>= fun x =>
      evaluateStage _ pre.length x u.toList >>= fun (p, e) =>
        rolloutFrom (us.running Vec.toList) (pre.length + 1) (seen ++ [_] ++ [e.next]) p) = _
    rw [Loose.entry_append hseen, Loose.ok_bind, evaluateStage_ofStages start pre _ terminal rfl,
      Loose.ok_bind]
    dsimp only
    refine (congrArg (rolloutFrom _ _ _) ?_).trans (hrest.trans ?_)
    · rfl
    · rw [List.append_assoc, List.append_assoc]
      rfl

theorem final_rolloutFrom : ∀ {nus : List Nat} (x : Vec α s.nx) (stages : Stages α s nus)
    (us : Controls α nus), Horizon.final (Stages.rolloutFrom x stages us).1 =
      stages.final.evaluate (Stages.rolloutFrom x stages us).2.final
  | _, _, .last _, .last () => rfl
  | _, x, .stage st rest, .stage u us => final_rolloutFrom (st.evaluate x u).data.eval.next rest us

/-- **Rolling controls out in memory rolls them out.** -/
theorem rollout_toLoose (us : List (List α)) :
    p.toLoose.rollout us =
      Loose.sized ((p.rollout? us).map fun (q, path) =>
        (q.toLoose, path.toTrajectory.states)) := by
  unfold rollout Problem.rollout?
  rw [checkControls_toLoose]
  cases hus : p.controls? us with
  | error fault => rfl
  | ok vs =>
    obtain rfl := Problem.running_of_controls? hus
    have hstages := rolloutFrom_toLoose p.start.toList p.stages.final.toLoose [] [] p.start p.stages
      vs rfl
    have hfinal := final_rolloutFrom p.start p.stages vs
    have hq : Problem.toLoose ⟨p.start, (Stages.rolloutFrom p.start p.stages vs).1⟩ = _ :=
      toLoose_mk p.start _ rfl
    rw [hfinal] at hq
    have hlast : (Stages.rolloutFrom p.start p.stages vs).2.toTrajectory.states.getLast? =
        some (Stages.rolloutFrom p.start p.stages vs).2.final.toList :=
      List.getLast?_concat
    show (rolloutFrom (vs.running Vec.toList) 0 [p.start.toList] p.toLoose >>= _) =
      .ok (Problem.toLoose ⟨p.start, (Stages.rolloutFrom p.start p.stages vs).1⟩,
        (Stages.rolloutFrom p.start p.stages vs).2.toTrajectory.states)
    refine (congrArg (· >>= _) hstages).trans ?_
    rw [Loose.ok_bind, hq]
    dsimp only [List.nil_append]
    rw [hlast]
    dsimp only
    show (p.stages.final.toLoose.model.evaluate p.stages.final.toLoose.data _ none >>= _) = _
    rw [TerminalStage.evaluate_toLoose]
    rfl

/-! ## Quasi-static controls -/

variable [PseudoInverting α]

/-- **Searching a quasi-static control in memory searches it.** -/
theorem quasiStatic_toLoose (t : Nat) (x : List α) (maxIter : Nat) (tol : α) :
    p.toLoose.quasiStatic t x maxIter tol =
      .ok ((p.quasiStatic? t x maxIter tol).1.toLoose, (p.quasiStatic? t x maxIter tol).2) := by
  unfold Problem.quasiStatic?
  obtain ⟨hout, hnone⟩ | ⟨nu, st, pre, rest, ht, hbefore, hafter, hfinal, hanswer⟩ :=
    p.stages.visit_spec (fun st => Problem.quasiStaticOfStage st x maxIter tol) Stage.toLoose t
  · have hmodel : p.toLoose.models[t]? = none :=
      List.getElem?_eq_none (by simpa [Problem.toLoose, ofStages] using hout)
    unfold quasiStatic
    rw [hmodel, hnone, horizon_toLoose]
    rfl
  · have hstage := quasiStatic_ofStages p.start.toList pre rest p.stages.final.toLoose ht st x
      maxIter tol
    have hp : p.toLoose = ofStages p.start.toList (pre ++ st.toLoose :: rest)
        p.stages.final.toLoose := toLoose_mk p.start _ hbefore
    have hq := toLoose_mk p.start _ hafter
    rw [hp, hstage]
    generalize p.stages.visit (fun st => Problem.quasiStaticOfStage st x maxIter tol) t = visited
      at hanswer hfinal hq
    obtain ⟨stages, answer⟩ := visited
    obtain rfl := hanswer
    dsimp only at hfinal hq ⊢
    rw [hq, hfinal]

/-- The stages in front have been searched. -/
theorem quasiStaticFrom_toLoose (start : List α) (terminal : LooseStage α) (maxIter : Nat)
    (tol : α) : ∀ {nus : List Nat} (n : Nat) (pre : List (LooseStage α)) (stages : Stages α s nus)
    (xs : List (List α)),
    quasiStaticFrom maxIter tol (xs.take nus.length) pre.length
        (ofStages start (pre ++ stages.toLoose) terminal) =
      .ok (ofStages start (pre ++ (Problem.warmStartFrom maxIter tol n stages xs).stages.toLoose)
        terminal, (Problem.warmStartFrom maxIter tol n stages xs).controls)
  | _, _, _, .last _, _ => by
    rw [List.length_nil, List.take_zero, Problem.warmStartFrom]
    rfl
  | _, _, _, .stage _ _, [] => rfl
  | _ :: nus, n, pre, .stage st rest, x :: xs => by
    have hstep := quasiStatic_ofStages start pre (Stages.toLoose rest) terminal rfl st x
      maxIter tol
    rw [List.length_cons, List.take_succ_cons, Stages.toLoose_stage, quasiStaticFrom, hstep,
      Loose.ok_bind, Problem.warmStartFrom]
    generalize Problem.quasiStaticOfStage st x maxIter tol = found
    obtain ⟨st', answer⟩ := found
    have hrest := quasiStaticFrom_toLoose start terminal maxIter tol (n + 1) (pre ++ [st'.toLoose])
      rest xs
    rw [List.length_append, ← ofStages_snoc, List.length_singleton] at hrest
    have hkeep (u : List α) : (do
        let (p, us) ← quasiStaticFrom maxIter tol (xs.take nus.length) (pre.length + 1)
          (ofStages start (pre ++ st'.toLoose :: Stages.toLoose rest) terminal)
        return (p, us.map (u :: ·)) : Loose (ProblemError α) _) =
          .ok (ofStages start (pre ++ st'.toLoose ::
              (Problem.warmStartFrom maxIter tol (n + 1) rest xs).stages.toLoose) terminal,
            (Problem.warmStartFrom maxIter tol (n + 1) rest xs).controls.map (u :: ·)) := by
      rw [hrest, Loose.ok_bind, List.append_assoc]
      rfl
    dsimp only
    cases answer with
    | ok u => exact hkeep u
    | error refusal =>
      cases refusal with
      | misuse => rfl
      | error e =>
        have hmodel : (Loose.entry (ofStages start (pre ++ st'.toLoose :: Stages.toLoose rest)
            terminal).models pre.length : Loose (ProblemError α) (AnyModel α)) =
              .ok st'.toLoose.model :=
          Loose.entry_eq_ok_iff.mpr (model_ofStages start pre _ terminal rfl _)
        have hzero := hkeep st'.zeroControl.toList
        cases e with
        | dimensionMismatch fault => rfl
        -- whatever else went wrong, the stage gets the zero control
        | unsupportedOperation _ | convergenceFailure _ | invalidNumericValue _ | invalidInput _ =>
          dsimp only
          rw [hmodel, Loose.ok_bind, Loose.zeros_eq]
          exact hzero

theorem final_warmStartFrom (maxIter : Nat) (tol : α) : ∀ {nus : List Nat} (n : Nat)
    (stages : Stages α s nus) (xs : List (List α)),
    Horizon.final (Problem.warmStartFrom maxIter tol n stages xs).stages = stages.final
  | _, _, .last _, _ => by
    rw [Problem.warmStartFrom]
  | _, _, .stage _ _, [] => rfl
  | _, n, .stage st rest, x :: xs => by
    have hrest := final_warmStartFrom maxIter tol (n + 1) rest xs
    rw [Problem.warmStartFrom]
    obtain ⟨st', answer⟩ := Problem.quasiStaticOfStage st x maxIter tol
    dsimp only
    split <;> first | exact hrest | rfl

/-- **Searching quasi-static controls in memory searches them.** -/
theorem quasiStaticControls_toLoose (xs : List (List α)) (maxIter : Nat) (tol : α) :
    p.toLoose.quasiStaticControls xs maxIter tol =
      .ok (Problem.toLoose { p with stages := (p.warmStart xs maxIter tol).stages },
        (p.warmStart xs maxIter tol).controls) := by
  unfold quasiStaticControls Problem.warmStart
  rw [horizon_toLoose]
  split
  next => rfl
  next =>
    have hstages := quasiStaticFrom_toLoose p.start.toList p.stages.final.toLoose maxIter tol 0 []
      p.stages xs
    have hq := toLoose_mk p.start (Problem.warmStartFrom maxIter tol 0 p.stages xs).stages rfl
    rw [final_warmStartFrom] at hq
    rw [hq]
    exact hstages

end LooseProblem

end Shooting
