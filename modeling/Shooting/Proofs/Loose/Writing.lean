import Shooting.Proofs.Loose.Session
import Shooting.Proofs.Solver.Refusal

/-!
# Checks before writes

The operations of `LooseProblem` answer with the problem they leave and, where they refuse, with
none. In memory there is one problem, which an operation writes stage by stage: had it to refuse in
the middle, the stages before would be overwritten already. Here the operations are stated in this
way (`Writing`), as a sequence of checks, readings and writes, and compared with the ones that are
not.

On any problem that was ever made, whatever has been done with it since, they write nothing unless
all sizes fit, and then they come to an end (`Session.validates_first`). The gaps are the exception.
Of the states they are given only the number is checked, and a state of another size is no error:
where it can be compared all the same it has a gap, and where it cannot the operation gives up.
-/

namespace Shooting

/-- An operation on a problem in memory that writes as it goes. What it has written stays written,
however it ends. -/
abbrev Writing (α β : Type) : Type := EStateM (Refusal (ProblemError α)) (LooseProblem α) β

variable {α β : Type} {s : StateSpace} {nus : List Nat}

namespace LooseProblem

/-! ## Operations -/

/-- What is found without writing anything. -/
def demand : Loose (ProblemError α) β → Writing α β
  | .ok b => pure b
  | .error refusal => throw refusal

/-- Does what is found without writing anything, and writes it at the end. -/
def atOnce (answer : LooseProblem α → Loose (ProblemError α) (LooseProblem α × β)) :
    Writing α β := do
  let (p, b) ← demand (answer (← get))
  set p
  return b

variable [Scalar α]

/-- Goes through models, states and controls side by side, from stage `t` on, and writes the data of
each stage before it turns to the next. -/
def passInPlaceFrom (f : Pass α) : (t : Nat) → List (AnyModel α) → List (List α) →
    List (List α) → Writing α Unit
  | t, m :: ms, x :: xs, u :: us => do
    match (← get).datas[t]? with
    | some d =>
      let d ← demand (f m d x (some u))
      modify fun p => { p with datas := p.datas.set t d }
      passInPlaceFrom f (t + 1) ms xs us
    | none => return ()
  | _, _, _, _ => return ()

/-- Goes through the running stages, does the last one, and sums the costs. -/
def passInPlace (f : Pass α) (xs us : List (List α)) : Writing α α := do
  let p ← get
  demand (Loose.sized (p.checkTrajectory xs us))
  passInPlaceFrom f 0 p.models xs us
  let x ← demand (Loose.entry xs p.horizon)
  let d ← demand (f p.terminalModel (← get).terminalData x none)
  modify fun p => { p with terminalData := d }
  return (← get).totalCost

/-- Evaluates running stage `t` alone. -/
def evaluateStageInPlace (t : Nat) (x u : List α) : Writing α (LooseEvaluation α) :=
  atOnce (·.evaluateStage t x u)

/-- Evaluates the last stage alone. -/
def evaluateTerminalInPlace (x : List α) : Writing α (LooseEvaluation α) :=
  atOnce (·.evaluateTerminal x)

/-- Applies controls to the stages from number `t` on, after the states `xs`. -/
def rolloutInPlaceFrom : List (List α) → (t : Nat) → (xs : List (List α)) →
    Writing α (List (List α))
  | [], _, xs => return xs
  | u :: us, t, xs => do
    let x ← demand (Loose.entry xs t)
    let e ← evaluateStageInPlace t x u
    rolloutInPlaceFrom us (t + 1) (xs ++ [e.next])

/-- The states that given controls produce. -/
def rolloutInPlace (us : List (List α)) : Writing α (List (List α)) := do
  let p ← get
  demand (Loose.sized (p.checkControls us))
  let xs ← rolloutInPlaceFrom us 0 [p.start]
  match xs.getLast? with
  | some x =>
    let p ← get
    let d ← demand (p.terminalModel.evaluate p.terminalData x none)
    modify fun p => { p with terminalData := d }
    return xs
  | none => return xs

omit [Scalar α] in
/-- Replaces the initial state. -/
def setStartInPlace (x₀ : List α) : Writing α Unit := do
  let p ← demand (Loose.sized ((← get).setStart x₀))
  set p

/-- The gaps between given states and the last predictions. -/
def gapsInPlace (xs : List (List α)) : Writing α (List (List α)) := do
  demand ((← get).gaps xs)

/-! ## What they come to -/

omit [Scalar α] in
theorem run_demand {x : Loose (ProblemError α) β} {b : β} (h : x = .ok b) (p : LooseProblem α) :
    demand x p = .ok b p := by
  rw [h]
  rfl

omit [Scalar α] in
theorem run_demand_error {x : Loose (ProblemError α) β} {refusal : Refusal (ProblemError α)}
    (h : x = .error refusal) (p : LooseProblem α) : demand x p = .error refusal p := by
  rw [h]
  rfl

section

variable {answer : LooseProblem α → Loose (ProblemError α) (LooseProblem α × β)}
  {p q : LooseProblem α}

omit [Scalar α] in
theorem run_atOnce {b : β} (h : answer p = .ok (q, b)) : atOnce answer p = .ok b q :=
  (InPlace.run_get_bind _ p).trans (InPlace.run_bind _ (run_demand h p))

omit [Scalar α] in
theorem run_atOnce_error {refusal : Refusal (ProblemError α)} (h : answer p = .error refusal) :
    atOnce answer p = .error refusal p :=
  (InPlace.run_get_bind _ p).trans (InPlace.run_bind_error _ (run_demand_error h p))

end

omit [Scalar α] in
/-- A pass that comes to an end leaves what it finds. The data in front of stage `t` are written. -/
theorem run_passInPlaceFrom (f : Pass α) {ms : List (AnyModel α)} {ds : List (LooseData α)}
    {xs us : List (List α)} (t : Nat) (pre : List (LooseData α)) {p : LooseProblem α}
    {ds' : List (LooseData α)} (ht : pre.length = t) (hdatas : p.datas = pre ++ ds)
    (h : passFrom f ms ds xs us = .ok ds') :
    passInPlaceFrom f t ms xs us p = .ok () { p with datas := pre ++ ds' } := by
  fun_induction passFrom f ms ds xs us generalizing t pre p ds' with
  | case1 m ms d ds x xs u us ih =>
    obtain ⟨d', hd', h⟩ := exists_of_bind_ok h
    obtain ⟨rest, hrest, h⟩ := exists_of_bind_ok h
    obtain rfl := Except.ok.inj h
    -- the data of stage `t` join those that are written, and the rest of the pass does not see them
    have hentry : p.datas[t]? = some d := by simp [hdatas, ← ht]
    have hset : p.datas.set t d' = (pre ++ [d']) ++ ds := by simp [hdatas, ← ht]
    have hstep := ih (t + 1) (pre ++ [d']) (p := { p with datas := p.datas.set t d' })
      (by simp [ht]) hset hrest
    rw [passInPlaceFrom, InPlace.run_get_bind, hentry]
    dsimp only
    rw [InPlace.run_bind _ (run_demand hd' p), InPlace.run_modify_bind, hstep, List.append_assoc]
    rfl
  | case2 ms ds xs us hshort =>
    obtain rfl := Except.ok.inj h
    rw [← hdatas]
    -- one of the lists is at its end; if it is the data, there is no stage `t` to be written
    unfold passInPlaceFrom
    split
    next m ms x xs u us =>
      cases ds with
      | nil =>
        have hentry : p.datas[t]? = none := by simp [hdatas, ← ht]
        rw [InPlace.run_get_bind, hentry]
        rfl
      | cons d ds => exact (hshort m ms d ds x xs u us rfl rfl rfl rfl).elim
    next => rfl

theorem pass_ok {f : Pass α} {p q : LooseProblem α} {xs us : List (List α)} {cost : α}
    (h : p.pass f xs us = .ok (q, cost)) :
    p.checkTrajectory xs us = .ok () ∧ ∃ datas x d, passFrom f p.models p.datas xs us = .ok datas ∧
      (Loose.entry xs p.horizon : Loose (ProblemError α) (List α)) = .ok x ∧
      f p.terminalModel p.terminalData x none = .ok d ∧
      q = { p with datas, terminalData := d } ∧ cost = q.totalCost := by
  obtain ⟨⟨⟩, hcheck, h⟩ := exists_of_bind_ok h
  obtain ⟨datas, hdatas, h⟩ := exists_of_bind_ok h
  obtain ⟨x, hx, h⟩ := exists_of_bind_ok h
  obtain ⟨d, hd, h⟩ := exists_of_bind_ok h
  obtain ⟨rfl, rfl⟩ := Prod.mk.inj (Except.ok.inj h)
  exact ⟨ok_of_mapError_ok hcheck, datas, x, d, hdatas, hx, hd, rfl, rfl⟩

/-- A pass answers the sum of the costs that it leaves. -/
theorem cost_of_pass {f : Pass α} {p q : LooseProblem α} {xs us : List (List α)} {cost : α}
    (h : p.pass f xs us = .ok (q, cost)) : cost = q.totalCost := by
  obtain ⟨-, datas, x, d, -, -, -, -, hcost⟩ := pass_ok h
  exact hcost

theorem run_passInPlace {f : Pass α} {p q : LooseProblem α} {xs us : List (List α)} {cost : α}
    (h : p.pass f xs us = .ok (q, cost)) : passInPlace f xs us p = .ok cost q := by
  obtain ⟨hcheck, datas, x, d, hdatas, hx, hd, rfl, rfl⟩ := pass_ok h
  have hfrom := run_passInPlaceFrom f 0 [] (p := p) rfl rfl hdatas
  unfold passInPlace
  rw [InPlace.run_get_bind, InPlace.run_bind _ (run_demand (congrArg Loose.sized hcheck) p),
    InPlace.run_bind _ hfrom, InPlace.run_bind _ (run_demand hx _), InPlace.run_get_bind,
    InPlace.run_bind _ (run_demand hd _)]
  rfl

theorem run_passInPlace_refused (f : Pass α) {p : LooseProblem α} {xs us : List (List α)}
    {fault : SizeFault} (h : p.checkTrajectory xs us = .error fault) :
    passInPlace f xs us p = .error (.error (.dimensionMismatch fault)) p := by
  unfold passInPlace
  rw [InPlace.run_get_bind]
  exact InPlace.run_bind_error _ (run_demand_error (congrArg Loose.sized h) p)

/-- A rollout that comes to an end leaves what it finds. -/
theorem run_rolloutInPlaceFrom : ∀ {us : List (List α)} {t : Nat} {xs ys : List (List α)}
    {p q : LooseProblem α}, rolloutFrom us t xs p = .ok (q, ys) →
      rolloutInPlaceFrom us t xs p = .ok ys q
  | [], _, _, _, _, _, h => by
    cases h
    rfl
  | u :: us, t, xs, ys, p, q, h => by
    obtain ⟨x, hx, h⟩ := exists_of_bind_ok h
    obtain ⟨⟨p', e⟩, hstage, h⟩ := exists_of_bind_ok h
    have hstage' : evaluateStageInPlace t x u p = .ok e p' := run_atOnce hstage
    rw [rolloutInPlaceFrom, InPlace.run_bind _ (run_demand hx p), InPlace.run_bind _ hstage']
    exact run_rolloutInPlaceFrom h

theorem run_rolloutInPlace {p q : LooseProblem α} {us xs : List (List α)}
    (h : p.rollout us = .ok (q, xs)) : rolloutInPlace us p = .ok xs q := by
  obtain ⟨⟨⟩, hcheck, h⟩ := exists_of_bind_ok h
  obtain ⟨⟨p', ys⟩, hfrom, h⟩ := exists_of_bind_ok h
  unfold rolloutInPlace
  rw [InPlace.run_get_bind, InPlace.run_bind _ (run_demand hcheck p),
    InPlace.run_bind _ (run_rolloutInPlaceFrom hfrom)]
  dsimp only at h
  split at h
  next x hlast =>
    obtain ⟨d, hd, h⟩ := exists_of_bind_ok h
    cases h
    rw [hlast]
    dsimp only
    rw [InPlace.run_get_bind, InPlace.run_bind _ (run_demand hd p'), InPlace.run_modify_bind]
    rfl
  next hlast =>
    cases h
    rw [hlast]
    rfl

theorem run_rolloutInPlace_refused {p : LooseProblem α} {us : List (List α)} {fault : SizeFault}
    (h : p.checkControls us = .error fault) :
    rolloutInPlace us p = .error (.error (.dimensionMismatch fault)) p := by
  unfold rolloutInPlace
  rw [InPlace.run_get_bind]
  exact InPlace.run_bind_error _ (run_demand_error (congrArg Loose.sized h) p)

/-! ## What fits -/

omit [Scalar α] in
theorem exists_of_map_eq_ok_iff {found : Except SizeFault β} :
    found.map (fun _ => ()) = .ok () ↔ ∃ b, found = .ok b := by
  cases found <;> simp [Except.map]

section

variable (p : Problem α s nus)

omit [Scalar α] in
theorem checkControls_ok_iff (us : List (List α)) :
    p.toLoose.checkControls us = .ok () ↔
      us.map List.length = p.toLoose.models.map AnyModel.nu := by
  rw [checkControls_toLoose, exists_of_map_eq_ok_iff, Problem.exists_controls?_iff, nu_toLoose]

omit [Scalar α] in
theorem checkTrajectory_ok_iff (xs us : List (List α)) :
    p.toLoose.checkTrajectory xs us = .ok () ↔ (⟨xs, us⟩ : Trajectory α).Fits p.toLoose := by
  have hstates : xs.map List.length = p.toLoose.spaces.map StateSpace.nx ↔
      xs.length = nus.length + 1 ∧ ∀ x ∈ xs, x.length = s.nx := by
    rw [spaces_toLoose, List.map_replicate, List.eq_replicate_iff, List.length_map,
      List.forall_mem_map]
  have hnus := nu_toLoose p
  rw [checkTrajectory_toLoose, exists_of_map_eq_ok_iff, Problem.exists_path?_iff, ← hstates]
  exact ⟨fun h => ⟨h.2, h.1.trans hnus.symm⟩, fun h => ⟨h.controls.trans hnus, h.states⟩⟩

omit [Scalar α] in
/-- A trajectory that fits is a path whose sizes were forgotten. -/
theorem exists_path_of_fits {t : Trajectory α} (h : t.Fits p.toLoose) :
    ∃ path : Path α s nus, path.toTrajectory = t := by
  have hcheck := (checkTrajectory_ok_iff p t.states t.controls).mpr h
  rw [checkTrajectory_toLoose] at hcheck
  obtain ⟨path, hpath⟩ := exists_of_map_eq_ok_iff.mp hcheck
  exact ⟨path, Problem.toTrajectory_of_path? hpath⟩

end

end LooseProblem

namespace Model

variable {nu : Nat}

theorem check_state_ok_iff (m : Model α s nu) (x : List α) :
    m.check x none = .ok () ↔ x.length = s.nx := by
  unfold check arguments?
  obtain ⟨hfits, v, hv⟩ | ⟨hfits, hv⟩ := LooseProblem.state?_cases (.model m.name) s x
  · rw [hv]
    exact ⟨fun _ => hfits, fun _ => rfl⟩
  · rw [hv]
    exact ⟨nofun, fun h => (hfits h).elim⟩

theorem check_ok_iff (m : Model α s nu) (x u : List α) :
    m.check x (some u) = .ok () ↔ x.length = s.nx ∧ u.length = nu := by
  unfold check arguments?
  obtain ⟨hx, v, hv⟩ | ⟨hx, hv⟩ := LooseProblem.state?_cases (.model m.name) s x
  · rw [hv]
    obtain ⟨hu, w, hw⟩ | ⟨hu, hw⟩ := LooseProblem.control?_cases (.model m.name) nu u
    · refine ⟨fun _ => ⟨hx, hu⟩, fun _ => ?_⟩
      simp only [Option.mapM_some, hw]
      rfl
    · refine ⟨fun h => ?_, fun h => (hu h.2).elim⟩
      simp only [Option.mapM_some, hw] at h
      cases h
  · rw [hv]
    exact ⟨nofun, fun h => (hx h.1).elim⟩

end Model

/-! ## Gaps -/

/-- The lists for which a gap can be taken in a space. In a Euclidean space they are the states; of
a joint, what a list has in excess of a state is not looked at. -/
def StateSpace.Compares : StateSpace → List α → Prop
  | euclidean n, x => x.length = n
  | revolute, x => 3 ≤ x.length

variable [Scalar α]

theorem StateSpace.exists_diff?_iff : ∀ (s : StateSpace) (x : List α) (v : Vec α s.nx),
    (∃ d, s.diff? x v.toList = some d) ↔ s.Compares x
  | euclidean n, x, v => by
    have hsome := Vec.ofList?_isSome_iff (n := x.length) v.toList
    rw [Vec.length_toList] at hsome
    show (∃ d, (do
      let b ← (Vec.ofList? v.toList : Option (Vec α x.length))
      return (b - Vec.ofList x).toList) = some d) ↔ x.length = n
    rw [eq_comm (a := x.length), ← hsome]
    cases (Vec.ofList? v.toList : Option (Vec α x.length)) <;> simp
  | revolute, x, v => by
    have hsome := Vec.ofList?_isSome_iff (n := 3) (x.take 3)
    have hv : Vec.ofList? (v.toList.take 3) = some v := by
      rw [List.take_of_length_le (Nat.le_of_eq v.length_toList)]
      exact Vec.ofList?_toList v
    rw [List.length_take, show min 3 x.length = 3 ↔ 3 ≤ x.length by omega] at hsome
    show (∃ d, (do
      let a ← (Vec.ofList? (x.take 3) : Option (Vec α 3))
      let b ← Vec.ofList? (v.toList.take 3)
      return (Revolute.diff a b).toList) = some d) ↔ 3 ≤ x.length
    rw [← hsome, hv]
    cases (Vec.ofList? (x.take 3) : Option (Vec α 3)) <;> simp

omit [Scalar α] in
theorem exists_mapM_iff {γ : Type} {f : β → Option γ} : ∀ (bs : List β),
    (∃ cs, bs.mapM f = some cs) ↔ ∀ b ∈ bs, ∃ c, f b = some c
  | [] => by simp
  | b :: bs => by
    have hrest := exists_mapM_iff (f := f) bs
    rw [List.mapM_cons, List.forall_mem_cons, ← hrest]
    cases f b with
    | none => simp
    | some c => cases bs.mapM f <;> simp

namespace LooseProblem

omit [Scalar α] in
theorem ofOption_mapM_cons {ε γ : Type} (f : β → Option γ) (b : β) (bs : List β) :
    (Loose.ofOption ((b :: bs).mapM f) : Loose ε (List γ)) =
      Loose.ofOption (f b) >>= fun c => Loose.ofOption (bs.mapM f) >>= fun cs =>
        pure (c :: cs) := by
  rw [List.mapM_cons]
  cases f b with
  | none => rfl
  | some c => cases bs.mapM f <;> rfl

theorem gapsFrom_eq : ∀ {nus : List Nat} (pre : List (List α)) (x : List α)
    (stages : Stages α s nus) (xs : List (List α)), xs.length = nus.length →
    gapsFrom (pre ++ x :: xs) pre.length (stages.toLoose.map LooseStage.model)
        (stages.toLoose.map LooseStage.data) =
      Loose.ofOption ((xs.zip (stages.running fun st => st.data.eval.next)).mapM
        fun (x, predicted) => s.diff? x predicted.toList)
  | _, pre, x, .last _, [], _ => rfl
  | _, pre, x, .stage st rest, y :: ys, h => by
    -- a stage is followed by the next state, which the loop looks up in the whole list
    have hrest := gapsFrom_eq (pre ++ [x]) y rest ys (Nat.succ.inj h)
    rw [List.length_append, List.length_singleton, List.append_assoc] at hrest
    have hentry : (Loose.entry (pre ++ x :: y :: ys) (pre.length + 1) :
        Loose (ProblemError α) (List α)) = .ok y := by
      rw [List.append_cons]
      exact Loose.entry_append (by simp)
    rw [Stages.toLoose_stage, List.map_cons, List.map_cons, gapsFrom, hentry, Loose.ok_bind]
    show (Loose.ofOption (s.diff? y st.data.eval.next.toList) >>= fun f =>
      gapsFrom ((pre ++ ([x] ++ y :: ys))) (pre.length + 1) _ _ >>= fun fs => pure (f :: fs)) = _
    rw [hrest]
    show _ = Loose.ofOption (((y, st.data.eval.next) :: ys.zip _).mapM _)
    rw [ofOption_mapM_cons]

/-- **The gaps of a problem in memory at any states**, also at those that do not fit. The first
state is compared with the initial one, the others with what the stages before them predict. -/
theorem gaps_eq (p : Problem α s nus) (xs : List (List α)) : p.toLoose.gaps xs = p.gaps? xs := by
  unfold gaps Problem.gaps?
  rw [horizon_toLoose, space_stageModel]
  split
  next hcount =>
    cases xs with
    | nil => cases hcount
    | cons x xs =>
      have hrest := gapsFrom_eq [] x p.stages xs (Nat.succ.inj hcount)
      have hall : (Loose.ofOption (((x :: xs).zip p.predictions).mapM fun (x, predicted) =>
          s.diff? x predicted.toList) : Loose (ProblemError α) (List (List α))) =
            Loose.ofOption (s.diff? x p.start.toList) >>= fun f =>
              gapsFrom (x :: xs) 0 p.toLoose.models p.toLoose.datas >>= fun fs =>
                pure (f :: fs) := by
        unfold Problem.predictions
        rw [List.zip_cons_cons, ofOption_mapM_cons, ← hrest]
        rfl
      refine hall.symm.trans ?_
      cases ((x :: xs).zip p.predictions).mapM fun (x, predicted) => s.diff? x predicted.toList <;>
        rfl
  next => rfl

/-- At states that are as many as expected, gaps are taken or nothing is answered at all. -/
theorem run_gapsInPlace (p : Problem α s nus) {xs : List (List α)}
    (hcount : xs.length = nus.length + 1) :
    ((∀ x ∈ xs, s.Compares x) → ∃ fs, gapsInPlace xs p.toLoose = .ok fs p.toLoose) ∧
      (¬ (∀ x ∈ xs, s.Compares x) → gapsInPlace xs p.toLoose = .error .misuse p.toLoose) := by
  have hlength : p.predictions.length = nus.length + 1 :=
    congrArg (· + 1) (Horizon.length_running _ p.stages)
  have hpairs : (∀ b ∈ xs.zip p.predictions, ∃ d, s.diff? b.1 b.2.toList = some d) ↔
      ∀ x ∈ xs, s.Compares x := by
    have hfst : (xs.zip p.predictions).map Prod.fst = xs :=
      List.map_fst_zip (Nat.le_of_eq (hcount.trans hlength.symm))
    simp only [StateSpace.exists_diff?_iff]
    rw [← List.forall_mem_map (f := Prod.fst) (P := s.Compares), hfst]
  -- there is an answer exactly if every single difference can be taken
  have hgaps := gaps_eq p xs
  unfold Problem.gaps? at hgaps
  rw [if_pos hcount] at hgaps
  rw [← hpairs, ← exists_mapM_iff]
  unfold gapsInPlace
  rw [InPlace.run_get_bind, hgaps]
  cases (xs.zip p.predictions).mapM fun (x, predicted) => s.diff? x predicted.toList with
  | none => exact ⟨fun ⟨_, h⟩ => (nomatch h), fun _ => rfl⟩
  | some fs => exact ⟨fun _ => ⟨fs, rfl⟩, fun h => (h ⟨fs, rfl⟩).elim⟩

/-! ## Checks first -/

/-- An operation that finds out about its arguments before it writes anything. Those that fit are
served, with what is said in `done` of the answer and of the problem that is left; those that do not
are refused for their sizes, and the problem is as it was. -/
structure ChecksFirst (p : LooseProblem α) (op : Writing α β) (fits : Prop)
    (done : β → LooseProblem α → Prop) : Prop where
  served : fits → ∃ b q, op p = .ok b q ∧ done b q
  refused : ¬ fits → ∃ fault, op p = .error (.error (.dimensionMismatch fault)) p

omit [Scalar α] in
/-- What obeys a check that decides what fits, and does so in place. -/
theorem ChecksFirst.of_obeys {p : LooseProblem α} {op : Writing α β} {fits : Prop}
    {done : β → LooseProblem α → Prop} {check : Except SizeFault Unit}
    {answer : Loose (ProblemError α) (LooseProblem α × β)} (hobeys : Loose.Obeys check answer)
    (hfits : check = .ok () ↔ fits)
    (hserved : ∀ b q, answer = .ok (q, b) → op p = .ok b q ∧ done b q)
    (hrefused : ∀ fault, check = .error fault →
      op p = .error (.error (.dimensionMismatch fault)) p) : p.ChecksFirst op fits done := by
  cases check with
  | ok u =>
    obtain ⟨⟨q, b⟩, hanswer⟩ := hobeys
    exact ⟨fun _ => ⟨b, q, hserved b q hanswer⟩, fun h => (h (hfits.mp rfl)).elim⟩
  | error fault =>
    have hunfit : ¬ fits := fun h => nomatch hfits.mpr h
    exact ⟨fun h => (hunfit h).elim, fun _ => ⟨fault, hrefused fault rfl⟩⟩

omit [Scalar α] in
/-- What obeys a check without writing anything before its end. -/
theorem ChecksFirst.atOnce {p : LooseProblem α} {fits : Prop} {check : Except SizeFault Unit}
    {answer : LooseProblem α → Loose (ProblemError α) (LooseProblem α × β)}
    (hobeys : Loose.Obeys check (answer p)) (hfits : check = .ok () ↔ fits) :
    p.ChecksFirst (atOnce answer) fits fun b q => answer p = .ok (q, b) := by
  refine .of_obeys hobeys hfits (fun b q h => ⟨run_atOnce h, h⟩) ?_
  intro fault hfault
  subst hfault
  exact run_atOnce_error hobeys

/-- The evaluations of all stages. -/
def evaluations (p : LooseProblem α) : List (LooseEvaluation α) :=
  p.datas.map LooseData.eval ++ [p.terminalData.eval]

omit [Scalar α] in
/-- A pass leaves of the data of every stage what it leaves in each. -/
theorem passFrom_keeps {γ : Type} {f : Pass α} {r : LooseData α → γ}
    (hf : ∀ m d x u d', f m d x u = .ok d' → r d' = r d) {ms : List (AnyModel α)}
    {ds : List (LooseData α)} {xs us : List (List α)} {ds' : List (LooseData α)}
    (h : passFrom f ms ds xs us = .ok ds') : ds'.map r = ds.map r := by
  fun_induction passFrom f ms ds xs us generalizing ds' with
  | case1 m ms d ds x xs u us ih =>
    obtain ⟨d', hd', h⟩ := exists_of_bind_ok h
    obtain ⟨rest, hrest, h⟩ := exists_of_bind_ok h
    obtain rfl := Except.ok.inj h
    rw [List.map_cons, List.map_cons, hf _ _ _ _ _ hd', ih hrest]
  | case2 =>
    obtain rfl := Except.ok.inj h
    rfl

/-- **Expanding changes no evaluation.** -/
theorem evaluations_expand {p q : LooseProblem α} {xs us : List (List α)} {cost : α}
    (h : p.expand xs us = .ok (q, cost)) : q.evaluations = p.evaluations := by
  have hkept (m : AnyModel α) (d : LooseData α) (x : List α) (u : Option (List α))
      (d' : LooseData α) (h : m.expand d x u = .ok d') : d'.eval = d.eval := by
    obtain ⟨e, -, h⟩ := exists_of_bind_ok h
    obtain rfl := Except.ok.inj h
    rfl
  obtain ⟨-, datas, x, d, hdatas, -, hd, rfl, -⟩ := pass_ok h
  unfold evaluations
  rw [passFrom_keeps hkept hdatas, hkept _ _ _ _ _ hd]

/-- What is said of a problem whose operations find out about their arguments first. -/
structure ValidatesFirst (p : LooseProblem α) : Prop where
  /-- Evaluating every stage needs a state and a control of the right size for each, and a state for
  the last. It answers the sum of the costs that are stored then. -/
  evaluate : ∀ xs us, p.ChecksFirst (passInPlace AnyModel.evaluate xs us)
    ((⟨xs, us⟩ : Trajectory α).Fits p) fun cost q =>
      p.evaluate xs us = .ok (q, cost) ∧ cost = q.totalCost
  /-- Expanding every stage needs the same, and changes no evaluation. -/
  expand : ∀ xs us, p.ChecksFirst (passInPlace AnyModel.expand xs us)
    ((⟨xs, us⟩ : Trajectory α).Fits p) fun cost q =>
      p.expand xs us = .ok (q, cost) ∧ cost = q.totalCost ∧ q.evaluations = p.evaluations
  /-- A rollout needs a control of the right size for every running stage. -/
  rollout : ∀ us, p.ChecksFirst (rolloutInPlace us)
    (us.map List.length = p.models.map AnyModel.nu) fun xs q => p.rollout us = .ok (q, xs)
  /-- There is no running stage outside of the horizon, … -/
  outside : ∀ t x u, p.horizon ≤ t → evaluateStageInPlace t x u p =
    .error (.error (.invalidInput (.stageOutside t p.horizon))) p
  /-- … and each of those inside needs its state and its control. -/
  stage : ∀ t m x u, p.models[t]? = some m → p.ChecksFirst (evaluateStageInPlace t x u)
    (x.length = m.space.nx ∧ u.length = m.nu) fun e q => p.evaluateStage t x u = .ok (q, e)
  /-- The last stage needs a state. -/
  terminal : ∀ x, p.ChecksFirst (evaluateTerminalInPlace x)
    (x.length = p.terminalModel.space.nx) fun e q => p.evaluateTerminal x = .ok (q, e)
  /-- An initial state is a state of the first stage. -/
  setStart : ∀ x₀, p.ChecksFirst (setStartInPlace x₀)
    (x₀.length = (p.stageModel 0).space.nx) fun _ q => q = { p with start := x₀ }
  /-- Gaps are refused for the number of the states, … -/
  gapsRefused : ∀ xs, xs.length ≠ p.horizon + 1 → gapsInPlace xs p =
    .error (.error (.dimensionMismatch (.states (p.horizon + 1) xs.length))) p
  /-- … but not for their sizes. -/
  gapsTaken : ∀ xs, xs.length = p.horizon + 1 →
    ((∀ x ∈ xs, (p.stageModel 0).space.Compares x) → ∃ fs, gapsInPlace xs p = .ok fs p) ∧
      (¬ (∀ x ∈ xs, (p.stageModel 0).space.Compares x) → gapsInPlace xs p = .error .misuse p)

omit [Scalar α] in
theorem checksFirst_setStart (p : LooseProblem α) (x₀ : List α) :
    p.ChecksFirst (setStartInPlace x₀) (x₀.length = (p.stageModel 0).space.nx)
      fun _ q => q = { p with start := x₀ } := by
  unfold setStartInPlace
  constructor
  · intro hfits
    have hstart : p.setStart x₀ = .ok { p with start := x₀ } := if_pos hfits
    refine ⟨(), _, ?_, rfl⟩
    rw [InPlace.run_get_bind]
    exact InPlace.run_bind _ (run_demand (congrArg Loose.sized hstart) p)
  · intro hfits
    have hstart : p.setStart x₀ = .error (.initialState x₀.length (p.stageModel 0).space.nx) :=
      if_neg hfits
    refine ⟨.initialState x₀.length (p.stageModel 0).space.nx, ?_⟩
    rw [InPlace.run_get_bind]
    exact InPlace.run_bind_error _ (run_demand_error (congrArg Loose.sized hstart) p)

/-- **A problem whose sizes were forgotten checks first.** -/
theorem validatesFirst_toLoose (p : Problem α s nus) : p.toLoose.ValidatesFirst where
  evaluate xs us := .of_obeys (evaluate_obeys p xs us) (checkTrajectory_ok_iff p xs us)
    (fun cost q h => ⟨run_passInPlace h, h, cost_of_pass h⟩)
    (fun _ => run_passInPlace_refused _)
  expand xs us := .of_obeys (expand_obeys p xs us) (checkTrajectory_ok_iff p xs us)
    (fun cost q h => ⟨run_passInPlace h, h, cost_of_pass h, evaluations_expand h⟩)
    (fun _ => run_passInPlace_refused _)
  rollout us := .of_obeys (rollout_obeys p us) (checkControls_ok_iff p us)
    (fun xs q h => ⟨run_rolloutInPlace h, h⟩) (fun _ => run_rolloutInPlace_refused)
  outside t x u h := by
    refine run_atOnce_error ?_
    unfold evaluateStage
    rw [List.getElem?_eq_none h]
  stage t m x u hm := .atOnce (evaluateStage_obeys p hm x u) (m.model.check_ok_iff x u)
  terminal x :=
    .atOnce (evaluateTerminal_obeys p x) (p.toLoose.terminalModel.model.check_state_ok_iff x)
  setStart := checksFirst_setStart p.toLoose
  gapsRefused xs h := by
    unfold gapsInPlace gaps
    rw [InPlace.run_get_bind, if_neg h]
    rfl
  gapsTaken xs h := by
    rw [space_stageModel]
    rw [horizon_toLoose] at h
    exact run_gapsInPlace p h

end LooseProblem

namespace Session

/-- **Checks come before writes.** Whatever was asked of a problem since it was made, each of its
operations writes nothing unless its arguments fit. The gaps are taken, or not, without looking at
the sizes of the states. -/
theorem validates_first [PseudoInverting α] {x₀ : List α} {running : List (AnyModel α)}
    {terminal : AnyModel α} {p : LooseProblem α} (hnew : LooseProblem.new x₀ running terminal = .ok p)
    {sv : LooseSolver α} {requests : List (Request α)} {σ : Session α}
    (hrun : (Session.new p sv).run requests = some σ) : σ.problem.ValidatesFirst := by
  rw [LooseProblem.new_eq] at hnew
  cases hmade : Problem.ofModels? x₀ running terminal with
  | error fault =>
    rw [hmade] at hnew
    cases hnew
  | ok made =>
    rw [hmade] at hnew
    obtain rfl : made.toLoose = p := Except.ok.inj hnew
    have hstart : (Session.new made.toLoose sv).IsOf made.problem :=
      ⟨⟨made.problem, rfl, rfl⟩, nofun⟩
    obtain ⟨q, -, hproblem⟩ := (hstart.run requests hrun).problem
    rw [hproblem]
    exact LooseProblem.validatesFirst_toLoose q

/-- Stages with one control and with none, after a rollout, derivatives and a refusal. -/
theorem validates_first_push :
    let push : Model Float (.euclidean 1) 1 :=
      .lqr (.driftless (.identity 1) (.identity 1) (.identity 1) (.identity 1))
    let running : List (AnyModel Float) :=
      [⟨.euclidean 1, 1, .differenced .standard push⟩,
        ⟨.euclidean 1, 0, .lqr (.terminal (.identity 1))⟩]
    let requests : List (Request Float) :=
      [.rollout [[1], []], .expand [[1], [2], [2]] [[1], []], .evaluate [] []]
    ∃ p σ, LooseProblem.new [1] running ⟨.euclidean 1, 1, push⟩ = .ok p ∧
      (Session.new p ⟨.standard, none⟩).run requests = some σ ∧ σ.problem.ValidatesFirst := by
  intro push running requests
  have hserved : ((Session.new (.ofStages [1] (running.map .fresh) (.fresh ⟨.euclidean 1, 1, push⟩))
      ⟨.standard, none⟩).run requests).isSome = true := by
    dsimp only [running, requests, push]
    decide +kernel
  obtain ⟨σ, hσ⟩ := Option.isSome_iff_exists.mp hserved
  have hnew : LooseProblem.new [1] running ⟨.euclidean 1, 1, push⟩ = .ok _ := rfl
  exact ⟨_, σ, hnew, hσ, validates_first hnew hσ⟩

/-- **Gaps do not refuse states of a wrong size.** For a joint, a state with one entry more than a
state has is answered, where an evaluation refuses it. In a Euclidean space, nothing is answered. -/
theorem gaps_take_any_size :
    let joint : AnyModel Float := ⟨.revolute, 1, .pendulum .standard⟩
    let line : AnyModel Float := ⟨.euclidean 1, 0, .lqr (.terminal (.identity 1))⟩
    (∃ p fs, LooseProblem.new [1, 0, 0] [joint] joint = .ok p ∧
      LooseProblem.gapsInPlace [[1, 0, 0, 7], [1, 0, 0]] p = .ok fs p ∧
      LooseProblem.passInPlace AnyModel.evaluate [[1, 0, 0, 7], [1, 0, 0]] [[0]] p =
        .error (.error (.dimensionMismatch (.state (.stage 0) 4 3))) p) ∧
    ∃ p, LooseProblem.new [1] [line] line = .ok p ∧
      LooseProblem.gapsInPlace [[1, 7], [1]] p = .error .misuse p := by
  intro joint line
  constructor
  · have hanswered : (LooseProblem.gaps (.ofStages [1, 0, 0] [.fresh joint] (.fresh joint))
        [[1, 0, 0, 7], [1, 0, 0]]).toOption.any (fun _ => true) = true := rfl
    obtain ⟨fs, hfs, -⟩ := exists_ok_of_any hanswered
    exact ⟨_, fs, rfl, LooseProblem.run_demand hfs _, LooseProblem.run_passInPlace_refused _ rfl⟩
  · exact ⟨_, rfl, rfl⟩

end Session

end Shooting
