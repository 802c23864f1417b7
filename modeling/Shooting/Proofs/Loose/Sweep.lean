import Shooting.Proofs.Loose.WriteSets
import Shooting.Proofs.Solver.Finiteness

/-!
# Sweeps over the stages in any order

Every stage has its own model and its own data, so the running stages may be worked off in any order,
or side by side. `LooseProblem.sweepInPlace` evaluates or expands them in the order of a list, then
the last stage, and sums the costs in stage order at the end. The models write into the data of their
stages part by part, as in `Model.evaluateInPlace`.

What happens to the stages is `Horizon.zipAt` for one of them and `Horizon.zipEach` for a list of
them. Two single stages commute (`Horizon.zipAt_comm`), hence two orders of the same stages do the
same (`Horizon.zipEach_perm`), and stage order is `Horizon.zipWith` (`Horizon.zipEach_range`). The
sweep in memory follows step by step (`LooseProblem.run_sweepStage`, `run_sweepInPlace`).
-/

namespace Shooting

/-! ## Stage by stage -/

namespace Horizon

variable {F F' : Nat → Type} {G G' : Type} {nus : List Nat}

/-- Combines the values of running stage `t`, if there is such a stage, and keeps all others. -/
def zipAt (f : ∀ {nu}, F nu → F' nu → F nu) : {nus : List Nat} → Horizon F G nus → (t : Nat) →
    Horizon F' G' nus → Horizon F G nus
  | _, last a, _, _ => last a
  | _, stage a as, 0, stage b _ => stage (f a b) as
  | _, stage a as, t + 1, stage _ bs => stage a (as.zipAt f t bs)

/-- Combines the values of the running stages listed, one after the other. -/
def zipEach (f : ∀ {nu}, F nu → F' nu → F nu) (order : List Nat) (h : Horizon F G nus)
    (k : Horizon F' G' nus) : Horizon F G nus :=
  order.foldl (fun h t => h.zipAt f t k) h

variable (f : ∀ {nu}, F nu → F' nu → F nu)

/-- **Two stages do not get in each other's way.** -/
theorem zipAt_comm (h : Horizon F G nus) (k : Horizon F' G' nus) (t t' : Nat) :
    (h.zipAt f t k).zipAt f t' k = (h.zipAt f t' k).zipAt f t k := by
  induction h generalizing t t' with
  | last a => rfl
  | stage a as ih =>
    cases k with
    | stage b bs =>
      -- at most one of the two is the first stage, or they are the same stage
      cases t with
      | zero => cases t' <;> rfl
      | succ t =>
        cases t' with
        | zero => rfl
        | succ t' => exact congrArg (stage a) (ih bs t t')

/-- **Orders of the same stages do the same.** -/
theorem zipEach_perm {order order' : List Nat} (hperm : order.Perm order') (h : Horizon F G nus)
    (k : Horizon F' G' nus) : zipEach f order h k = zipEach f order' h k :=
  hperm.foldl_eq' (fun t _ t' _ h => zipAt_comm f h k t t') h

/-- The stages after the first one. -/
theorem zipEach_succ {nu : Nat} (a : F nu) (b : F' nu) (k : Horizon F' G' nus)
    (order : List Nat) : ∀ h : Horizon F G nus,
    zipEach f (order.map Nat.succ) (.stage a h : Horizon F G (nu :: nus)) (.stage b k) =
      .stage a (zipEach f order h k) := by
  induction order with
  | nil =>
    intro h
    rfl
  | cons t order ih =>
    intro h
    exact ih (h.zipAt f t k)

/-- **In stage order, all stages are combined.** -/
theorem zipEach_range (h : Horizon F G nus) (k : Horizon F' G' nus) :
    zipEach f (List.range nus.length) h k = h.zipWith f (fun a _ => a) k := by
  induction h with
  | last a =>
    cases k with
    | last b => rfl
  | stage a as ih =>
    cases k with
    | stage b bs =>
      rw [List.length_cons, List.range_succ_eq_map]
      exact (zipEach_succ (F := F) f _ b bs _ as).trans (congrArg (stage (f a b)) (ih bs))

theorem final_zipAt (h : Horizon F G nus) (k : Horizon F' G' nus) (t : Nat) :
    (h.zipAt f t k).final = h.final := by
  induction h generalizing t with
  | last a => rfl
  | stage a as ih =>
    cases k with
    | stage b bs =>
      cases t with
      | zero => rfl
      | succ t => exact ih bs t

theorem final_zipEach (k : Horizon F' G' nus) (order : List Nat) (h : Horizon F G nus) :
    (h.zipEach f order k).final = h.final := by
  induction order generalizing h with
  | nil => rfl
  | cons t order ih => exact (ih (h.zipAt f t k)).trans (final_zipAt f h k t)

/-- The value at the end joins those of the running stages. -/
theorem setFinal_zipWith (g : G → G' → G) (h : Horizon F G nus) (k : Horizon F' G' nus) :
    (h.zipWith f (fun a _ => a) k).setFinal (g h.final k.final) = h.zipWith f g k := by
  induction h with
  | last a =>
    cases k with
    | last b => rfl
  | stage a as ih =>
    cases k with
    | stage b bs => exact congrArg (stage (f a b)) (ih bs)

end Horizon

/-! ## Sweeps -/

/-- What is done in every stage. -/
inductive Sweep where
  | evaluate
  | expand
  deriving DecidableEq, Repr

variable {α : Type} [Scalar α] {s : StateSpace} {nu : Nat} {nus : List Nat}

namespace Sweep

/-- Fills the data of one stage. -/
def fill : Sweep → AnyModel α → List α → Option (List α) → Filling α Unit
  | evaluate, m, x, u => m.model.evaluateInPlace x u
  | expand, m, x, u => m.model.expandInPlace x u

def stage : Sweep → Stage α s nu → Knot α s nu → Stage α s nu
  | evaluate, st, k => st.evaluate k.state k.control
  | expand, st, k => st.expand k.state k.control

def terminal : Sweep → TerminalStage α s → Vec α s.nx → TerminalStage α s
  | evaluate, st, x => st.evaluate x
  | expand, st, x => st.expand x

/-- All stages along a path. -/
def problem : Sweep → Problem α s nus → Path α s nus → Problem α s nus
  | evaluate, p, path => p.evaluate path
  | expand, p, path => p.expand path

/-- All stages along states and controls that have to fit. -/
def problem? : Sweep → Problem α s nus → List (List α) → List (List α) →
    Except SizeFault (Problem α s nus × α)
  | evaluate, p, xs, us => p.evaluate? xs us
  | expand, p, xs, us => p.expand? xs us

theorem problem?_of_path (k : Sweep) {p : Problem α s nus} {path : Path α s nus}
    {xs us : List (List α)} (h : p.path? xs us = .ok path) :
    k.problem? p xs us = .ok (k.problem p path, (k.problem p path).totalCost) := by
  cases k with
  | evaluate =>
    show p.evaluate? xs us = _
    unfold Problem.evaluate?
    rw [h]
    rfl
  | expand =>
    show p.expand? xs us = _
    unfold Problem.expand?
    rw [h]
    rfl

/-- The running stages in the given order, then the last one. -/
def inOrder (k : Sweep) (order : List Nat) (p : Problem α s nus) (path : Path α s nus) :
    Problem α s nus :=
  let stages : Stages α s nus := p.stages.zipEach k.stage order path
  { p with stages := stages.setFinal (k.terminal stages.final path.final) }

end Sweep

namespace LooseProblem

/-- Works on the data of running stage `t`, if there is such a stage. What has been written before a
refusal stays. -/
def onStage (t : Nat) (op : Filling α Unit) : Writing α Unit := fun p =>
  match p.datas[t]? with
  | none => .ok () p
  | some d =>
    match op d with
    | .ok _ d => .ok () { p with datas := p.datas.set t d }
    | .error refusal d => .error refusal { p with datas := p.datas.set t d }

/-- Works on the data of the last stage. -/
def onTerminal (op : Filling α Unit) : Writing α Unit := fun p =>
  match op p.terminalData with
  | .ok _ d => .ok () { p with terminalData := d }
  | .error refusal d => .error refusal { p with terminalData := d }

section

variable {p : LooseProblem α} {op : Filling α Unit} {d d' : LooseData α}

omit [Scalar α] in
theorem onStage_ok {t : Nat} (hdata : p.datas[t]? = some d) (h : op d = .ok () d') :
    onStage t op p = .ok () { p with datas := p.datas.set t d' } := by
  unfold onStage
  rw [hdata]
  dsimp only
  rw [h]

omit [Scalar α] in
theorem onTerminal_ok (h : op p.terminalData = .ok () d) :
    onTerminal op p = .ok () { p with terminalData := d } := by
  unfold onTerminal
  rw [h]

end

/-- Running stage `t` of a sweep. -/
def sweepStage (k : Sweep) (xs us : List (List α)) (t : Nat) : Writing α Unit := do
  match (← get).models[t]?, xs[t]?, us[t]? with
  | some m, some x, some u => onStage t (k.fill m x (some u))
  | _, _, _ => return ()

/-- Goes through the running stages in the given order, does the last one, and sums the costs. -/
def sweepInPlace (k : Sweep) (order : List Nat) (xs us : List (List α)) : Writing α α := do
  let p ← get
  InPlace.found (Loose.sized (p.checkTrajectory xs us))
  order.forM (sweepStage k xs us)
  let x ← InPlace.found (Loose.entry xs p.horizon)
  onTerminal (k.fill p.terminalModel x none)
  return (← get).totalCost

end LooseProblem

/-! ## What a sweep leaves -/

namespace Sweep

theorem model_stage (k : Sweep) (st : Stage α s nu) (kn : Knot α s nu) :
    (k.stage st kn).model = st.model := by
  cases k <;> rfl

theorem model_terminal (k : Sweep) (st : TerminalStage α s) (x : Vec α s.nx) :
    (k.terminal st x).toLoose.model = st.toLoose.model := by
  cases k <;> rfl

theorem models_zipAt (k : Sweep) (stages : Stages α s nus) (path : Path α s nus) (t : Nat) :
    Stages.models (stages.zipAt k.stage t path) = stages.models := by
  induction stages generalizing t with
  | last st => rfl
  | stage st rest ih =>
    cases path with
    | stage kn ks =>
      cases t with
      | zero => exact congrArg (Horizon.stage · (Stages.models rest)) (k.model_stage st kn)
      | succ t => exact congrArg (Horizon.stage st.model) (ih ks t)

/-- Either there is no stage `t`, or it stands between the others with its knot, and is the one
stage that is replaced. -/
theorem zipAt_spec (k : Sweep) : ∀ {nus : List Nat} (stages : Stages α s nus) (path : Path α s nus)
    (t : Nat), stages.models.ofLibrary = true →
    (nus.length ≤ t ∧ stages.zipAt k.stage t path = stages) ∨
      ∃ (nu : Nat) (st : Stage α s nu) (kn : Knot α s nu) (pre rest : List (LooseStage α)),
        st.model.ofLibrary = true ∧ pre.length = t ∧
        stages.toLoose = pre ++ st.toLoose :: rest ∧
        Stages.toLoose (stages.zipAt k.stage t path) = pre ++ (k.stage st kn).toLoose :: rest ∧
        path.toTrajectory.states[t]? = some kn.state.toList ∧
        path.toTrajectory.controls[t]? = some kn.control.toList
  | _, .last _, .last _, t, _ => .inl ⟨Nat.zero_le t, rfl⟩
  | _, .stage st rest, .stage kn ks, 0, hlib =>
    .inr ⟨_, st, kn, [], Stages.toLoose rest, (Bool.and_eq_true_iff.mp hlib).1, rfl, rfl, rfl, rfl, rfl⟩
  | _, .stage st rest, .stage kn ks, t + 1, hlib => by
    obtain ⟨hout, hsame⟩ | ⟨nu, st', kn', pre, rest', hst, ht, hbefore, hafter, hx, hu⟩ :=
      zipAt_spec k rest ks t (Bool.and_eq_true_iff.mp hlib).2
    · exact .inl ⟨Nat.succ_le_succ hout, congrArg (Horizon.stage st) hsame⟩
    · exact .inr ⟨nu, st', kn', st.toLoose :: pre, rest', hst, congrArg Nat.succ ht,
        congrArg (st.toLoose :: ·) hbefore, congrArg (st.toLoose :: ·) hafter, hx, hu⟩

theorem run_fill_stage (k : Sweep) {st : Stage α s nu} (hlib : st.model.ofLibrary = true)
    (kn : Knot α s nu) :
    k.fill st.toLoose.model kn.state.toList (some kn.control.toList) st.toLoose.data =
      .ok () (k.stage st kn).toLoose.data := by
  cases k with
  | evaluate => exact st.model.run_evaluateInPlace kn.state (some kn.control) _
  | expand => exact Model.run_expandInPlace hlib kn.state (some kn.control) _

theorem run_fill_terminal (k : Sweep) {st : TerminalStage α s} (hlib : st.model.ofLibrary = true)
    (x : Vec α s.nx) :
    k.fill st.toLoose.model x.toList none st.toLoose.data =
      .ok () (k.terminal st x).toLoose.data := by
  cases k with
  | evaluate => exact st.model.run_evaluateInPlace x none _
  | expand => exact Model.run_expandInPlace hlib x none _

end Sweep

omit [Scalar α] in
theorem Models.ofLibrary_final {stages : Stages α s nus} (h : stages.models.ofLibrary = true) :
    stages.final.model.ofLibrary = true := by
  induction stages with
  | last st => exact h
  | stage st rest ih => exact ih (Bool.and_eq_true_iff.mp h).2

namespace LooseProblem

/-- **The last stage of a sweep.** -/
theorem run_onTerminal (k : Sweep) {q : Problem α s nus}
    (hlib : q.stages.final.model.ofLibrary = true) (x : Vec α s.nx) :
    onTerminal (k.fill q.stages.final.toLoose.model x.toList none) q.toLoose =
      .ok () (Problem.toLoose
        { q with stages := q.stages.setFinal (k.terminal q.stages.final x) }) := by
  obtain ⟨hrunning, hlast⟩ := toLoose_setFinal (k.terminal q.stages.final x) q.stages
  have hq := toLoose_mk q.start _ hrunning
  rw [hlast] at hq
  rw [onTerminal_ok (p := q.toLoose) (k.run_fill_terminal hlib x), hq]
  unfold ofStages
  rw [k.model_terminal]
  rfl

variable {p : Problem α s nus} (hlib : p.stages.models.ofLibrary = true) (path : Path α s nus)
include hlib

/-- **One stage of a sweep.** -/
theorem run_sweepStage (k : Sweep) (t : Nat) :
    sweepStage k path.toTrajectory.states path.toTrajectory.controls t p.toLoose =
      .ok () (Problem.toLoose { p with stages := p.stages.zipAt k.stage t path }) := by
  unfold sweepStage
  rw [InPlace.run_get_bind]
  obtain ⟨hout, hsame⟩ | ⟨nu, st, kn, pre, rest, hst, rfl, hbefore, hafter, hx, hu⟩ :=
    k.zipAt_spec p.stages path t hlib
  · -- there is no such stage, and nothing is done
    have hmodel : p.toLoose.models[t]? = none :=
      List.getElem?_eq_none (by simpa [Problem.toLoose, ofStages] using hout)
    rw [hmodel, hsame]
    rfl
  · -- before and after, the problem is the same list of stages but for the one at `pre.length`
    have hp : p.toLoose = ofStages p.start.toList (pre ++ st.toLoose :: rest)
        p.stages.final.toLoose := toLoose_mk p.start _ hbefore
    have hq := toLoose_mk p.start _ hafter
    rw [Horizon.final_zipAt] at hq
    have hmodel : p.toLoose.models[pre.length]? = some st.toLoose.model := by
      rw [hp]
      simp [ofStages]
    have hdata : p.toLoose.datas[pre.length]? = some st.toLoose.data := by
      rw [hp]
      simp [ofStages]
    have hmodels : (k.stage st kn).toLoose.model = st.toLoose.model :=
      congrArg (AnyModel.mk s nu) (k.model_stage st kn)
    rw [hmodel, hx, hu, hq]
    dsimp only
    rw [onStage_ok hdata (k.run_fill_stage hst kn), hp]
    simp [ofStages, hmodels]

/-- **The running stages of a sweep**, by induction on the list of those that are left. -/
theorem run_sweepStages (k : Sweep) (order : List Nat) :
    order.forM (sweepStage k path.toTrajectory.states path.toTrajectory.controls) p.toLoose =
      .ok () (Problem.toLoose { p with stages := p.stages.zipEach k.stage order path }) := by
  induction order generalizing p with
  | nil => rfl
  | cons t order ih =>
    -- the models stay, so the rest of the sweep is one over models of the library again
    have hmodels := k.models_zipAt p.stages path t
    have hrest := ih (p := { p with stages := p.stages.zipAt k.stage t path })
      ((congrArg Models.ofLibrary hmodels).trans hlib)
    exact (InPlace.run_bind _ (run_sweepStage hlib path k t)).trans hrest

/-- **A sweep in memory is a sweep**, in whatever order. -/
theorem run_sweepInPlace (k : Sweep) (order : List Nat) :
    sweepInPlace k order path.toTrajectory.states path.toTrajectory.controls p.toLoose =
      .ok (k.inOrder order p path).totalCost (k.inOrder order p path).toLoose := by
  have hcheck : p.toLoose.checkTrajectory path.toTrajectory.states path.toTrajectory.controls =
      .ok () := by
    rw [checkTrajectory_toLoose, Problem.path?_toTrajectory]
    rfl
  have hentry : (Loose.entry path.toTrajectory.states p.toLoose.horizon :
      Loose (ProblemError α) (List α)) = .ok path.final.toList := by
    rw [horizon_toLoose]
    exact entry_final path
  have hfinal : Horizon.final (p.stages.zipEach k.stage order path) = p.stages.final :=
    Horizon.final_zipEach k.stage path order p.stages
  have hmodel : p.toLoose.terminalModel =
      (Horizon.final (p.stages.zipEach k.stage order path)).toLoose.model :=
    congrArg (fun st => st.toLoose.model) hfinal.symm
  -- the last stage is still as it was
  have hterminal := run_onTerminal k (q := { p with stages := p.stages.zipEach k.stage order path })
    (by rw [hfinal]; exact Models.ofLibrary_final hlib) path.final
  unfold sweepInPlace
  rw [InPlace.run_get_bind,
    InPlace.run_bind _ (InPlace.run_found (congrArg Loose.sized hcheck) p.toLoose),
    InPlace.run_bind _ (run_sweepStages hlib path k order),
    InPlace.run_bind _ (InPlace.run_found hentry _), hmodel, InPlace.run_bind _ hterminal]
  exact congrArg (EStateM.Result.ok · _) (totalCost_toLoose _)

end LooseProblem

/-- **Any order of all running stages is as good as stage order.** -/
theorem Sweep.inOrder_eq (k : Sweep) {order : List Nat}
    (hperm : order.Perm (List.range nus.length)) (p : Problem α s nus) (path : Path α s nus) :
    k.inOrder order p path = k.problem p path := by
  have hrunning := (Horizon.zipEach_perm k.stage hperm p.stages path).trans
    (Horizon.zipEach_range k.stage p.stages path)
  have hfinal : Horizon.final (p.stages.zipEach k.stage order path) = p.stages.final :=
    Horizon.final_zipEach k.stage path order p.stages
  have hall := Horizon.setFinal_zipWith k.stage k.terminal p.stages path
  rw [← hrunning] at hall
  unfold inOrder
  dsimp only
  rw [hfinal, hall]
  cases k <;> rfl

end Shooting
