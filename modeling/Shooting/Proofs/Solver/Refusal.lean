import Shooting.Proofs.Config
import Shooting.Proofs.InPlace
import Shooting.Proofs.Solver.Course

/-!
# Refused arguments

A solve refuses parameters that are not valid, and then a guess that does not fit the stages of the
problem. Whatever it refuses, it refuses before anything is changed: problem, solver and observers
are as they were (`Solver.refuses_untouched`).

For the definitions here this is plain to see, but not where problems and solvers are changed in
place. There the rollout of a guess without states writes into the stages before the trajectory is
checked, and every later use of the trajectory checks it again. So the beginning of a solve is also
stated in place (`Solver.beginInPlace`), in the order of its checks, and shown to come to the same
(`Solver.run_beginInPlace`): a trajectory that has been rolled out is not refused, nor is any
trajectory that has passed once.

No law of arithmetic is used.
-/

namespace Shooting

variable {α : Type} {s : StateSpace} {nus : List Nat}

/-! ## Sizes that fit -/

/-- Vectors for each stage are as long as their stages say. -/
theorem Horizon.map_length_running {F : Nat → Type} {G : Type} (f : ∀ {nu}, F nu → Vec α nu) :
    ∀ {nus : List Nat} (h : Horizon F G nus),
      (h.running fun a => (f a).toList).map List.length = nus
  | _, .last _ => rfl
  | nu :: nus, .stage a rest => by
    show (f a).toList.length :: (rest.running fun a => (f a).toList).map List.length = nu :: nus
    rw [Vec.length_toList, map_length_running f rest]

/-- The states of a path are as long as states are. -/
theorem Path.length_of_mem_states : ∀ {nus : List Nat} (path : Path α s nus),
    ∀ x ∈ path.toTrajectory.states, x.length = s.nx
  | _, .last v, x, hx => by
    obtain rfl := List.mem_singleton.mp hx
    exact v.length_toList
  | _, .stage k ks, x, hx => by
    rcases List.mem_cons.mp hx with rfl | hx
    · exact k.state.length_toList
    · exact length_of_mem_states ks x hx

theorem Vec.exists_toList_eq {n : Nat} {x : List α} (h : x.length = n) :
    ∃ v : Vec α n, v.toList = x := by
  subst h
  exact ⟨.ofList x, Vec.toList_ofList x⟩

/-- Lists that are as long as the stages say are controls. -/
theorem exists_controls : ∀ {nus : List Nat} {us : List (List α)}, us.map List.length = nus →
    ∃ vs : Controls α nus, vs.running Vec.toList = us
  | _, [], h => by
    subst h
    exact ⟨.last (), rfl⟩
  | _, u :: us, h => by
    subst h
    obtain ⟨v, hv⟩ := Vec.exists_toList_eq (x := u) rfl
    have hrest : us.map List.length = us.map List.length := rfl
    obtain ⟨vs, hvs⟩ := exists_controls hrest
    refine ⟨.stage v vs, ?_⟩
    show v.toList :: vs.running Vec.toList = u :: us
    rw [hv, hvs]

/-- Lists that are one more than the running stages, and all of one length, are vectors of that
length along the horizon. -/
theorem exists_vectors {n : Nat} : ∀ {nus : List Nat} {xs : List (List α)},
    xs.length = nus.length + 1 → (∀ x ∈ xs, x.length = n) →
    ∃ vs : Horizon (fun _ => Vec α n) (Vec α n) nus, vs.toList Vec.toList Vec.toList = xs
  | [], [x], _, hsizes => by
    obtain ⟨v, hv⟩ := Vec.exists_toList_eq (hsizes x (.head _))
    exact ⟨.last v, congrArg ([·]) hv⟩
  | _ :: nus, x :: xs, hcount, hsizes => by
    obtain ⟨v, hv⟩ := Vec.exists_toList_eq (hsizes x (.head _))
    obtain ⟨vs, hvs⟩ := exists_vectors (Nat.succ.inj hcount) fun y hy => hsizes y (.tail _ hy)
    refine ⟨.stage v vs, ?_⟩
    show v.toList :: vs.toList Vec.toList Vec.toList = x :: xs
    rw [hv, hvs]
  | _, [], hcount, _ => by simp at hcount
  | [], _ :: _ :: _, hcount, _ => by simp at hcount

/-- The sizes of what is given in a guess are those of a problem over the space `s` whose stages
have the given numbers of controls. -/
structure Guess.Fits (g : Guess α) (s : StateSpace) (nus : List Nat) : Prop where
  controls : ∀ us, g.controls = some us → us.map List.length = nus
  states : ∀ xs, g.states = some xs → xs.length = nus.length + 1 ∧ ∀ x ∈ xs, x.length = s.nx

namespace Problem

variable {p : Problem α s nus} {us xs : List (List α)}

/-- **What controls pass their check.** -/
theorem exists_controls?_iff : (∃ vs, p.controls? us = .ok vs) ↔ us.map List.length = nus := by
  constructor
  · rintro ⟨vs, hvs⟩
    rw [← running_of_controls? hvs]
    exact Horizon.map_length_running (fun v => v) vs
  · intro h
    obtain ⟨vs, rfl⟩ := exists_controls h
    exact ⟨vs, controls?_running vs⟩

/-- **What trajectories pass their check.** -/
theorem exists_path?_iff : (∃ path, p.path? xs us = .ok path) ↔
    us.map List.length = nus ∧ xs.length = nus.length + 1 ∧ ∀ x ∈ xs, x.length = s.nx := by
  constructor
  · rintro ⟨path, hpath⟩
    have hlists := toTrajectory_of_path? hpath
    have hstates : path.toTrajectory.states = xs := congrArg Trajectory.states hlists
    have hcontrols : path.toTrajectory.controls = us := congrArg Trajectory.controls hlists
    rw [← hstates, ← hcontrols]
    exact ⟨Horizon.map_length_running Knot.control path, Horizon.length_toList _ _ path,
      path.length_of_mem_states⟩
  · rintro ⟨hcontrols, hcount, hsizes⟩
    obtain ⟨vs, rfl⟩ := exists_controls hcontrols
    obtain ⟨ys, rfl⟩ := exists_vectors hcount hsizes
    have hpath := path?_toTrajectory (p := p) (Path.ofParts ys vs)
    unfold Path.toTrajectory at hpath
    rw [Path.states_ofParts, Path.controls_ofParts] at hpath
    exact ⟨_, hpath⟩

end Problem

/-! ## What is refused -/

variable [Scalar α]

/-- The controls that a solve of `p` is given, or zeros. -/
def Guess.inputs (g : Guess α) (p : Problem α s nus) : List (List α) :=
  g.controls.getD (p.stages.running fun st => st.zeroControl.toList)

/-- The parameters of a solve are valid: those of the configuration, and the regularization to start
with if there is one. -/
structure Solver.ParametersValid (sv : Solver α s nus) (g : Guess α) : Prop where
  config : sv.config.IsValid
  regularization : ∀ r, g.regularization = some r → Scalar.isNaN r = false

namespace Solver

variable {sv : Solver α s nus} {p : Problem α s nus} {g : Guess α} {clock : Nat → Nat}
  {budget : Nat}

/-- **What parameters pass their check.** -/
theorem exists_regularization_iff :
    (∃ r, (sv.config.validate >>= fun _ => sv.config.initialRegularization g.regularization) =
      .ok r) ↔ sv.ParametersValid g := by
  constructor
  · rintro ⟨r, hr⟩
    obtain ⟨⟨⟩, hvalid, hr⟩ := exists_of_bind_ok hr
    refine ⟨Config.isValid_of_validate hvalid, ?_⟩
    intro r' hr'
    rw [hr'] at hr
    unfold Config.initialRegularization at hr
    dsimp only at hr
    split at hr
    next => cases hr
    next hnumber => simpa using hnumber
  · rintro ⟨hvalid, hnumber⟩
    rw [Config.validate_ok_iff.mpr hvalid]
    show ∃ r, sv.config.initialRegularization g.regularization = .ok r
    cases hr : g.regularization with
    | none => exact ⟨_, rfl⟩
    | some r =>
      unfold Config.initialRegularization
      dsimp only
      rw [hnumber r hr, if_neg Bool.false_ne_true]
      exact ⟨_, rfl⟩

/-- The controls of a solve fit if they are given and fit, or if they are not given. -/
theorem fits_inputs_iff :
    (g.inputs p).map List.length = nus ↔ ∀ us, g.controls = some us → us.map List.length = nus := by
  unfold Guess.inputs
  cases g.controls with
  | none =>
    have hzeros := Horizon.map_length_running (fun st => st.zeroControl) p.stages
    exact ⟨fun _ => nofun, fun _ => hzeros⟩
  | some us =>
    refine ⟨fun h us' hus' => ?_, fun h => h us rfl⟩
    obtain rfl := Option.some.inj hus'
    exact h

theorem initialPath_of_states {xs : List (List α)} (h : g.states = some xs) :
    initialPath p g = (p.path? xs (g.inputs p)).map fun path => (p, path, g.feasible) := by
  unfold initialPath
  rw [h]
  dsimp only
  change p.path? xs (g.inputs p) >>= _ = _
  cases p.path? xs (g.inputs p) <;> rfl

theorem initialPath_of_rollout (h : g.states = none) :
    initialPath p g = (p.rollout? (g.inputs p)).map fun (p', path) => (p', path, true) := by
  unfold initialPath
  rw [h]
  dsimp only
  change p.rollout? (g.inputs p) >>= _ = _
  cases p.rollout? (g.inputs p) <;> rfl

/-- **What guesses pass their check.** -/
theorem exists_initialPath_iff : (∃ start, initialPath p g = .ok start) ↔ g.Fits s nus := by
  have hmap {β γ : Type} {x : Except SizeFault β} {f : β → γ} :
      (∃ c, x.map f = .ok c) ↔ ∃ b, x = .ok b := by
    cases x <;> simp [Except.map]
  cases hstates : g.states with
  | some xs =>
    rw [initialPath_of_states hstates, hmap, Problem.exists_path?_iff, fits_inputs_iff]
    refine ⟨fun h => ⟨h.1, fun xs' hxs' => ?_⟩, fun h => ⟨h.controls, h.states xs hstates⟩⟩
    obtain rfl := Option.some.inj (hstates.symm.trans hxs')
    exact h.2
  | none =>
    have hrollout : (∃ rolled, p.rollout? (g.inputs p) = .ok rolled) ↔
        ∃ vs, p.controls? (g.inputs p) = .ok vs := by
      unfold Problem.rollout?
      cases p.controls? (g.inputs p) <;> simp [bind, Except.bind, pure, Except.pure]
    rw [initialPath_of_rollout hstates, hmap, hrollout, Problem.exists_controls?_iff,
      fits_inputs_iff]
    exact ⟨fun h => ⟨h, fun xs hxs => by cases hstates.symm.trans hxs⟩, Guess.Fits.controls⟩

/-- The checks at the beginning of a solve, in their order. -/
theorem initialize?_eq (sv : Solver α s nus) (p : Problem α s nus) (g : Guess α) :
    sv.initialize? p g =
      match sv.config.validate >>= fun _ => sv.config.initialRegularization g.regularization with
      | .error fault => .error (.solver (.invalidParameters fault))
      | .ok regularization =>
        match initialPath p g with
        | .error fault => .error (.problem (.dimensionMismatch fault))
        | .ok (p', path, feasible) => .ok (p', .start path feasible regularization) := by
  unfold initialize?
  dsimp only
  cases sv.config.validate >>= fun _ => sv.config.initialRegularization g.regularization with
  | error fault => rfl
  | ok regularization => cases initialPath p g <;> rfl

/-- **When the beginning of a solve is refused, and for what.** -/
theorem initialize?_error_iff :
    ((∃ fault, sv.initialize? p g = .error (.solver (.invalidParameters fault))) ↔
        ¬ sv.ParametersValid g) ∧
      ((∃ fault, sv.initialize? p g = .error (.problem (.dimensionMismatch fault))) ↔
        sv.ParametersValid g ∧ ¬ g.Fits s nus) := by
  rw [← exists_regularization_iff, ← exists_initialPath_iff (p := p), initialize?_eq]
  cases sv.config.validate >>= fun _ => sv.config.initialRegularization g.regularization with
  | error fault => simp
  | ok regularization => cases initialPath p g <;> simp

/-- An error of a solve is that of its beginning, or says that a value is not finite. -/
theorem error_of_solveWithin {e : Error α}
    (h : (sv.solveWithin p g clock budget).outcome = .error (.error e)) :
    sv.initialize? p g = .error e ∨
      ∃ cause trajectory, e = .solver (.invalidNumericValue cause trajectory) := by
  have hcases := solveWithin_cases sv p g clock budget
  generalize sv.solveWithin p g clock budget = solved at h hcases
  cases hcases with
  | refused hinit =>
    cases h
    exact .inl hinit
  | misused => cases h
  | invalid hinit hbudget hinfinite he =>
    cases h
    exact .inr ⟨_, _, congrArg Error.solver he⟩
  | ended => cases h
  | @failed r₀ r r' i e' hbegin hbudget hperf hfail =>
    cases h
    obtain ⟨-, -, -, he⟩ := Run.refresh_error ((Run.iterate_cases sv.config r i).failed hfail)
    exact .inr ⟨_, _, congrArg Error.solver he⟩

end Solver

/-! ## Beginning in place -/

namespace Solver

/-- The trajectory that a solve starts from, and whether it is feasible. It is checked also if it
comes from a rollout, which has written into the problem by then. -/
def initialPathInPlace (g : Guess α) : InPlace α s nus (Path α s nus × Bool) := do
  let us := g.inputs (← get)
  let (xs, feasible) ← match g.states with
    | some xs => pure (xs, g.feasible)
    | none => (·, true) <$> Problem.rolloutInPlace us
  let path ← Problem.InPlace.sized ((← get).path? xs us)
  return (path, feasible)

/-- **A trajectory that has been rolled out is not refused.** -/
theorem run_initialPathInPlace (p : Problem α s nus) (g : Guess α) :
    initialPathInPlace g p =
      match initialPath p g with
      | .ok (p', path, feasible) => .ok (path, feasible) p'
      | .error fault => .error (.problem (.dimensionMismatch fault)) p := by
  cases hstates : g.states with
  | some xs =>
    have hrun : initialPathInPlace g p =
        (Problem.InPlace.sized (p.path? xs (g.inputs p)) >>= fun path =>
          pure (path, g.feasible)) p := by
      unfold initialPathInPlace
      rw [hstates]
      rfl
    rw [hrun, initialPath_of_states hstates]
    cases hpath : p.path? xs (g.inputs p) with
    | error fault =>
      exact InPlace.run_bind_error _ (Problem.InPlace.run_sized_error rfl p)
    | ok path => exact InPlace.run_bind _ (Problem.InPlace.run_sized rfl p)
  | none =>
    have hrun : initialPathInPlace g p =
        ((·, true) <$> Problem.rolloutInPlace (g.inputs p) >>= fun start => do
          let path ← Problem.InPlace.sized ((← get).path? start.1 (g.inputs p))
          return (path, start.2)) p := by
      unfold initialPathInPlace
      rw [hstates]
      rfl
    have hroll := Problem.run_rolloutInPlace p (g.inputs p)
    rw [hrun, initialPath_of_rollout hstates]
    cases hrolled : p.rollout? (g.inputs p) with
    | error fault =>
      rw [hrolled] at hroll
      exact InPlace.run_bind_error _ (InPlace.run_map_error _ hroll)
    | ok rolled =>
      obtain ⟨p', path⟩ := rolled
      rw [hrolled] at hroll
      -- the path has the controls that were rolled out, and so it passes
      have hcontrols : path.toTrajectory.controls = g.inputs p := by
        obtain ⟨vs, hvs, hrolled⟩ := exists_of_bind_ok hrolled
        cases hrolled
        exact (Stages.controls_rolloutFrom _ _ vs).trans (Problem.running_of_controls? hvs)
      have hpath := Problem.path?_toTrajectory (p := p') path
      rw [hcontrols] at hpath
      exact (InPlace.run_bind _ (InPlace.run_map _ hroll)).trans
        (InPlace.run_bind _ (Problem.InPlace.run_sized hpath p'))

end Solver

/-- An operation on a problem next to which there is a solver. -/
def InPlace.beside {β : Type} (op : InPlace α s nus β) :
    EStateM (Error α) (Problem α s nus × Solver α s nus) β := fun (p, sv) =>
  match op p with
  | .ok b p' => .ok b (p', sv)
  | .error e p' => .error e (p', sv)

namespace Solver

/-- The beginning of a solve, on a problem and a solver that are changed as it goes. -/
def beginInPlace (g : Guess α) : EStateM (Error α) (Problem α s nus × Solver α s nus) Unit := do
  let (_, sv) ← get
  match sv.config.validate >>= fun _ => sv.config.initialRegularization g.regularization with
  | .error fault => throw (.solver (.invalidParameters fault))
  | .ok regularization =>
    let (path, feasible) ← (initialPathInPlace g).beside
    modify fun (p, sv) => (p, { sv with workspace := some (.start path feasible regularization) })

/-- **The beginning of a solve in place.** Either it is refused, and then problem and solver are as
they were, or it leaves what `initialize?` answers. -/
theorem run_beginInPlace (sv : Solver α s nus) (p : Problem α s nus) (g : Guess α) :
    beginInPlace g (p, sv) =
      match sv.initialize? p g with
      | .ok (p', w) => .ok () (p', { sv with workspace := some w })
      | .error e => .error e (p, sv) := by
  have hrun : beginInPlace g (p, sv) =
      (match sv.config.validate >>= fun _ => sv.config.initialRegularization g.regularization with
      | .error fault => throw (.solver (.invalidParameters fault))
      | .ok regularization => do
        let (path, feasible) ← (initialPathInPlace g).beside
        modify fun (p, sv) =>
          (p, { sv with workspace := some (.start path feasible regularization) }) :
        EStateM (Error α) (Problem α s nus × Solver α s nus) Unit) (p, sv) := rfl
  have hpath := run_initialPathInPlace p g
  rw [initialize?_eq, hrun]
  cases sv.config.validate >>= fun _ => sv.config.initialRegularization g.regularization with
  | error fault => rfl
  | ok regularization =>
    dsimp only
    show EStateM.bind (initialPathInPlace g).beside _ (p, sv) = _
    unfold EStateM.bind InPlace.beside
    cases hinit : initialPath p g with
    | error fault =>
      rw [hinit] at hpath
      dsimp only at hpath ⊢
      rw [hpath]
    | ok started =>
      obtain ⟨p', path, feasible⟩ := started
      rw [hinit] at hpath
      dsimp only at hpath ⊢
      rw [hpath]
      rfl

end Solver

/-! ## Later checks -/

namespace Problem

/-- **A path passes every check that a solve makes of it later on**: to be evaluated, to be
expanded, and to have its gaps taken. -/
structure PassesLater (p : Problem α s nus) (path : Path α s nus) : Prop where
  evaluate : p.evaluate? path.toTrajectory.states path.toTrajectory.controls =
    .ok (p.evaluate path, (p.evaluate path).totalCost)
  expand : p.expand? path.toTrajectory.states path.toTrajectory.controls =
    .ok (p.expand path, (p.expand path).totalCost)
  gaps : ∀ fault, p.gaps? path.toTrajectory.states ≠ .error (.error (.dimensionMismatch fault))

theorem passesLater (p : Problem α s nus) (path : Path α s nus) : p.PassesLater path := by
  refine ⟨?_, ?_, ?_⟩
  · unfold evaluate?
    rw [path?_toTrajectory]
    rfl
  · unfold expand?
    rw [path?_toTrajectory]
    rfl
  · intro fault
    have hcount : path.toTrajectory.states.length = nus.length + 1 := Horizon.length_toList _ _ path
    unfold gaps?
    rw [if_pos hcount]
    split <;> simp

end Problem

/-! ## A whole solve -/

namespace Solver

/-- An error that refuses the arguments of a solve. -/
inductive Refused : Error α → Prop where
  | parameters (fault : ParameterFault α) : Refused (.solver (.invalidParameters fault))
  | sizes (fault : SizeFault) : Refused (.problem (.dimensionMismatch fault))

/-- How a solve refuses its arguments, whatever its budget. -/
structure RefusesUntouched (sv : Solver α s nus) (p : Problem α s nus) (g : Guess α)
    (clock : Nat → Nat) (budget : Nat) : Prop where
  /-- If it refuses them, problem, solver and observers are as before, and nothing was logged. -/
  untouched : ∀ e, Refused e → (sv.solveWithin p g clock budget).outcome = .error (.error e) →
    sv.solveWithin p g clock budget = ⟨p, sv, [], .error (.error e)⟩
  /-- It refuses the parameters exactly if they are not valid. -/
  parameters : (∃ fault, (sv.solveWithin p g clock budget).outcome =
    .error (.error (.solver (.invalidParameters fault)))) ↔ ¬ sv.ParametersValid g
  /-- It refuses the sizes of the guess exactly if they do not fit, the parameters being valid. -/
  sizes : (∃ fault, (sv.solveWithin p g clock budget).outcome =
    .error (.error (.problem (.dimensionMismatch fault)))) ↔ sv.ParametersValid g ∧ ¬ g.Fits s nus
  /-- So it is also where problem and solver are changed as the solve begins: what is refused there
  leaves both, … -/
  inPlace : beginInPlace g (p, sv) =
    match sv.initialize? p g with
    | .ok (p', w) => .ok () (p', { sv with workspace := some w })
    | .error e => .error e (p, sv)
  /-- … and nothing is refused after the beginning. -/
  later : ∀ (q : Problem α s nus) (path : Path α s nus), q.PassesLater path

/-- **Refused arguments leave everything untouched**, and sizes are refused exactly if they do not
fit. -/
theorem refuses_untouched (sv : Solver α s nus) (p : Problem α s nus) (g : Guess α)
    (clock : Nat → Nat) (budget : Nat) : sv.RefusesUntouched p g clock budget := by
  have hrefused {e : Error α} (he : Refused e) :
      (sv.solveWithin p g clock budget).outcome = .error (.error e) ↔
        sv.initialize? p g = .error e := by
    constructor
    · intro h
      rcases error_of_solveWithin h with hinit | ⟨cause, trajectory, rfl⟩
      · exact hinit
      · cases he
    · intro hinit
      rw [solveWithin_of_refused hinit]
  refine ⟨?_, ?_, ?_, run_beginInPlace sv p g, Problem.passesLater⟩
  · intro e he h
    exact solveWithin_of_refused ((hrefused he).mp h) clock budget
  · rw [← initialize?_error_iff.1]
    exact exists_congr fun fault => hrefused (.parameters fault)
  · rw [← initialize?_error_iff.2]
    exact exists_congr fun fault => hrefused (.sizes fault)

end Solver

end Shooting
