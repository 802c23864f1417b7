import Shooting.Proofs.Along
import Shooting.Problem.Checked

/-!
# Lists that pass the checks

Lists of scalars become states, controls and paths of a problem only through checks. Nothing is
added or lost there: a path that comes out reads as the lists that went in
(`Problem.toTrajectory_of_path?`).
-/

namespace Shooting

/-- What comes out of two computations in a row came out of the second. -/
theorem exists_of_bind_ok {ε β γ : Type} {x : Except ε β} {f : β → Except ε γ} {c : γ}
    (h : x >>= f = .ok c) : ∃ b, x = .ok b ∧ f b = .ok c := by
  cases x with
  | error e => cases h
  | ok b => exact ⟨b, rfl, h⟩

/-- What comes out passes a test that fails on errors. -/
theorem exists_ok_of_any {ε β : Type} {x : Except ε β} {test : β → Bool}
    (h : x.toOption.any test = true) : ∃ b, x = .ok b ∧ test b = true := by
  cases x with
  | error e => cases h
  | ok b => exact ⟨b, rfl, h⟩

theorem ok_of_mapError_ok {ε ε' β : Type} {x : Except ε β} {f : ε → ε'} {b : β}
    (h : x.mapError f = .ok b) : x = .ok b := by
  cases x with
  | error e => cases h
  | ok b' => cases h; rfl

variable {α : Type} {s : StateSpace} {nus : List Nat}

theorem Model.toList_of_state? {owner : SizeOwner} {x : List α} {v : Vec α s.nx}
    (h : Model.state? owner s x = .ok v) : v.toList = x := by
  unfold state? at h
  split at h
  next v' hv =>
    obtain rfl := Except.ok.inj h
    exact Vec.ofList?_eq_some_iff.mp hv
  next => cases h

theorem Model.toList_of_control? {owner : SizeOwner} {nu : Nat} {u : List α} {v : Vec α nu}
    (h : Model.control? owner nu u = .ok v) : v.toList = u := by
  unfold control? at h
  split at h
  next v' hv =>
    obtain rfl := Except.ok.inj h
    exact Vec.ofList?_eq_some_iff.mp hv
  next => cases h

theorem Model.state?_toList (owner : SizeOwner) (x : Vec α s.nx) :
    Model.state? owner s x.toList = .ok x := by
  unfold state?
  rw [Vec.ofList?_toList]

theorem Model.control?_toList (owner : SizeOwner) {nu : Nat} (u : Vec α nu) :
    Model.control? owner nu u.toList = .ok u := by
  unfold control?
  rw [Vec.ofList?_toList]

theorem Path.controls_ofParts : ∀ {nus : List Nat} (xs : States α s nus) (us : Controls α nus),
    (Path.ofParts xs us).running (fun k => k.control.toList) = us.running Vec.toList
  | _, .last _, .last _ => rfl
  | _, .stage _ xs, .stage _ us => congrArg (_ :: ·) (controls_ofParts xs us)

theorem Path.states_ofParts : ∀ {nus : List Nat} (xs : States α s nus) (us : Controls α nus),
    (Path.ofParts xs us).toList (fun k => k.state.toList) Vec.toList =
      xs.toList Vec.toList Vec.toList
  | _, .last _, .last _ => rfl
  | _, .stage _ xs, .stage _ us => congrArg (_ :: ·) (states_ofParts xs us)

theorem Path.ofParts_states_controls : ∀ {nus : List Nat} (path : Path α s nus),
    Path.ofParts path.states path.controls = path
  | _, .last _ => rfl
  | _, .stage _ ks => congrArg (Horizon.stage _) (ofParts_states_controls ks)

namespace Problem

theorem running_of_controlsFrom (count : SizeFault) : ∀ (t : Nat) (nus : List Nat)
    (us : List (List α)) {vs : Controls α nus}, controlsFrom count t nus us = .ok vs →
    vs.running Vec.toList = us
  | _, [], [], _, h => by
    cases h
    rfl
  | t, nu :: nus, u :: us, _, h => by
    obtain ⟨v, hv, h⟩ := exists_of_bind_ok h
    obtain ⟨vs, hvs, h⟩ := exists_of_bind_ok h
    cases h
    show v.toList :: vs.running Vec.toList = u :: us
    rw [Model.toList_of_control? hv, running_of_controlsFrom count (t + 1) nus us hvs]
  | _, [], _ :: _, _, h => by cases h
  | _, _ :: _, [], _, h => by cases h

theorem toList_of_statesFrom (count : SizeFault) : ∀ (t : Nat) (nus : List Nat)
    (xs : List (List α)) {vs : States α s nus}, statesFrom s count t nus xs = .ok vs →
    vs.toList Vec.toList Vec.toList = xs
  | t, [], [x], _, h => by
    obtain ⟨v, hv, h⟩ := exists_of_bind_ok h
    cases h
    exact congrArg ([·]) (Model.toList_of_state? hv)
  | t, _ :: nus, x :: xs, _, h => by
    obtain ⟨v, hv, h⟩ := exists_of_bind_ok h
    obtain ⟨vs, hvs, h⟩ := exists_of_bind_ok h
    cases h
    show v.toList :: vs.toList Vec.toList Vec.toList = x :: xs
    rw [Model.toList_of_state? hv, toList_of_statesFrom count (t + 1) nus xs hvs]
  | _, [], [], _, h => by cases h
  | _, [], _ :: _ :: _, _, h => by cases h
  | _, _ :: _, [], _, h => by cases h

/-- Controls that fit pass. -/
theorem controlsFrom_running (count : SizeFault) : ∀ (t : Nat) {nus : List Nat}
    (us : Controls α nus), controlsFrom count t nus (us.running Vec.toList) = .ok us
  | _, [], .last () => rfl
  | t, nu :: nus, .stage u us => by
    unfold Horizon.running controlsFrom
    rw [Model.control?_toList, controlsFrom_running count (t + 1) us]
    rfl

/-- States that fit pass. -/
theorem statesFrom_toList (count : SizeFault) : ∀ (t : Nat) {nus : List Nat} (xs : States α s nus),
    statesFrom s count t nus (xs.toList Vec.toList Vec.toList) = .ok xs
  | t, [], .last x => by
    show (do let x ← Model.state? (.stage t) s x.toList; return Horizon.last x) = _
    rw [Model.state?_toList]
    rfl
  | t, _ :: nus, .stage x xs => by
    show statesFrom s count t _ (x.toList :: xs.toList Vec.toList Vec.toList) = _
    unfold statesFrom
    rw [Model.state?_toList, statesFrom_toList count (t + 1) xs]
    rfl

variable {p : Problem α s nus}

theorem controls?_running (us : Controls α nus) : p.controls? (us.running Vec.toList) = .ok us := by
  unfold controls?
  rw [if_pos (Horizon.length_running _ us)]
  exact controlsFrom_running _ 0 us

theorem running_of_controls? {us : List (List α)} {vs : Controls α nus}
    (h : p.controls? us = .ok vs) : vs.running Vec.toList = us := by
  unfold controls? at h
  dsimp only at h
  split at h
  next => exact running_of_controlsFrom _ _ _ _ h
  next => cases h

/-- **A path that passes the checks reads as the lists it was made of.** -/
theorem toTrajectory_of_path? {xs us : List (List α)} {path : Path α s nus}
    (h : p.path? xs us = .ok path) : path.toTrajectory = ⟨xs, us⟩ := by
  unfold path? at h
  dsimp only at h
  split at h
  next =>
    obtain ⟨vs, hvs, h⟩ := exists_of_bind_ok h
    obtain ⟨ys, hys, h⟩ := exists_of_bind_ok h
    cases h
    unfold Path.toTrajectory
    rw [Path.states_ofParts, Path.controls_ofParts, toList_of_statesFrom _ _ _ _ hys,
      running_of_controls? hvs]
  next => cases h

/-- **The lists of a path pass the checks.** -/
theorem path?_toTrajectory (path : Path α s nus) :
    p.path? path.toTrajectory.states path.toTrajectory.controls = .ok path := by
  have hstates : path.toTrajectory.states = path.states.toList Vec.toList Vec.toList := by
    unfold Path.states Horizon.toList
    rw [Horizon.running_map, Horizon.final_map]
    rfl
  have hcontrols : path.toTrajectory.controls = path.controls.running Vec.toList :=
    (Horizon.running_map _ _ Vec.toList path).symm
  rw [hstates, hcontrols]
  unfold path?
  dsimp only
  rw [if_pos (Horizon.length_toList _ _ _), controls?_running, statesFrom_toList]
  exact congrArg Except.ok path.ofParts_states_controls

end Problem

end Shooting
