import Shooting.Proofs.Loose.Solve

/-!
# What fits in memory

The sizes that lists in memory ought to have, stated on the lists: data fit the models of a problem
(`LooseProblem.Fits`), and a workspace has, in each of its lists, one entry of the right size for
every stage or for every running stage (`LooseWorkspace.Fits`). What comes from problems and
workspaces whose sizes were forgotten fits (`fits_toLoose`).
-/

namespace Shooting

variable {α β γ : Type} {s : StateSpace} {nu : Nat} {nus : List Nat}

/-- The numbers of rows and of columns. -/
def Table.shape (t : Table α) : Nat × Nat := (t.rows, t.cols)

theorem Horizon.map_toList {F : Nat → Type} {G : Type} (r : ∀ {nu}, F nu → β) (r' : G → β)
    (f : β → γ) (size : γ) (hsize : ∀ {nu} (a : F nu), f (r a) = size)
    (hsize' : ∀ a, f (r' a) = size) (h : Horizon F G nus) :
    (h.toList r r').map f = List.replicate (nus.length + 1) size := by
  unfold toList
  rw [List.map_append, map_running, running_eq_map _ (fun _ => size) hsize, List.map_const',
    List.replicate_succ', List.map_singleton, hsize']

namespace LooseProblem

/-- The data of every stage have the sizes of its own model. -/
structure Fits (p : LooseProblem α) : Prop where
  running : List.Forall₂ (fun m d => d.Fits m.space.nx m.space.ndx m.nu) p.models p.datas
  terminal : p.terminalData.Fits p.terminalModel.space.nx p.terminalModel.space.ndx
    p.terminalModel.nu

theorem fits_toLoose (p : Problem α s nus) : p.toLoose.Fits where
  running := by
    have hrunning : ∀ {nus : List Nat} (stages : Stages α s nus),
        List.Forall₂ (fun m d => d.Fits m.space.nx m.space.ndx m.nu)
          (stages.toLoose.map LooseStage.model) (stages.toLoose.map LooseStage.data) := by
      intro nus stages
      induction stages with
      | last _ => exact .nil
      | stage st rest ih => exact .cons st.data.fits_toLoose ih
    exact hrunning p.stages
  terminal := p.stages.final.data.fits_toLoose

end LooseProblem

/-- A trajectory has a state for every stage and a control for every running stage. -/
structure Trajectory.Fits (t : Trajectory α) (p : LooseProblem α) : Prop where
  states : t.states.map List.length = p.spaces.map StateSpace.nx
  controls : t.controls.map List.length = p.models.map AnyModel.nu

/-- A policy has a value function for every stage, and all the rest for every running stage. -/
structure LoosePolicy.Fits (policy : LoosePolicy α) (p : LooseProblem α) : Prop where
  vx : policy.vx.map List.length = p.spaces.map StateSpace.ndx
  vxx : policy.vxx.map Table.shape = p.spaces.map fun s => (s.ndx, s.ndx)
  qx : policy.qx.map List.length = p.models.map fun m => m.space.ndx
  qu : policy.qu.map List.length = p.models.map AnyModel.nu
  qxx : policy.qxx.map Table.shape = p.models.map fun m => (m.space.ndx, m.space.ndx)
  qxu : policy.qxu.map Table.shape = p.models.map fun m => (m.space.ndx, m.nu)
  quu : policy.quu.map Table.shape = p.models.map fun m => (m.nu, m.nu)
  feedforward : policy.feedforward.map List.length = p.models.map AnyModel.nu
  feedback : policy.feedback.map Table.shape = p.models.map fun m => (m.nu, m.space.ndx)

/-- A workspace has room for the stages of a problem, and what is in there is of their sizes. -/
structure LooseWorkspace.Fits (w : LooseWorkspace α) (p : LooseProblem α) : Prop where
  spaces : w.spaces = p.spaces
  current : w.current.Fits p
  trial : w.trial.Fits p
  gaps : w.gaps.map List.length = p.spaces.map StateSpace.ndx
  policy : w.policy.Fits p

section

variable (p : Problem α s nus)

theorem Path.fits_toTrajectory (path : Path α s nus) : path.toTrajectory.Fits p.toLoose where
  states := by
    rw [LooseProblem.spaces_toLoose, List.map_replicate]
    exact Horizon.map_toList _ _ List.length s.nx (fun k => k.state.length_toList)
      Vec.length_toList path
  controls := by
    rw [LooseProblem.map_models p AnyModel.nu id fun _ => rfl]
    exact (Horizon.map_running _ List.length path).trans
      (Horizon.running_eq_map _ id (fun k => k.control.length_toList) path)

theorem Gaps.length_toLists (gaps : Gaps α s nus) :
    gaps.toLists.map List.length = p.toLoose.spaces.map StateSpace.ndx := by
  rw [LooseProblem.spaces_toLoose, List.map_replicate]
  exact Horizon.map_toList _ _ List.length s.ndx Vec.length_toList Vec.length_toList gaps

/-- A part of the policy that every running stage has. -/
theorem Policy.running_part (policy : Policy α s.ndx nus) (part : LooseStagePolicy α → β)
    (f : β → γ) (model : AnyModel α → γ) (size : Nat → γ)
    (hpart : ∀ {nu} (a : StagePolicy α s.ndx nu), f (part a.toLoose) = size nu)
    (hmodel : ∀ {nu} (m : Model α s nu), model ⟨s, nu, m⟩ = size nu) :
    (policy.looseStages.map part).map f = p.toLoose.models.map model := by
  rw [LooseProblem.map_models p model size hmodel, Policy.looseStages, Horizon.map_running,
    Horizon.map_running]
  exact Horizon.running_eq_map _ size hpart policy

/-- A part of the policy that every stage has. -/
theorem Policy.value_part (policy : Policy α s.ndx nus) (part : LooseStagePolicy α → β) {last : β}
    (f : β → γ) (space : StateSpace → γ)
    (hpart : ∀ {nu} (a : StagePolicy α s.ndx nu), f (part a.toLoose) = space s)
    (hlast : f last = space s) :
    (policy.looseStages.map part ++ [last]).map f = p.toLoose.spaces.map space := by
  rw [List.map_append, policy.running_part p part f (fun _ => space s) (fun _ => space s) hpart
    fun _ => rfl, LooseProblem.spaces_toLoose, List.map_replicate, List.map_singleton, hlast,
    LooseProblem.map_models p _ (fun _ => space s) fun _ => rfl, List.map_const',
    List.replicate_succ']

theorem Policy.fits_toLoose (policy : Policy α s.ndx nus) : policy.toLoose.Fits p.toLoose where
  vx := policy.value_part p _ List.length StateSpace.ndx (fun a => a.value.gradient.length_toList)
    (Vec.length_toList _)
  vxx := policy.value_part p _ Table.shape (fun s => (s.ndx, s.ndx)) (fun _ => rfl) rfl
  qx := policy.running_part p _ List.length _ (fun _ => s.ndx) (fun a => a.q.qx.length_toList)
    fun _ => rfl
  qu := policy.running_part p _ List.length _ id (fun a => a.q.qu.length_toList) fun _ => rfl
  qxx := policy.running_part p _ Table.shape _ (fun _ => (s.ndx, s.ndx)) (fun _ => rfl) fun _ => rfl
  qxu := policy.running_part p _ Table.shape _ (fun nu => (s.ndx, nu)) (fun _ => rfl) fun _ => rfl
  quu := policy.running_part p _ Table.shape _ (fun nu => (nu, nu)) (fun _ => rfl) fun _ => rfl
  feedforward := policy.running_part p _ List.length _ id
    (fun a => a.gains.feedforward.length_toList) fun _ => rfl
  feedback := policy.running_part p _ Table.shape _ (fun nu => (nu, s.ndx)) (fun _ => rfl)
    fun _ => rfl

/-- **A workspace fits the problem it belongs to.** -/
theorem Workspace.fits_toLoose (w : Workspace α s nus) (trial : Path α s nus) :
    (w.toLoose trial).Fits p.toLoose where
  spaces := (LooseProblem.spaces_toLoose p).symm
  current := w.path.fits_toTrajectory p
  trial := trial.fits_toTrajectory p
  gaps := w.gaps.length_toLists p
  policy := w.policy.fits_toLoose p

end

end Shooting
