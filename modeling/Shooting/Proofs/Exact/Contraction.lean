import Shooting.Proofs.Exact.Solve
import Shooting.Proofs.Exact.StateSpace
import Shooting.Proofs.Solver.Consistency
import Shooting.Proofs.Solver.Descent
import Shooting.Proofs.Solver.Feasibility

/-!
# Steps contract gaps

A step of length `a` moves the state predicted for a stage back along its gap, by the part `1 - a`
of it, before the stage is evaluated. If nothing is rounded, exactly this part stays open: the gap
of the candidate is the old one times `1 - a`, at every stage, whatever the dynamics
(`Workspace.gaps_tryStep`). All that is asked is that the initial state is proper and that no model
leads away from proper states, for then so is every state on the way (`gapsFrom_tryStepFrom`, by
induction over the stages). The models of the library do not (`Models.keepProper`).

Steps of length one or less are meant, and so no more candidates than there are halvings.

Over a solve the parts multiply. `Run.Contracted` is the invariant: the gaps of the current path are
those of the first one times the product of all `1 - a` so far.
-/

namespace Shooting

variable {s : StateSpace} {nus : List ℕ}

/-! ## Models -/

namespace Models

/-- No model of a running stage leads from a proper state to one that is not. -/
def KeepProper : {nus : List ℕ} → Models ℝ s nus → Prop
  | _, .last _ => True
  | _, .stage m ms => m.KeepsProper ∧ KeepProper ms

/-- Whether a running stage has a model from outside the library. -/
def hasCustom : {nus : List ℕ} → Models ℝ s nus → Bool
  | _, .last _ => false
  | _, .stage m ms => m.isCustom || hasCustom ms

theorem keepProper : ∀ {nus : List ℕ} {ms : Models ℝ s nus}, ms.hasCustom = false → ms.KeepProper
  | _, .last _, _ => trivial
  | _, .stage _ _, h =>
    have ⟨hm, hms⟩ := Bool.or_eq_false_iff.mp h
    ⟨Model.keepsProper hm, keepProper hms⟩

end Models

/-! ## Scaling gaps -/

/-- All gaps times `a`. -/
noncomputable def Gaps.scale (g : Gaps ℝ s nus) (a : ℝ) : Gaps ℝ s nus :=
  g.map (fun f => f.scale a) fun f => f.scale a

theorem Gaps.toList_scale (g : Gaps ℝ s nus) (a : ℝ) :
    (g.scale a).toList id id = (g.toList id id).map (·.scale a) := by
  unfold scale
  rw [Horizon.toList_map]
  unfold Horizon.toList
  rw [Horizon.running_map, Horizon.final_map]
  rfl

/-- The part of every gap that a step of the given length leaves open. -/
noncomputable def Workspace.openPart (w : Workspace ℝ s nus) (length : ℝ) : ℝ :=
  if w.feasible then 0 else 1 - length

/-- The part of every gap that steps of the given lengths leave open, one after the other. -/
noncomputable def openPart (lengths : List ℝ) : ℝ := (lengths.map (1 - ·)).prod

/-! ## One candidate -/

/-- **A candidate leaves open of a gap what it does not close of it.** -/
theorem diff_trialState_predicted {length : ℝ} (hpos : 0 ≤ length) (hle : length ≤ 1)
    (closing : Bool) {predicted : Vec ℝ s.nx} (hproper : s.IsProper predicted) {f : Vec ℝ s.ndx}
    (hf : s.IsPrincipal f) :
    s.diff (trialState length closing predicted f) predicted =
      f.scale (if closing then 0 else 1 - length) := by
  unfold trialState
  cases closing with
  | true =>
    rw [if_pos rfl, if_pos rfl, s.diff_self, f.scale_zero]
  | false =>
    have hopen : s.IsPrincipal (-f.scale (length - 1)) := by
      rw [f.neg_scale_sub]
      exact hf.scale (sub_nonneg.mpr hle) (sub_le_self 1 hpos)
    rw [if_neg Bool.false_ne_true, if_neg Bool.false_ne_true,
      StateSpace.diff_integrate_self hproper hopen, f.neg_scale_sub]

theorem isProper_trialState (length : ℝ) (closing : Bool) {predicted : Vec ℝ s.nx}
    (hproper : s.IsProper predicted) (f : Vec ℝ s.ndx) :
    s.IsProper (trialState length closing predicted f) := by
  unfold trialState
  split
  · exact hproper
  · exact hproper.integrate _

/-- **A candidate leaves open of all gaps what it does not close of them.** The states predicted on
the way are proper, for they come from proper states. -/
theorem gapsFrom_tryStepFrom {length : ℝ} (hpos : 0 ≤ length) (hle : length ≤ 1) {closing : Bool} :
    ∀ {nus : List ℕ} {predicted : Vec ℝ s.nx} {cost : ℝ} {stages stages' : Stages ℝ s nus}
      {path path' : Path ℝ s nus} {gaps : Gaps ℝ s nus} {policy : Policy ℝ s.ndx nus} {c : ℝ},
      s.IsProper predicted → stages.models.KeepProper →
      (∀ f ∈ gaps.toList id id, s.IsPrincipal f) →
      tryStepFrom length closing predicted cost stages path gaps policy =
        (stages', some (c, path')) →
      Stages.gapsFrom predicted stages' path' = gaps.scale (if closing then 0 else 1 - length)
  | _, _, _, .last _, _, .last _, _, .last f, .last _, _, hproper, _, hgaps, h => by
    obtain ⟨rfl, rfl, -⟩ := tryStepFrom_last_some h
    exact congrArg Horizon.last
      (diff_trialState_predicted hpos hle closing hproper (hgaps f (.head _)))
  | _, _, _, .stage st _, _, .stage _ _, _, .stage f fs, .stage _ _, _, hproper, hmodels, hgaps,
      h => by
    obtain ⟨rest', ks', rfl, rfl, hrest⟩ := tryStepFrom_stage_some h
    have hgap := diff_trialState_predicted hpos hle closing hproper (hgaps f (.head _))
    have hnext := hmodels.1 (isProper_trialState length closing hproper f)
    have hgaps' := gapsFrom_tryStepFrom hpos hle (hnext _) hmodels.2
      (fun f hf => hgaps f (.tail _ hf)) hrest
    exact congrArg₂ Horizon.stage hgap hgaps'

/-- The gaps of a path are principal. -/
theorem Problem.isPrincipal_of_mem_gapsAlong {p : Problem ℝ s nus} {path : Path ℝ s nus}
    {f : Vec ℝ s.ndx} (h : f ∈ p.gapsAlong path) : s.IsPrincipal f := by
  unfold gapsAlong at h
  rw [← List.map_uncurry_zip_eq_zipWith] at h
  obtain ⟨⟨x, predicted⟩, -, rfl⟩ := List.mem_map.mp h
  exact s.isPrincipal_diff x predicted

namespace Workspace

variable {p p' : Problem ℝ s nus} {w : Workspace ℝ s nus} {length cost : ℝ} {path : Path ℝ s nus}

/-- **The gaps of a candidate** are the parts of the gaps that its step leaves open. -/
theorem gaps_tryStep (hproper : s.IsProper p.start) (hmodels : p.stages.models.KeepProper)
    (hpos : 0 ≤ length) (hle : length ≤ 1) (hgaps : w.gaps.toList id id = p.gapsAlong w.path)
    (h : w.tryStep p length = (p', some (cost, path))) :
    p'.gaps path = w.gaps.scale (w.openPart length) := by
  have hstart : p'.start = p.start := by
    have hsame := (w.tryStep_reevaluates p length).start
    rwa [h] at hsame
  have hprincipal : ∀ f ∈ w.gaps.toList id id, s.IsPrincipal f := by
    intro f hf
    rw [hgaps] at hf
    exact Problem.isPrincipal_of_mem_gapsAlong hf
  have hpart : (if (w.feasible || length == 1) = true then 0 else 1 - length) =
      w.openPart length := by
    unfold openPart
    cases w.feasible with
    | true => rfl
    | false =>
      rw [Bool.false_or, if_neg Bool.false_ne_true]
      split
      next hfull => rw [eq_of_beq hfull, sub_self]
      next => rfl
  unfold Problem.gaps
  rw [hstart, ← hpart]
  exact gapsFrom_tryStepFrom hpos hle hproper hmodels hprincipal (tryStepFrom_of_tryStep h)

theorem gapsAlong_tryStep (hproper : s.IsProper p.start) (hmodels : p.stages.models.KeepProper)
    (hpos : 0 ≤ length) (hle : length ≤ 1) (hgaps : w.gaps.toList id id = p.gapsAlong w.path)
    (h : w.tryStep p length = (p', some (cost, path))) :
    p.gapsAlong path = (p.gapsAlong w.path).map (·.scale (w.openPart length)) := by
  have hsame : p'.Same p := by
    have hstep := (w.tryStep_reevaluates p length).toSame
    rwa [h] at hstep
  rw [← hsame.gapsAlong, ← Problem.gaps_eq_gapsAlong (storedEvaluations_tryStep h),
    gaps_tryStep hproper hmodels hpos hle hgaps h, Gaps.toList_scale, hgaps]

end Workspace

/-! ## A run -/

theorem openPart_append (a b : List ℝ) : openPart (a ++ b) = openPart a * openPart b := by
  unfold openPart
  rw [List.map_append, List.prod_append]

/-- Iterations without a step leave all gaps as they are. -/
theorem openPart_zeros {lengths : List ℝ} (h : ∀ a ∈ lengths, a = 0) : openPart lengths = 1 := by
  refine List.prod_eq_one ?_
  intro part hpart
  obtain ⟨a, ha, rfl⟩ := List.mem_map.mp hpart
  rw [h a ha, sub_zero]

theorem openPart_singleton (a : ℝ) : openPart [a] = 1 - a := List.prod_singleton

namespace Run

variable {p : Problem ℝ s nus} {c : Config ℝ} {r₀ r r' : Run ℝ s nus} {i : ℕ}

/-- **A step leaves open of all gaps what it does not close of them.** -/
theorem Takes.gapsAlong {policy : Policy ℝ s.ndx nus} {f : Found ℝ s nus}
    (ht : r.Takes c policy f r') (hsteps : c.lineSearchSteps ≤ 2 ^ 31)
    (hproper : s.IsProper p.start) (hmodels : p.stages.models.KeepProper) (hc : r.Consistent p)
    (hexp : r.unexpanded = false) :
    p.gapsAlong r'.workspace.path =
      (p.gapsAlong r.workspace.path).map (·.scale (r.workspace.openPart f.length)) := by
  obtain ⟨p', hp', htry⟩ := ht.found.candidate
  obtain ⟨hpos, hle⟩ := ht.found.length_mem hsteps
  have hsame : p'.Same p := hp'.toSame.trans hc.same
  have hgaps : (r.planned policy).workspace.gaps.toList id id =
      p'.gapsAlong (r.planned policy).workspace.path :=
    (hc.gaps hexp).trans (hsame.gapsAlong _).symm
  have hstep := Workspace.gapsAlong_tryStep (hsame.start ▸ hproper) (hsame.models ▸ hmodels) hpos.le
    hle hgaps htry
  rw [hsame.gapsAlong, hsame.gapsAlong] at hstep
  rw [ht.path]
  exact hstep

/-- The part `a` of all gaps of the run `r` is open in the run `r'` to which an iteration leads. It
is the one that the step length leaves open, unless `r` counts as feasible. -/
structure Leaves (p : Problem ℝ s nus) (r r' : Run ℝ s nus) (a : ℝ) : Prop where
  part : 0 ≤ a ∧ a ≤ 1
  gaps : p.gapsAlong r'.workspace.path = (p.gapsAlong r.workspace.path).map (·.scale a)
  lengths : ∃ b, openPart r'.tally.stepLengths = openPart r.tally.stepLengths * b ∧
    (r.workspace.feasible = false → a = b)
  raised : r.workspace.feasible = false → r'.workspace.feasible = true → a = 0
  closed : r.workspace.feasible = true → r.tally.accepted = r'.tally.accepted ∨ a = 0

/-- **What an iteration does to the gaps.** -/
theorem exists_leaves (hsteps : c.lineSearchSteps ≤ 2 ^ 31) (hproper : s.IsProper p.start)
    (hmodels : p.stages.models.KeepProper) (hc : r.Consistent p) (i : ℕ) :
    ∃ a, r.Leaves p (r.iterate c i).run a := by
  rcases (iterate_cases c r i).stepLengths with
    ⟨hs, zeros, hlengths, hzeros⟩ | ⟨r₁, policy, f, hprep, ht, hlengths⟩
  · refine ⟨1, ⟨zero_le_one, le_rfl⟩, ?_, ⟨1, ?_, fun _ => rfl⟩, ?_, fun _ => .inl hs.accepted.symm⟩
    · simp only [Vec.scale_one, List.map_id', hs.path]
    · rw [hlengths, openPart_append, openPart_zeros hzeros]
    · intro hdown hup
      rw [hs.feasible, hdown] at hup
      cases hup
  · obtain ⟨hc₁, hexp⟩ := refresh_consistent hc hprep
    have hstay := stays_refresh hprep
    have hgaps := ht.gapsAlong hsteps hproper hmodels hc₁ hexp
    obtain ⟨hpos, hle⟩ := ht.found.length_mem hsteps
    have hpart : openPart (r.iterate c i).run.tally.stepLengths =
        openPart r.tally.stepLengths * (1 - f.length) := by
      rw [hlengths, openPart_append, openPart_singleton]
    rw [hstay.path] at hgaps
    unfold Workspace.openPart at hgaps
    rw [hstay.feasible] at hgaps
    cases hflag : r.workspace.feasible with
    | true =>
      rw [hflag, if_pos rfl] at hgaps
      exact ⟨0, ⟨le_rfl, zero_le_one⟩, hgaps,
        ⟨_, hpart, fun h => absurd (hflag.symm.trans h) (by simp)⟩, fun _ _ => rfl,
        fun _ => .inr rfl⟩
    | false =>
      rw [hflag, if_neg Bool.false_ne_true] at hgaps
      refine ⟨1 - f.length, ⟨sub_nonneg.mpr hle, sub_le_self 1 hpos.le⟩, hgaps,
        ⟨_, hpart, fun _ => rfl⟩, ?_, fun h => absurd (hflag.symm.trans h) (by simp)⟩
      -- only a full step raises the flag
      intro _ hup
      rw [ht.feasible, hstay.feasible, hflag, Bool.false_or] at hup
      rw [eq_of_beq hup, sub_self]

/-- The invariant of a solve that begins with the run `r₀`, whose flag is down: the gaps are those
of `r₀`, times the parts that all steps so far have left open. -/
structure Contracted (p : Problem ℝ s nus) (r₀ r : Run ℝ s nus) : Prop where
  gaps : p.gapsAlong r.workspace.path =
    (p.gapsAlong r₀.workspace.path).map (·.scale (openPart r.tally.stepLengths))
  closed : r.workspace.feasible = true → openPart r.tally.stepLengths = 0

theorem Leaves.contracted {a : ℝ} (h : r.Leaves p r' a) (hr : r₀.Contracted p r) :
    r₀.Contracted p r' := by
  obtain ⟨b, hlengths, hpart⟩ := h.lengths
  have hopen : openPart r'.tally.stepLengths = openPart r.tally.stepLengths * a := by
    rw [hlengths]
    cases hflag : r.workspace.feasible with
    | false => rw [hpart hflag]
    | true => rw [hr.closed hflag, zero_mul, zero_mul]
  refine ⟨?_, ?_⟩
  · rw [h.gaps, hr.gaps, List.map_map, hopen]
    exact List.map_congr_left fun f _ => f.scale_scale _ a
  · intro hup
    rw [hopen]
    cases hflag : r.workspace.feasible with
    | false => rw [h.raised hflag hup, mul_zero]
    | true => rw [hr.closed hflag, zero_mul]

/-- The invariant of a solve that begins with the run `r₀`, whose flag is up: once a step has been
taken there are no gaps. -/
structure Closed (p : Problem ℝ s nus) (r : Run ℝ s nus) : Prop where
  feasible : r.workspace.feasible = true
  gaps : 0 < r.tally.accepted → ∀ f ∈ p.gapsAlong r.workspace.path, f = 0

theorem Leaves.closed_of_closed {a : ℝ} (h : r.Leaves p r' a) (hr : r.Closed p)
    (hup : r'.workspace.feasible = true) : r'.Closed p := by
  refine ⟨hup, ?_⟩
  intro haccepted f hf
  rw [h.gaps] at hf
  obtain ⟨f', hf', rfl⟩ := List.mem_map.mp hf
  rcases h.closed hr.feasible with hsame | rfl
  · rw [hr.gaps (hsame ▸ haccepted) f' hf', Vec.zero_scale]
  · exact f'.scale_zero

/-- A part of the gaps of the run `r` is what the gaps of `r'` are. -/
def Shrinks (p : Problem ℝ s nus) (r r' : Run ℝ s nus) : Prop :=
  ∃ a, (0 ≤ a ∧ a ≤ 1) ∧
    p.gapsAlong r'.workspace.path = (p.gapsAlong r.workspace.path).map (·.scale a)

theorem Shrinks.refl (p : Problem ℝ s nus) (r : Run ℝ s nus) : r.Shrinks p r := by
  refine ⟨1, ⟨zero_le_one, le_rfl⟩, ?_⟩
  simp only [Vec.scale_one, List.map_id']

theorem Leaves.shrinks {a : ℝ} (h : r.Leaves p r' a) (hr : r₀.Shrinks p r) : r₀.Shrinks p r' := by
  obtain ⟨b, ⟨hpos, hle⟩, hgaps⟩ := hr
  refine ⟨b * a, ⟨mul_nonneg hpos h.part.1, mul_le_one₀ hle h.part.1 h.part.2⟩, ?_⟩
  rw [h.gaps, hgaps, List.map_map]
  exact List.map_congr_left fun f _ => f.scale_scale b a

/-- No gap of the run `r'` is longer than that of `r` at the same place. -/
theorem Shrinks.norm_le (h : r.Shrinks p r') :
    List.Forall₂ (fun f' f => f'.norm ≤ f.norm) (p.gapsAlong r'.workspace.path)
      (p.gapsAlong r.workspace.path) := by
  obtain ⟨a, ⟨hpos, hle⟩, hgaps⟩ := h
  rw [hgaps, List.forall₂_map_left_iff]
  exact List.forall₂_same.mpr fun f _ => f.norm_scale_le hpos hle

end Run

/-! ## A whole solve -/

/-- What steps do to the gaps in every solve of a problem over the reals. -/
structure Problem.Contracts (p : Problem ℝ s nus) : Prop where
  /-- A candidate of length `a` has the gaps of the current path times `1 - a`. -/
  candidate : ∀ {w : Workspace ℝ s nus} {p' : Problem ℝ s nus} {k : ℕ} {cost : ℝ}
    {path : Path ℝ s nus}, w.gaps.toList id id = p.gapsAlong w.path → w.feasible = false →
    w.tryStep p (halving k) = (p', some (cost, path)) →
      p'.gaps path = w.gaps.scale (1 - halving k)
  /-- A full step leaves no gaps, and neither does any step along a path that counts as feasible. -/
  closing : ∀ {w : Workspace ℝ s nus} {p' : Problem ℝ s nus} {k : ℕ} {cost : ℝ}
    {path : Path ℝ s nus}, w.gaps.toList id id = p.gapsAlong w.path → w.feasible = true ∨ k = 0 →
    w.tryStep p (halving k) = (p', some (cost, path)) →
      ∀ f ∈ (p'.gaps path).toList id id, f = 0
  /-- Between iterations the gaps are those of the beginning times all `1 - a` so far. -/
  reached : ∀ {sv : Solver ℝ s nus} {g : Guess ℝ} {clock : ℕ → ℕ} {budget i : ℕ}
    {r₀ r : Run ℝ s nus}, sv.config.lineSearchSteps ≤ 2 ^ 31 → sv.Begins p g r₀ →
    r₀.workspace.feasible = false → r₀.Reaches sv.config clock budget i r →
      p.gapsAlong r.workspace.path =
        (p.gapsAlong r₀.workspace.path).map (·.scale (openPart r.tally.stepLengths))
  /-- So are those of the answer. -/
  answered : ∀ {sv : Solver ℝ s nus} {g : Guess ℝ} {clock : ℕ → ℕ} {budget : ℕ}
    {r₀ : Run ℝ s nus} {res : SolveResult ℝ}, sv.config.lineSearchSteps ≤ 2 ^ 31 →
    sv.Begins p g r₀ → r₀.workspace.feasible = false →
    (sv.solveWithin p g clock budget).outcome = .ok res →
      res.gaps = (p.gapsAlong r₀.workspace.path).map fun f =>
        (f.scale (openPart res.stepLengths)).toList
  /-- In a solve that begins as feasible, rightly or not, the first step leaves no gaps. -/
  closed : ∀ {sv : Solver ℝ s nus} {g : Guess ℝ} {clock : ℕ → ℕ} {budget i : ℕ}
    {r₀ r : Run ℝ s nus}, sv.config.lineSearchSteps ≤ 2 ^ 31 → sv.Begins p g r₀ →
    r₀.workspace.feasible = true → r₀.Reaches sv.config clock budget i r →
    0 < r.tally.accepted →
      ∀ f ∈ p.gapsAlong r.workspace.path, f = 0
  /-- Gaps never grow. -/
  shrinks : ∀ {sv : Solver ℝ s nus} {g : Guess ℝ} {clock : ℕ → ℕ} {budget i j : ℕ}
    {r₀ r r' : Run ℝ s nus}, sv.config.lineSearchSteps ≤ 2 ^ 31 → sv.Begins p g r₀ →
    r₀.Reaches sv.config clock budget i r → r₀.Reaches sv.config clock budget j r' → i ≤ j →
      List.Forall₂ (fun f' f => f'.norm ≤ f.norm) (p.gapsAlong r'.workspace.path)
        (p.gapsAlong r.workspace.path)

namespace Solver

variable {p : Problem ℝ s nus}

theorem Begins.contracted {sv : Solver ℝ s nus} {g : Guess ℝ} {r₀ : Run ℝ s nus}
    (h : sv.Begins p g r₀) (hdown : r₀.workspace.feasible = false) : r₀.Contracted p r₀ := by
  have hlengths : r₀.tally.stepLengths = [] := by
    obtain ⟨-, -⟩ := h
    rfl
  refine ⟨?_, fun hup => absurd (hdown.symm.trans hup) (by simp)⟩
  rw [hlengths]
  simp [openPart, Vec.scale_one]

/-- **Steps contract gaps.** If nothing is rounded, the initial state is proper and no model leads
away from proper states, as none of the library does (`Models.keepProper`), then a step of length
`a` leaves of every gap the part `1 - a`, whatever the dynamics, and over a solve these parts
multiply. -/
theorem gaps_contract (hproper : s.IsProper p.start) (hmodels : p.stages.models.KeepProper) :
    p.Contracts := by
  have hleaves {sv : Solver ℝ s nus} {g : Guess ℝ} {clock : ℕ → ℕ} {budget i : ℕ}
      {r₀ r : Run ℝ s nus} (hsteps : sv.config.lineSearchSteps ≤ 2 ^ 31)
      (hbegin : sv.Begins p g r₀) (hperf : r₀.Performs sv.config clock budget i r) :=
    Run.exists_leaves hsteps hproper hmodels (hbegin.consistent_of_reaches hperf.reached) i
  refine ⟨?_, ?_, ?_, ?_, ?_, ?_⟩
  case refine_1 =>
    intro w p' k cost path hgaps hdown htry
    obtain ⟨hpos, hle⟩ := halving_mem k
    have hstep := Workspace.gaps_tryStep hproper hmodels hpos.le hle hgaps htry
    rwa [Workspace.openPart, hdown, if_neg Bool.false_ne_true] at hstep
  case refine_2 =>
    intro w p' k cost path hgaps hclose htry f hf
    obtain ⟨hpos, hle⟩ := halving_mem k
    have hpart : w.openPart (halving k) = 0 := by
      unfold Workspace.openPart
      rcases hclose with hflag | rfl
      · rw [if_pos hflag]
      · exact ite_eq_left_iff.mpr fun _ => sub_self 1
    rw [Workspace.gaps_tryStep hproper hmodels hpos.le hle hgaps htry, hpart,
      Gaps.toList_scale] at hf
    obtain ⟨f', -, rfl⟩ := List.mem_map.mp hf
    exact f'.scale_zero
  case refine_3 =>
    intro sv g clock budget i r₀ r hsteps hbegin hdown hreached
    refine (hreached.induct (P := (r₀.Contracted p ·)) (hbegin.contracted hdown) ?_).gaps
    intro i r hperf hr
    obtain ⟨a, ha⟩ := hleaves hsteps hbegin hperf
    exact ha.contracted hr
  case refine_4 =>
    intro sv g clock budget r₀ res hsteps hbegin hdown hout
    obtain ⟨r₀', r, status, n, hbegin', hend, hfinish⟩ := solveWithin_ok hout
    obtain rfl := hbegin.unique hbegin'
    rw [hfinish] at hout
    have hr := hend.induct (P := (r₀.Contracted p ·)) (hbegin.contracted hdown) fun hperf hr =>
      have ⟨a, ha⟩ := hleaves hsteps hbegin hperf
      ha.contracted hr
    obtain ⟨hdescribes, -⟩ := (hbegin.consistent_of_ends hend).describes hout
    rw [hdescribes.gaps, hr.gaps, (Run.answers_of_finish hout).stepLengths, List.map_map]
    rfl
  case refine_5 =>
    intro sv g clock budget i r₀ r hsteps hbegin hup hreached haccepted
    have hstart : r₀.Closed p := ⟨hup, fun h => absurd hbegin.accepted h.ne'⟩
    refine (hreached.induct (P := (·.Closed p)) hstart ?_).gaps haccepted
    intro i r hperf hr
    obtain ⟨a, ha⟩ := hleaves hsteps hbegin hperf
    exact ha.closed_of_closed hr (Run.iterate_feasible hr.feasible)
  case refine_6 =>
    intro sv g clock budget i j r₀ r r' hsteps hbegin hreached hreached' hle
    refine (hreached.later (P := (r.Shrinks p ·)) ?_ hreached' hle (.refl p r)).norm_le
    intro k r₁ _ hperf hr
    obtain ⟨a, ha⟩ := hleaves hsteps hbegin hperf
    exact ha.shrinks hr

/-- Half a step of a pendulum at rest, from a path on which it is taken to be moving. -/
theorem gaps_contract_pendulum :
    ∃ (p p' : Problem ℝ .revolute [1]) (w : Workspace ℝ .revolute [1]) (cost : ℝ)
      (path : Path ℝ .revolute [1]),
      StateSpace.IsProper .revolute p.start ∧ p.stages.models.KeepProper ∧ p.Contracts ∧
        w.feasible = false ∧
        w.gaps.toList id id = p.gapsAlong w.path ∧
        (w.gaps.first Vec.toList Vec.toList)[1]? = some (-1 : ℝ) ∧
        w.tryStep p (halving 1) = (p', some (cost, path)) ∧
        p'.gaps path = w.gaps.scale (1 - halving 1) := by
  let path : Path ℝ .revolute [1] :=
    .stage ⟨Revolute.ofAngle 0 1, 0⟩ (.last (Revolute.ofAngle 0 0))
  let q : Problem ℝ .revolute [1] :=
    ⟨Revolute.ofAngle 0 0,
      .stage ⟨.pendulum .standard, .zero⟩ (.last ⟨1, .pendulum .standard, .zero⟩)⟩
  let p := q.evaluate path
  let w : Workspace ℝ .revolute [1] := { Workspace.start path false 1 with gaps := p.gaps path }
  have hproper : StateSpace.IsProper .revolute p.start := by
    refine .inl ?_
    show Real.cos 0 ≠ 0
    rw [Real.cos_zero]
    exact one_ne_zero
  have hgaps : w.gaps.toList id id = p.gapsAlong w.path := Problem.gaps_eq_gapsAlong rfl
  have hgap : (w.gaps.first Vec.toList Vec.toList)[1]? = some (0 - 1) := rfl
  obtain ⟨p', cost, path', htry⟩ := w.exists_tryStep p (halving 1)
  have hmodels : p.stages.models.KeepProper := Models.keepProper rfl
  have hcontracts : p.Contracts := gaps_contract hproper hmodels
  exact ⟨p, p', w, cost, path', hproper, hmodels, hcontracts, rfl, hgaps, by rw [hgap, zero_sub],
    htry, hcontracts.candidate hgaps rfl htry⟩

end Solver

end Shooting
