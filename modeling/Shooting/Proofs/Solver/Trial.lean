import Shooting.Proofs.Along
import Shooting.Solver.Solve

/-!
# Candidates of a line search

A line search evaluates one candidate after another on the stages of the problem, so that what these
remember afterwards is the last candidate, or the part of it that came before something that was
not finite. This module says what every candidate leaves alone and what a complete one leaves
behind:

* a candidate changes nothing but stored evaluations, complete or not (`Problem.Reevaluates`,
  `tryStep_reevaluates`), and so does a whole line search (`lineSearch_reevaluates`);
* a complete candidate leaves exactly its own evaluations, and its cost is that of its path
  (`storedEvaluations_tryStep`, `cost_tryStep`);
* a candidate that closes all gaps follows its own predictions (`isRollout_tryStep`);
* what a line search finds is its last candidate, complete and accepted (`lineSearch_found`);
* what a line search comes to depends on what the problem asks, and not on what its stages remember
  (`lineSearch_congr`).

No law of arithmetic is used.
-/

namespace Shooting

variable {α : Type} {s : StateSpace} {nus : List Nat}

/-- One problem comes from another by evaluating stages, each of them anywhere or not at all. -/
structure Problem.Reevaluates (p q : Problem α s nus) : Prop extends p.Same q where
  expansions : p.stages.storedExpansions = q.stages.storedExpansions

theorem Problem.Reevaluates.refl (p : Problem α s nus) : p.Reevaluates p := ⟨.refl p, rfl⟩

theorem Problem.Reevaluates.trans {p q o : Problem α s nus} (h : p.Reevaluates q)
    (h' : q.Reevaluates o) : p.Reevaluates o :=
  ⟨h.toSame.trans h'.toSame, h.expansions.trans h'.expansions⟩

variable [Scalar α]

namespace Problem

theorem reevaluates_evaluate (p : Problem α s nus) (path : Path α s nus) :
    (p.evaluate path).Reevaluates p :=
  ⟨p.same_evaluate path, Stages.storedExpansions_evaluate _ _⟩

theorem reevaluates_rollout (p : Problem α s nus) (us : Controls α nus) :
    (p.rollout us).1.Reevaluates p :=
  ⟨p.same_rollout us, Stages.storedExpansions_rolloutFrom _ _ _⟩

end Problem

/-! ## One candidate -/

/-- The state in which a candidate meets a stage: the predicted one if it closes all gaps, else
short of it by the part of the gap that stays open. -/
def trialState (length : α) (closing : Bool) (predicted : Vec α s.nx) (gap : Vec α s.ndx) :
    Vec α s.nx :=
  if closing then predicted else s.integrate predicted (gap.scale (length - 1))

/-- The knot of a candidate at a running stage. -/
def trialKnot {nu : Nat} (length : α) (closing : Bool) (predicted : Vec α s.nx) (k : Knot α s nu)
    (gap : Vec α s.ndx) (p : StagePolicy α s.ndx nu) : Knot α s nu :=
  let x := trialState length closing predicted gap
  ⟨x, k.control - p.gains.feedforward.scale length - p.gains.feedback * s.diff k.state x⟩

variable (length : α) (closing : Bool)

theorem tryStepFrom_last (predicted : Vec α s.nx) (cost : α) (st : TerminalStage α s)
    (x : Vec α s.nx) (gap : Vec α s.ndx) (v : ValueModel α s.ndx) :
    tryStepFrom length closing predicted cost (.last st) (.last x) (.last gap) (.last v) =
      let x' := trialState length closing predicted gap
      let st' := st.evaluate x'
      if st'.data.eval.isFinite && x'.isFinite then
        (.last st', some (cost + st'.data.eval.cost, .last x'))
      else (.last st', none) := by
  rw [tryStepFrom]
  rfl

theorem tryStepFrom_stage {nu : Nat} (predicted : Vec α s.nx) (cost : α) (st : Stage α s nu)
    (rest : Stages α s nus) (k : Knot α s nu) (ks : Path α s nus) (gap : Vec α s.ndx)
    (gaps : Gaps α s nus) (p : StagePolicy α s.ndx nu) (ps : Policy α s.ndx nus) :
    tryStepFrom length closing predicted cost (.stage st rest) (.stage k ks) (.stage gap gaps)
        (.stage p ps) =
      let k' := trialKnot length closing predicted k gap p
      let st' := st.evaluate k'.state k'.control
      let e := st'.data.eval
      if e.isFinite && k'.state.isFinite && k'.control.isFinite then
        let after := tryStepFrom length closing e.next (cost + e.cost) rest ks gaps ps
        (.stage st' after.1, after.2.map fun (c, path) => (c, .stage k' path))
      else (.stage st' rest, none) := by
  rw [tryStepFrom]
  rfl

theorem models_tryStepFrom : ∀ {nus : List Nat} (predicted : Vec α s.nx) (cost : α)
    (stages : Stages α s nus) (path : Path α s nus) (gaps : Gaps α s nus)
    (policy : Policy α s.ndx nus),
    (tryStepFrom length closing predicted cost stages path gaps policy).1.models = stages.models
  | _, _, _, .last _, .last _, .last _, .last _ => by
    rw [tryStepFrom_last]
    dsimp only
    split <;> rfl
  | _, _, _, .stage _ rest, .stage _ ks, .stage _ fs, .stage _ ps => by
    rw [tryStepFrom_stage]
    dsimp only
    split
    · exact congrArg (Horizon.stage _) (models_tryStepFrom _ _ rest ks fs ps)
    · rfl

theorem storedExpansions_tryStepFrom : ∀ {nus : List Nat} (predicted : Vec α s.nx) (cost : α)
    (stages : Stages α s nus) (path : Path α s nus) (gaps : Gaps α s nus)
    (policy : Policy α s.ndx nus),
    (tryStepFrom length closing predicted cost stages path gaps policy).1.storedExpansions =
      stages.storedExpansions
  | _, _, _, .last _, .last _, .last _, .last _ => by
    rw [tryStepFrom_last]
    dsimp only
    split <;> rfl
  | _, _, _, .stage _ rest, .stage _ ks, .stage _ fs, .stage _ ps => by
    rw [tryStepFrom_stage]
    dsimp only
    split
    · exact congrArg (Horizon.stage _) (storedExpansions_tryStepFrom _ _ rest ks fs ps)
    · rfl

variable {length closing}

/-- What a complete candidate over the last stage is. -/
theorem tryStepFrom_last_some {predicted : Vec α s.nx} {cost : α} {st : TerminalStage α s}
    {x : Vec α s.nx} {gap : Vec α s.ndx} {v : ValueModel α s.ndx} {st' : Stages α s []} {c : α}
    {path' : Path α s []}
    (h : tryStepFrom length closing predicted cost (.last st) (.last x) (.last gap) (.last v) =
      (st', some (c, path'))) :
    path' = .last (trialState length closing predicted gap) ∧
      st' = .last (st.evaluate (trialState length closing predicted gap)) ∧
      c = cost + (st.model.evaluate (trialState length closing predicted gap) none).cost := by
  rw [tryStepFrom_last] at h
  dsimp only at h
  split at h
  next =>
    obtain ⟨hst, hout⟩ := Prod.mk.inj h
    obtain ⟨hc, hpath⟩ := Prod.mk.inj (Option.some.inj hout)
    exact ⟨hpath.symm, hst.symm, hc.symm⟩
  next => exact absurd (Prod.mk.inj h).2 (by simp)

/-- What a complete candidate over a running stage is: its knot there and, from the state that this
leads to, a complete candidate over the rest. -/
theorem tryStepFrom_stage_some {nu : Nat} {predicted : Vec α s.nx} {cost : α} {st : Stage α s nu}
    {rest : Stages α s nus} {k : Knot α s nu} {ks : Path α s nus} {gap : Vec α s.ndx}
    {gaps : Gaps α s nus} {p : StagePolicy α s.ndx nu} {ps : Policy α s.ndx nus}
    {stages' : Stages α s (nu :: nus)} {c : α} {path' : Path α s (nu :: nus)}
    (h : tryStepFrom length closing predicted cost (.stage st rest) (.stage k ks) (.stage gap gaps)
      (.stage p ps) = (stages', some (c, path'))) :
    let k' := trialKnot length closing predicted k gap p
    let e := st.model.evaluate k'.state (some k'.control)
    ∃ rest' ks', path' = .stage k' ks' ∧
      stages' = .stage (st.evaluate k'.state k'.control) rest' ∧
      tryStepFrom length closing e.next (cost + e.cost) rest ks gaps ps =
        (rest', some (c, ks')) := by
  rw [tryStepFrom_stage] at h
  dsimp only at h ⊢
  split at h
  next =>
    obtain ⟨hst, hout⟩ := Prod.mk.inj h
    obtain ⟨⟨c', ks'⟩, hrest, heq⟩ := Option.map_eq_some_iff.mp hout
    obtain ⟨rfl, hpath⟩ := Prod.mk.inj heq
    exact ⟨_, ks', hpath.symm, hst.symm, Prod.ext rfl hrest⟩
  next => exact absurd (Prod.mk.inj h).2 (by simp)

/-- A complete candidate leaves its own evaluations, and has added up their costs. -/
theorem tryStepFrom_some : ∀ {nus : List Nat} {predicted : Vec α s.nx} {cost : α}
    {stages stages' : Stages α s nus} {path : Path α s nus} {gaps : Gaps α s nus}
    {policy : Policy α s.ndx nus} {c : α} {path' : Path α s nus},
    tryStepFrom length closing predicted cost stages path gaps policy =
      (stages', some (c, path')) →
    stages'.storedEvaluations = stages.models.evaluations path' ∧
      c = ((stages.models.evaluations path').running Evaluation.cost).foldl (· + ·) cost +
        (stages.models.evaluations path').final.cost
  | _, _, _, .last _, _, .last _, .last _, .last _, _, _, h => by
    obtain ⟨rfl, rfl, rfl⟩ := tryStepFrom_last_some h
    exact ⟨rfl, rfl⟩
  | _, _, _, .stage _ _, _, .stage _ _, .stage _ _, .stage _ _, _, _, h => by
    obtain ⟨rest', ks', rfl, rfl, hrest⟩ := tryStepFrom_stage_some h
    obtain ⟨hev, hcost⟩ := tryStepFrom_some hrest
    exact ⟨congrArg (Horizon.stage _) hev, hcost⟩

/-- A complete candidate that closes all gaps goes where its own evaluations lead. -/
theorem stateList_of_tryStepFrom_closing : ∀ {nus : List Nat} {predicted : Vec α s.nx} {cost : α}
    {stages stages' : Stages α s nus} {path : Path α s nus} {gaps : Gaps α s nus}
    {policy : Policy α s.ndx nus} {c : α} {path' : Path α s nus},
    tryStepFrom length true predicted cost stages path gaps policy = (stages', some (c, path')) →
    path'.stateList = predicted :: (stages.models.evaluations path').running Evaluation.next
  | _, _, _, .last _, _, .last _, .last _, .last _, _, _, h => by
    obtain ⟨rfl, -, -⟩ := tryStepFrom_last_some h
    rfl
  | _, predicted, _, .stage _ _, _, .stage _ _, .stage _ _, .stage _ _, _, _, h => by
    obtain ⟨rest', ks', rfl, -, hrest⟩ := tryStepFrom_stage_some h
    exact congrArg (predicted :: ·) (stateList_of_tryStepFrom_closing hrest)

/-- What a candidate comes to depends on the models alone. -/
theorem tryStepFrom_congr : ∀ {nus : List Nat} {a b : Stages α s nus} (predicted : Vec α s.nx)
    (cost : α) (path : Path α s nus) (gaps : Gaps α s nus) (policy : Policy α s.ndx nus),
    a.models = b.models →
      (tryStepFrom length closing predicted cost a path gaps policy).2 =
        (tryStepFrom length closing predicted cost b path gaps policy).2
  | _, .last st, .last st', predicted, cost, .last x, .last gap, .last v, h => by
    have hmodel : st.anyModel = st'.anyModel := Horizon.last.inj h
    have heval (x : Vec α s.nx) : (st.evaluate x).data.eval = (st'.evaluate x).data.eval :=
      congrArg (fun m => m.2.evaluate x none) hmodel
    rw [tryStepFrom_last, tryStepFrom_last]
    dsimp only
    rw [heval]
    split <;> rfl
  | _, .stage st as, .stage st' bs, predicted, cost, .stage k ks, .stage gap gaps, .stage p ps,
      h => by
    obtain ⟨hmodel, hmodels⟩ := Horizon.stage.inj h
    have heval (x : Vec α s.nx) (u : Vec α _) :
        (st.evaluate x u).data.eval = (st'.evaluate x u).data.eval :=
      congrArg (fun m : Model α s _ => m.evaluate x (some u)) hmodel
    rw [tryStepFrom_stage, tryStepFrom_stage]
    dsimp only
    rw [heval]
    split
    · exact congrArg (Option.map _) (tryStepFrom_congr _ _ ks gaps ps hmodels)
    · rfl

namespace Workspace

variable (w : Workspace α s nus) (p : Problem α s nus)

/-- What a candidate comes to depends on what the problem asks alone. -/
theorem tryStep_congr {p q : Problem α s nus} (h : q.Same p) (length : α) :
    (w.tryStep q length).2 = (w.tryStep p length).2 := by
  unfold tryStep
  dsimp only
  rw [h.start]
  exact tryStepFrom_congr _ _ _ _ _ h.models

theorem tryStep_reevaluates (length : α) : (w.tryStep p length).1.Reevaluates p :=
  ⟨⟨rfl, models_tryStepFrom _ _ _ _ _ _ _ _⟩, storedExpansions_tryStepFrom _ _ _ _ _ _ _ _⟩

variable {w p} {p' : Problem α s nus} {cost : α} {path : Path α s nus}

/-- A complete candidate is one of `tryStepFrom`. -/
theorem tryStepFrom_of_tryStep (h : w.tryStep p length = (p', some (cost, path))) :
    tryStepFrom length (w.feasible || length == 1) p.start 0 p.stages w.path w.gaps w.policy =
      (p'.stages, some (cost, path)) := by
  obtain ⟨rfl, hout⟩ := Prod.mk.inj h
  exact Prod.ext rfl hout

/-- A complete candidate leaves exactly its own evaluations. -/
theorem storedEvaluations_tryStep (h : w.tryStep p length = (p', some (cost, path))) :
    p'.stages.storedEvaluations = p'.stages.models.evaluations path := by
  have hmodels := (w.tryStep_reevaluates p length).models
  rw [h] at hmodels
  rw [(tryStepFrom_some (tryStepFrom_of_tryStep h)).1, hmodels]

/-- The cost of a complete candidate is that of its path. -/
theorem cost_tryStep (h : w.tryStep p length = (p', some (cost, path))) :
    cost = p.costAlong path :=
  (tryStepFrom_some (tryStepFrom_of_tryStep h)).2

/-- **A candidate that closes all gaps follows its own predictions.** -/
theorem isRollout_tryStep (h : w.tryStep p length = (p', some (cost, path)))
    (hclose : (w.feasible || length == 1) = true) : p.IsRollout path := by
  have htry := tryStepFrom_of_tryStep h
  rw [hclose] at htry
  exact stateList_of_tryStepFrom_closing htry

end Workspace

/-! ## A line search -/

theorem lineSearchFrom_reevaluates (c : Config α) (w : Workspace α s nus) :
    ∀ (n i : Nat) (length : α) (p : Problem α s nus),
      (lineSearchFrom c w n i length p).problem.Reevaluates p
  | 0, _, _, p => .refl p
  | n + 1, i, _, p => by
    have hstep := w.tryStep_reevaluates p (stepLength i)
    unfold lineSearchFrom
    dsimp only
    split
    next p' cost path htry =>
      rw [htry] at hstep
      split
      · exact hstep
      · exact (lineSearchFrom_reevaluates c w n (i + 1) _ p').trans hstep
    next p' htry =>
      rw [htry] at hstep
      exact (lineSearchFrom_reevaluates c w n (i + 1) _ p').trans hstep

theorem lineSearch_reevaluates (c : Config α) (w : Workspace α s nus) (p : Problem α s nus) :
    (lineSearch c w p).problem.Reevaluates p :=
  lineSearchFrom_reevaluates c w _ _ _ p

/-- The line searches come to the same, whatever they leave behind. -/
structure LineSearch.Matches (a b : LineSearch α s nus) : Prop where
  tried : b.tried = a.tried
  length : b.length = a.length
  found : b.found = a.found

theorem lineSearchFrom_congr (c : Config α) (w : Workspace α s nus) :
    ∀ (n i : Nat) (length : α) {p q : Problem α s nus}, q.Same p →
      (lineSearchFrom c w n i length p).Matches (lineSearchFrom c w n i length q)
  | 0, _, _, _, _, _ => ⟨rfl, rfl, rfl⟩
  | n + 1, i, _, p, q, h => by
    -- the next candidates start from what this one leaves of the two problems
    have hsame : (w.tryStep q (stepLength i)).1.Same (w.tryStep p (stepLength i)).1 :=
      (w.tryStep_reevaluates q _).toSame.trans (h.trans (w.tryStep_reevaluates p _).toSame.symm)
    have hlater := lineSearchFrom_congr c w n (i + 1) (stepLength i) hsame
    have houtcome := w.tryStep_congr h (stepLength i)
    unfold lineSearchFrom
    dsimp only
    generalize w.tryStep p (stepLength i) = first at *
    generalize w.tryStep q (stepLength i) = second at *
    obtain ⟨p', outcome⟩ := first
    obtain ⟨q', outcome'⟩ := second
    dsimp only at hlater houtcome
    subst houtcome
    cases outcome' with
    | none => exact hlater
    | some candidate =>
      obtain ⟨cost, path⟩ := candidate
      dsimp only
      split
      · exact ⟨rfl, rfl, rfl⟩
      · exact hlater

/-- **What a line search comes to depends on what the problem asks alone.** -/
theorem lineSearch_congr (c : Config α) (w : Workspace α s nus) {p q : Problem α s nus}
    (h : q.Same p) : (lineSearch c w p).Matches (lineSearch c w q) :=
  lineSearchFrom_congr c w _ _ _ h

theorem powerOfHalf_natCast (k : Nat) : (powerOfHalf k : α) = halving k := rfl

@[simp] theorem stepLength_zero : (stepLength 0 : α) = 1 := by
  unfold stepLength
  rfl

/-- The exponent of a step length has room for the numbers below `2 ^ 31`. -/
theorem stepLength_of_lt {i : Nat} (h : i < Nat.pow 2 31) : (stepLength i : α) = halving i := by
  have hlt : i < 2147483648 := h
  have hfits : (i : Int).bmod 4294967296 = i := Int.bmod_eq_of_le (by omega) (by omega)
  unfold stepLength
  exact (congrArg powerOfHalf hfits).trans (powerOfHalf_natCast i)

/-- Whatever the number of the candidate, its length is a number of halvings, or one over that. -/
theorem stepLength_cases (i : Nat) :
    ∃ k, (stepLength i : α) = halving k ∨ (stepLength i : α) = 1 / halving (k + 1) := by
  unfold stepLength
  cases (i : Int).bmod (Nat.pow 2 32) with
  | ofNat k => exact ⟨k, .inl rfl⟩
  | negSucc k => exact ⟨k, .inr rfl⟩

/-- What it means that a line search over `p` found `f` and left the problem `q`: some problem that
earlier candidates left was given to `f`'s candidate, which was complete and acceptable. -/
structure FoundBy (c : Config α) (w : Workspace α s nus) (p q : Problem α s nus)
    (f : Found α s nus) : Prop where
  candidate : ∃ p', p'.Reevaluates p ∧ w.tryStep p' f.length = (q, some (f.cost, f.path))
  acceptable : w.acceptable c f.cost f.length = true
  length : ∃ i < c.lineSearchSteps, f.length = stepLength i

theorem lineSearchFrom_found (c : Config α) (w : Workspace α s nus) :
    ∀ (n i : Nat) (length : α) (p : Problem α s nus) {f : Found α s nus},
      i + n ≤ c.lineSearchSteps → (lineSearchFrom c w n i length p).found = some f →
      FoundBy c w p (lineSearchFrom c w n i length p).problem f
  | 0, _, _, p, f, _, h => by simp [lineSearchFrom] at h
  | n + 1, i, _, p, f, hsteps, h => by
    -- an earlier candidate changes the problem that the rest of the search starts from
    have later {p' q : Problem α s nus} (hp : p'.Reevaluates p) (hf : FoundBy c w p' q f) :
        FoundBy c w p q f := by
      obtain ⟨p'', hp'', htry⟩ := hf.candidate
      exact ⟨⟨p'', hp''.trans hp, htry⟩, hf.acceptable, hf.length⟩
    have hstep := w.tryStep_reevaluates p (stepLength i)
    unfold lineSearchFrom at h ⊢
    dsimp only at h ⊢
    split at h
    next p' cost path htry =>
      rw [htry] at hstep
      split at h
      next hacc =>
        rw [if_pos hacc]
        obtain rfl := Option.some.inj h
        exact ⟨⟨p, .refl p, htry⟩, hacc, i, by omega, rfl⟩
      next hacc =>
        rw [if_neg hacc]
        exact later hstep (lineSearchFrom_found c w n (i + 1) _ p' (by omega) h)
    next p' htry =>
      rw [htry] at hstep
      exact later hstep (lineSearchFrom_found c w n (i + 1) _ p' (by omega) h)

/-- **What a line search finds is its last candidate**, complete and accepted. -/
theorem lineSearch_found {c : Config α} {w : Workspace α s nus} {p : Problem α s nus}
    {f : Found α s nus} (h : (lineSearch c w p).found = some f) :
    FoundBy c w p (lineSearch c w p).problem f :=
  lineSearchFrom_found c w _ _ _ p (Nat.le_of_eq (Nat.zero_add _)) h

/-- A line search ends with a full step that is acceptable, its first candidate. -/
theorem lineSearch_of_acceptable {c : Config α} {w : Workspace α s nus} {p p' : Problem α s nus}
    {cost : α} {path : Path α s nus} (hsteps : c.lineSearchSteps ≠ 0)
    (htry : w.tryStep p 1 = (p', some (cost, path))) (hacc : w.acceptable c cost 1 = true) :
    lineSearch c w p = ⟨p', 1, 1, some ⟨1, cost, path⟩⟩ := by
  obtain ⟨n, hn⟩ := Nat.exists_eq_succ_of_ne_zero hsteps
  unfold lineSearch
  rw [hn]
  unfold lineSearchFrom
  dsimp only
  rw [stepLength_zero, htry]
  dsimp only
  rw [if_pos hacc]

namespace FoundBy

variable {c : Config α} {w : Workspace α s nus} {p q : Problem α s nus} {f : Found α s nus}

theorem storedEvaluations (h : FoundBy c w p q f) :
    q.stages.storedEvaluations = q.stages.models.evaluations f.path := by
  obtain ⟨p', -, htry⟩ := h.candidate
  exact Workspace.storedEvaluations_tryStep htry

theorem cost (h : FoundBy c w p q f) : f.cost = p.costAlong f.path := by
  obtain ⟨p', hp', htry⟩ := h.candidate
  exact (Workspace.cost_tryStep htry).trans (hp'.costAlong f.path)

theorem isRollout (h : FoundBy c w p q f) (hclose : (w.feasible || f.length == 1) = true) :
    p.IsRollout f.path := by
  obtain ⟨p', hp', htry⟩ := h.candidate
  exact (hp'.isRollout f.path).mp (Workspace.isRollout_tryStep htry hclose)

end FoundBy

end Shooting
