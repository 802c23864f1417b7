import Shooting.Proofs.Double.Signs
import Shooting.Proofs.Exact.StateSpace
import Shooting.Proofs.InPlace
import Shooting.Proofs.Loose.Algebra
import Shooting.Proofs.Solver.Feasibility
import Shooting.Proofs.Solver.Refusal

/-!
# Rollouts, evaluations and gaps

A rollout finds the states of a path one after the other and evaluates each stage on the way; an
evaluation is given all states and evaluates every stage by itself. Along the path of a rollout the
two leave the same problem, and the gaps are the differences of states from themselves
(`Problem.exists_rollsOut`).

Such a difference is zero if nothing is rounded. In doubles it is zero in every entry that is a
difference of numbers, one by one; overflow leaves infinities in a rollout, and their difference is
not a number (`Problem.rollout_overflows`). The angle from a rotation to itself is that of a point
without ordinate on the side of the positive axis, which `atan2` answers by zero
(`Double.TurnsNowhere`).

Conversely, if nothing is rounded, a path in a Euclidean space has no gaps only if it is the rollout
of its own controls (`Problem.gapsAlong_eq_zero_iff`).
-/

namespace Shooting

variable {α : Type} [Scalar α] {s : StateSpace} {nus : List Nat}

/-! ## Gaps on lists -/

/-- The difference of lists that are states. -/
theorem StateSpace.diff?_toList (x₀ x₁ : Vec α s.nx) :
    s.diff? x₀.toList x₁.toList = some (s.diff x₀ x₁).toList := by
  have h : (Loose.ofOption (s.diff? x₀.toList x₁.toList) : Loose Empty (List α)) =
      .ok (s.diff x₀ x₁).toList := Loose.diff_toList s x₀ x₁
  cases hdiff : s.diff? x₀.toList x₁.toList with
  | none =>
    rw [hdiff] at h
    cases h
  | some f =>
    rw [hdiff] at h
    exact congrArg some (Except.ok.inj h)

theorem StateSpace.mapM_diff? : ∀ (xs ys : List (Vec α s.nx)),
    ((xs.map Vec.toList).zip ys).mapM (fun (x, y) => s.diff? x y.toList) =
      some ((List.zipWith s.diff xs ys).map Vec.toList)
  | [], _ => rfl
  | _ :: _, [] => rfl
  | x :: xs, y :: ys => by
    rw [List.map_cons, List.zip_cons_cons, List.mapM_cons, mapM_diff? xs ys]
    dsimp only
    rw [diff?_toList]
    rfl

omit [Scalar α] in
theorem Path.states_toTrajectory (path : Path α s nus) :
    path.toTrajectory.states = path.stateList.map Vec.toList :=
  (Horizon.toList_map Knot.state id Vec.toList path).symm

/-- **The gaps of lists that are a path are the gaps of the path.** -/
theorem Problem.gaps?_toTrajectory (p : Problem α s nus) (path : Path α s nus) :
    p.gaps? path.toTrajectory.states = .ok (((p.gaps path).toList id id).map Vec.toList) := by
  have hpredictions : p.predictions =
      p.start :: p.stages.storedEvaluations.running Evaluation.next :=
    congrArg (p.start :: ·) (Horizon.running_map _ _ Evaluation.next p.stages).symm
  have hcount : path.toTrajectory.states.length = nus.length + 1 := Horizon.length_toList _ _ path
  unfold gaps?
  rw [if_pos hcount, path.states_toTrajectory, StateSpace.mapM_diff?, hpredictions]
  unfold gaps
  rw [Stages.toList_gapsFrom]

/-! ## One after the other, and all at once -/

/-- A rollout leaves the stages as an evaluation along its path does. -/
theorem Stages.evaluate_rolloutFrom : ∀ {nus : List Nat} (x : Vec α s.nx) (stages : Stages α s nus)
    (us : Controls α nus),
    stages.evaluate (rolloutFrom x stages us).2 = (rolloutFrom x stages us).1
  | _, _, .last _, .last () => rfl
  | _, _, .stage _ rest, .stage _ us => congrArg (Horizon.stage _) (evaluate_rolloutFrom _ rest us)

/-- A path that goes where its own evaluations lead is a rollout of its controls. -/
theorem Stages.rolloutFrom_controls : ∀ {nus : List Nat} {x : Vec α s.nx} {stages : Stages α s nus}
    {path : Path α s nus},
    path.stateList = x :: (stages.models.evaluations path).running Evaluation.next →
      (rolloutFrom x stages path.controls).2 = path
  | _, _, .last _, .last _, h => by
    obtain ⟨rfl, -⟩ := List.cons.inj h
    rfl
  | _, _, .stage _ _, .stage k _, h => by
    obtain ⟨rfl, hrest⟩ := List.cons.inj h
    exact congrArg (Horizon.stage k) (rolloutFrom_controls hrest)

namespace Problem

theorem evaluate_rollout (p : Problem α s nus) (us : Controls α nus) :
    p.evaluate (p.rollout us).2 = (p.rollout us).1 :=
  congrArg (Problem.mk p.start) (Stages.evaluate_rolloutFrom p.start p.stages us)

/-- A rollout of `p` with the controls `us` leaves `p'` and answers `path`. -/
structure RollsOut (p : Problem α s nus) (us : List (List α)) (p' : Problem α s nus)
    (path : Path α s nus) : Prop where
  answers : p.rollout? us = .ok (p', path)
  /-- It does the same where it writes into the stages as it goes. -/
  inPlace : rolloutInPlace us p = .ok path.toTrajectory.states p'
  controls : path.toTrajectory.controls = us
  /-- An evaluation along the path leaves the same data in every stage, and finds their cost. -/
  evaluate : p.evaluate? path.toTrajectory.states us = .ok (p', p'.totalCost)
  /-- The gaps lead from states to themselves. -/
  gaps : p'.gaps? path.toTrajectory.states =
    .ok (path.stateList.map fun x => (s.diff x x).toList)

/-- **Controls that fit are rolled out**, and a rollout is an evaluation without gaps. -/
theorem exists_rollsOut (p : Problem α s nus) {us : List (List α)}
    (h : us.map List.length = nus) : ∃ p' path, p.RollsOut us p' path := by
  obtain ⟨vs, rfl⟩ := exists_controls h
  have hanswers : p.rollout? (vs.running Vec.toList) = .ok (p.rollout vs) := by
    unfold rollout?
    rw [controls?_running]
    rfl
  have hcontrols : (p.rollout vs).2.toTrajectory.controls = vs.running Vec.toList :=
    Stages.controls_rolloutFrom p.start p.stages vs
  have hpath := path?_toTrajectory (p := p) (p.rollout vs).2
  rw [hcontrols] at hpath
  refine ⟨(p.rollout vs).1, (p.rollout vs).2, hanswers, ?_, hcontrols, ?_, ?_⟩
  · rw [run_rolloutInPlace, hanswers]
  · unfold evaluate?
    rw [hpath, ← evaluate_rollout]
    rfl
  · -- what the rollout stores are the evaluations along its own path
    have hstored : (p.rollout vs).1.stages.storedEvaluations =
        (p.rollout vs).1.stages.models.evaluations (p.rollout vs).2 := by
      rw [← evaluate_rollout]
      exact (Stages.storedEvaluations_evaluate _ _).trans
        (congrArg (Models.evaluations · _) (Stages.models_evaluate _ _).symm)
    have hrollout : (p.rollout vs).1.IsRollout (p.rollout vs).2 :=
      ((same_rollout p vs).isRollout _).mpr (isRollout_rollout p vs)
    rw [gaps?_toTrajectory, gaps_eq_gapsAlong hstored, hrollout.gapsAlong, List.map_map]
    rfl

/-- A path is a rollout exactly if its controls lead to its states. -/
theorem isRollout_iff_rollout? {p : Problem α s nus} {xs us : List (List α)} {path : Path α s nus}
    (h : p.path? xs us = .ok path) : p.IsRollout path ↔
      ∃ p' path', p.rollout? us = .ok (p', path') ∧ path'.toTrajectory.states = xs := by
  have hlists := toTrajectory_of_path? h
  have hrolled : p.rollout? us = .ok (p.rollout path.controls) := by
    have hcontrols : path.controls.running Vec.toList = us :=
      (Horizon.running_map _ _ Vec.toList path).trans (congrArg Trajectory.controls hlists)
    unfold rollout?
    rw [← hcontrols, controls?_running]
    rfl
  constructor
  · intro hrollout
    have hpath : (p.rollout path.controls).2 = path := Stages.rolloutFrom_controls hrollout
    refine ⟨_, _, hrolled, ?_⟩
    show (p.rollout path.controls).2.toTrajectory.states = xs
    rw [hpath]
    exact congrArg Trajectory.states hlists
  · rintro ⟨p', path', hanswers, hstates⟩
    obtain rfl : path' = (p.rollout path.controls).2 :=
      congrArg Prod.snd (Except.ok.inj (hanswers.symm.trans hrolled))
    -- the rollout reads as the same lists, and lists pass as one path only
    have hcontrols : (p.rollout path.controls).2.toTrajectory.controls = us :=
      (Stages.controls_rolloutFrom p.start p.stages path.controls).trans
        ((Horizon.running_map _ _ Vec.toList path).trans (congrArg Trajectory.controls hlists))
    have hpath := path?_toTrajectory (p := p) (p.rollout path.controls).2
    rw [hstates, hcontrols, h] at hpath
    rw [Except.ok.inj hpath]
    exact isRollout_rollout p path.controls

end Problem

/-! ## Gaps of rollouts -/

/-- What is documented of `atan2`: it answers zero for the points of the positive axis. The origin
is one of them if its abscissa has a positive sign. -/
def Double.TurnsNowhere : Prop :=
  ∀ c : Float, IsPlus c.toModel.unpack → Float.atan2 0 c = 0

/-- The tangent vector `f` from the state `x` to itself is zero as far as it is one of numbers. The
angle is that of a point without ordinate and not on the negative side, so it is zero if `atan2` is
what it should be. -/
def StateSpace.IsNull : (s : StateSpace) → Vec Float s.nx → Vec Float s.ndx → Prop
  | euclidean _, x, f => ∀ i, f.get i = 0 ↔ (x.get i).isFinite = true
  | revolute, x, f =>
    let turn := (Revolute.rotation x).inverse * Revolute.rotation x
    (f.entry 1 = 0 ↔ (Revolute.velocity x).isFinite = true) ∧
      (turn.im.isFinite = true → 0 ≤ turn.re ∧ f.entry 0 = Float.atan2 0 turn.re ∧
        (Double.TurnsNowhere → f.entry 0 = 0))

theorem Double.sub_self_eq_zero_iff {a : Float} : a - a = 0 ↔ a.isFinite = true := by
  constructor
  · intro h
    have hzero : Scalar.isFinite (a - a) = true := by
      rw [h]
      decide +kernel
    exact (StrictScalar.isFinite_of_sub hzero).1
  · intro h
    rw [sub_eq, sub_self_eq h]
    decide +kernel

/-- **No tangent vector leads from a state of doubles to itself**, as far as they are numbers. -/
theorem StateSpace.isNull_diff : ∀ (s : StateSpace) (x : Vec Float s.nx), s.IsNull x (s.diff x x)
  | euclidean _, x => by
    intro i
    show (x - x).get i = 0 ↔ _
    rw [Vec.get_sub]
    exact Double.sub_self_eq_zero_iff
  | revolute, x => by
    refine ⟨Double.sub_self_eq_zero_iff, ?_⟩
    generalize hr : Revolute.rotation x = r
    intro him
    -- the ordinate of the turn is a product plus its opposite, so both are finite and cancel out
    have hproduct : (r.re * r.im).isFinite = true :=
      (StrictScalar.isFinite_of_add (α := Float) him).1
    obtain ⟨hre, him⟩ : r.re.isFinite = true ∧ r.im.isFinite = true :=
      StrictScalar.isFinite_of_mul (α := Float) hproduct
    have hplus := Double.isPlus_mul_self_sub (Double.isNaN_of_isFinite hre)
      (Double.isNaN_of_isFinite him)
    have hangle : (Revolute.diff x x).entry 0 = Float.atan2 0 (r.re * r.re - -r.im * r.im) := by
      show Float.atan2 ((Revolute.rotation x).re * (Revolute.rotation x).im +
        -(Revolute.rotation x).im * (Revolute.rotation x).re) _ = _
      rw [hr, Double.mul_add_neg_mul hproduct]
      rfl
    exact ⟨Double.nonneg_iff.mpr hplus.isNonneg, hangle, fun hatan => hangle.trans (hatan _ hplus)⟩

/-! ## Paths without gaps -/

theorem StateSpace.diff_eq_zero_iff {n : Nat} {x y : Vec ℝ n} :
    (euclidean n).diff x y = 0 ↔ x = y := by
  show y - x = 0 ↔ x = y
  constructor
  · intro h
    ext i
    have hentry : (y - x).get i = 0 := by rw [h, Vec.get_zero]
    rw [Vec.get_sub] at hentry
    exact (sub_eq_zero.mp hentry).symm
  · rintro rfl
    exact diff_self (euclidean n) x

theorem StateSpace.forall_diff_eq_zero_iff {n : Nat} : ∀ {xs ys : List (Vec ℝ n)},
    xs.length = ys.length →
      ((∀ f ∈ List.zipWith (euclidean n).diff xs ys, f = 0) ↔ xs = ys)
  | [], [], _ => iff_of_true nofun rfl
  | x :: xs, y :: ys, h => by
    rw [List.zipWith_cons_cons, List.forall_mem_cons, diff_eq_zero_iff,
      forall_diff_eq_zero_iff (Nat.succ.inj h), List.cons.injEq]

namespace Problem

/-- **In a Euclidean space, the paths without gaps are those that follow their own predictions.** -/
theorem gapsAlong_eq_zero_iff {n : Nat} {p : Problem ℝ (.euclidean n) nus}
    {path : Path ℝ (.euclidean n) nus} :
    (∀ f ∈ p.gapsAlong path, f = 0) ↔ p.IsRollout path := by
  have hstates : path.stateList.length = nus.length + 1 := Horizon.length_toList _ _ path
  have hpredictions : (p.predictionsAlong path).length = nus.length + 1 :=
    congrArg (· + 1) (Horizon.length_running _ _)
  exact StateSpace.forall_diff_eq_zero_iff (hstates.trans hpredictions.symm)

/-- What the gaps of the states `xs` tell once they have been evaluated with the controls `us`. -/
structure GapsTell {n : Nat} (p : Problem ℝ (.euclidean n) nus) (xs us : List (List ℝ))
    (path : Path ℝ (.euclidean n) nus) (p' : Problem ℝ (.euclidean n) nus)
    (gaps : List (Vec ℝ n)) : Prop where
  fits : p.path? xs us = .ok path
  evaluated : p.evaluate? xs us = .ok (p', p'.totalCost)
  answers : p'.gaps? xs = .ok (gaps.map Vec.toList)
  count : gaps.length = nus.length + 1
  /-- If they are all zero, the states are those to which the controls lead. -/
  closed : (∀ f ∈ gaps, f = 0) ↔
    ∃ q path', p.rollout? us = .ok (q, path') ∧ path'.toTrajectory.states = xs
  /-- That is, the path starts at the initial state and goes on as the models say. -/
  follows : (∀ f ∈ gaps, f = 0) ↔ p.IsRollout path

theorem exists_gapsTell {n : Nat} (p : Problem ℝ (.euclidean n) nus) {xs us : List (List ℝ)}
    (hcontrols : us.map List.length = nus) (hcount : xs.length = nus.length + 1)
    (hsizes : ∀ x ∈ xs, x.length = n) : ∃ path p' gaps, p.GapsTell xs us path p' gaps := by
  obtain ⟨path, hpath⟩ := exists_path?_iff (p := p).mpr ⟨hcontrols, hcount, hsizes⟩
  have hstates : path.toTrajectory.states = xs :=
    congrArg Trajectory.states (toTrajectory_of_path? hpath)
  have hsame := same_evaluate p path
  have hstored : (p.evaluate path).stages.storedEvaluations =
      (p.evaluate path).stages.models.evaluations path := by
    rw [hsame.models]
    exact Stages.storedEvaluations_evaluate p.stages path
  have hgaps : ((p.evaluate path).gaps path).toList id id = p.gapsAlong path :=
    (gaps_eq_gapsAlong hstored).trans (hsame.gapsAlong path)
  refine ⟨path, p.evaluate path, p.gapsAlong path, hpath, ?_, ?_, ?_, ?_, ?_⟩
  · unfold evaluate?
    rw [hpath]
    rfl
  · rw [← hstates, gaps?_toTrajectory, hgaps]
  · rw [← hgaps]
    exact Horizon.length_toList _ _ _
  · rw [gapsAlong_eq_zero_iff]
    exact isRollout_iff_rollout? hpath
  · exact gapsAlong_eq_zero_iff

/-- **If nothing is rounded, a rollout has no gaps.** -/
theorem RollsOut.gaps_eq_zero {p p' : Problem ℝ s nus} {us : List (List ℝ)} {path : Path ℝ s nus}
    (h : p.RollsOut us p' path) : p'.gaps? path.toTrajectory.states =
      .ok (List.replicate (nus.length + 1) (0 : Vec ℝ s.ndx).toList) := by
  have hcount : path.stateList.length = nus.length + 1 := Horizon.length_toList _ _ path
  rw [h.gaps, ← hcount, ← List.map_const']
  exact congrArg Except.ok (List.map_congr_left fun x _ => congrArg Vec.toList (s.diff_self x))

/-- **Rollouts, evaluations and gaps agree**, in arithmetic of any kind, but for values that are not
numbers. -/
theorem rollouts_agree :
    (∀ {α : Type} [Scalar α] {s : StateSpace} {nus : List Nat} (p : Problem α s nus)
      {us : List (List α)}, us.map List.length = nus → ∃ p' path, p.RollsOut us p' path) ∧
    (∀ {s : StateSpace} {nus : List Nat} {p p' : Problem ℝ s nus} {us : List (List ℝ)}
      {path : Path ℝ s nus}, p.RollsOut us p' path → p'.gaps? path.toTrajectory.states =
        .ok (List.replicate (nus.length + 1) (0 : Vec ℝ s.ndx).toList)) ∧
    (∀ (s : StateSpace) (x : Vec Float s.nx), s.IsNull x (s.diff x x)) ∧
    ∀ {n : Nat} {nus : List Nat} (p : Problem ℝ (.euclidean n) nus) {xs us : List (List ℝ)},
      us.map List.length = nus → xs.length = nus.length + 1 → (∀ x ∈ xs, x.length = n) →
        ∃ path p' gaps, p.GapsTell xs us path p' gaps :=
  ⟨exists_rollsOut, RollsOut.gaps_eq_zero, StateSpace.isNull_diff, exists_gapsTell⟩

/-- A push that is rolled out, and one that does not lead where it is taken to lead. -/
theorem rollouts_agree_push :
    (∃ p' path, (Problem.push ℝ).RollsOut [[1]] p' path ∧
      p'.gaps? path.toTrajectory.states = .ok (List.replicate 2 (0 : Vec ℝ 1).toList)) ∧
    ∃ path p' gaps, (Problem.push ℝ).GapsTell [[1], [1]] [[1]] path p' gaps := by
  obtain ⟨hrolls, hzero, -, htell⟩ := rollouts_agree
  have hrolled : ∃ p' path, (Problem.push ℝ).RollsOut [[1]] p' path := hrolls (Problem.push ℝ) rfl
  obtain ⟨p', path, h⟩ := hrolled
  refine ⟨⟨p', path, h, hzero h⟩, htell (Problem.push ℝ) rfl rfl ?_⟩
  simp

set_option maxRecDepth 100000 in
/-- **A rollout may overflow**, and then its gaps are not all zero. -/
theorem rollout_overflows :
    ∃ p' path gaps,
      ({ Problem.push Float with start := ⟨#v[1e308]⟩ }).rollout? [[1e308]] = .ok (p', path) ∧
      p'.gaps? path.toTrajectory.states = .ok gaps ∧ ∃ f ∈ gaps, ∃ a ∈ f, a.isNaN = true := by
  let overflows (r : Problem Float (.euclidean 1) [1] × Path Float (.euclidean 1) [1]) : Bool :=
    (r.1.gaps? r.2.toTrajectory.states).toOption.any fun gaps =>
      gaps.any fun f => f.any Float.isNaN
  have hany : (({ Problem.push Float with start := ⟨#v[1e308]⟩ }).rollout? [[1e308]]).toOption.any
      overflows = true := by
    decide +kernel
  obtain ⟨⟨p', path⟩, hrolled, hoverflows⟩ := exists_ok_of_any hany
  obtain ⟨gaps, hgaps, hoverflows⟩ := exists_ok_of_any hoverflows
  obtain ⟨f, hf, hoverflows⟩ := List.any_eq_true.mp hoverflows
  exact ⟨p', path, gaps, hrolled, hgaps, f, hf, List.any_eq_true.mp hoverflows⟩

end Problem

end Shooting
