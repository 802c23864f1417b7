import Shooting.Proofs.Exact.Linear
import Shooting.Proofs.LengthScalar
import Shooting.Proofs.Solver.Finiteness

/-!
# The length of the longest gap

The longest gap of an answer is found by a maximum that passes over what is not a number. So a bound
on its length is one on the lengths of all gaps that have one, and says nothing of the others
(`SolveResult.maxGap_le_iff`). A gap without a length can be part of an answer: the initial state is
never checked, and the next states along the path to start from are not unless an iteration begins
(`Solver.max_gap_passes_over`).

Gaps that are differences of ordinary numbers have a length even if they overflow. In a Euclidean
space these are all gaps of a path with finite predictions, and that is any path that is answered
after an iteration (`Solver.max_gap_bounds`).
-/

namespace Shooting

variable {α : Type} [Scalar α] {n : Nat} {nus : List Nat}

/-! ## A maximum that passes over what is not a number -/

theorem Scalar.isNaN_max {a b : α} (ha : isNaN a = false) : isNaN (Scalar.max a b) = false := by
  unfold Scalar.max
  rw [ha, if_neg Bool.false_ne_true]
  split
  next => exact ha
  next hb =>
    split
    next => simpa using hb
    next => exact ha

variable [LengthScalar α]

theorem Scalar.max_le_iff {a b c : α} (ha : isNaN a = false) :
    Scalar.max a b ≤ c ↔ a ≤ c ∧ (isNaN b = true ∨ b ≤ c) := by
  unfold Scalar.max
  rw [ha, if_neg Bool.false_ne_true]
  split
  next hb => exact ⟨fun h => ⟨h, .inl hb⟩, And.left⟩
  next hb =>
    have hb' : isNaN b = false := by simpa using hb
    split
    next hlt => exact ⟨fun h => ⟨OrderedScalar.le_trans (LengthScalar.le_of_lt hlt) h, .inr h⟩,
      fun h => h.2.resolve_left hb⟩
    next hge =>
      have hba := OrderedScalar.le_of_not_lt ha hb' hge
      exact ⟨fun h => ⟨h, .inr (OrderedScalar.le_trans hba h)⟩, And.left⟩

theorem Scalar.foldl_max_le_iff {c : α} : ∀ {bs : List α} {a : α}, isNaN a = false →
    (bs.foldl Scalar.max a ≤ c ↔ a ≤ c ∧ ∀ b ∈ bs, isNaN b = true ∨ b ≤ c)
  | [], _, _ => ⟨fun h => ⟨h, nofun⟩, And.left⟩
  | b :: bs, a, ha => by
    rw [List.foldl_cons, foldl_max_le_iff (isNaN_max ha), max_le_iff ha, List.forall_mem_cons,
      and_assoc]

/-- **A bound on the longest gap** is a bound on every gap that has a length. -/
theorem SolveResult.maxGap_le_iff {r : SolveResult α} {tol : α} :
    r.maxGap ≤ tol ↔ 0 ≤ tol ∧ ∀ gap ∈ r.gaps,
      Scalar.isNaN (Vec.ofList gap).norm = true ∨ (Vec.ofList gap).norm ≤ tol := by
  unfold maxGap
  rw [Scalar.foldl_max_le_iff (OrderedScalar.isNaN_of_isFinite OrderedScalar.isFinite_zero),
    List.forall_mem_map]

/-! ## Gaps that have a length -/

omit [LengthScalar α] in
theorem Vec.norm_ofList_toList : ∀ {n : Nat} (v : Vec α n), (Vec.ofList v.toList).norm = v.norm
  | _, ⟨⟨⟨_⟩, rfl⟩⟩ => rfl

/-- Along a path of ordinary numbers that starts from ordinary numbers, every gap has a length. -/
theorem Problem.FiniteAlong.norm_nonneg {p : Problem α (.euclidean n) nus}
    {path : Path α (.euclidean n) nus} (h : p.FiniteAlong path) (hstart : p.start.isFinite = true)
    {gap : Vec α n} (hgap : gap ∈ p.gapsAlong path) : 0 ≤ gap.norm := by
  unfold gapsAlong at hgap
  rw [← List.map_uncurry_zip_eq_zipWith] at hgap
  obtain ⟨⟨x, y⟩, hpair, rfl⟩ := List.mem_map.mp hgap
  obtain ⟨hx, hy⟩ := List.of_mem_zip hpair
  exact Vec.norm_sub_nonneg (h.isFinite_of_mem_predictionsAlong hstart hy)
    (h.isFinite_of_mem_stateList hx)

/-- **A bound on the longest gap of such a path** is a bound on all its gaps. -/
theorem SolveResult.Describes.maxGap_le_iff {p : Problem α (.euclidean n) nus}
    {path : Path α (.euclidean n) nus} {res : SolveResult α} (h : res.Describes p path)
    (hfinite : p.FiniteAlong path) (hstart : p.start.isFinite = true) {tol : α} :
    res.maxGap ≤ tol ↔ 0 ≤ tol ∧ ∀ gap ∈ res.gaps, (Vec.ofList gap).norm ≤ tol := by
  rw [SolveResult.maxGap_le_iff]
  refine and_congr_right fun _ => forall₂_congr fun gap hgap => or_iff_right ?_
  rw [h.gaps] at hgap
  obtain ⟨v, hv, rfl⟩ := List.mem_map.mp hgap
  rw [Vec.norm_ofList_toList]
  exact Bool.eq_false_iff.mp (LengthScalar.isNaN_of_le (hfinite.norm_nonneg hstart hv))

/-- Without rounding, a gap of no length is zero. -/
theorem SolveResult.maxGap_eq_zero_iff {r : SolveResult ℝ} :
    r.maxGap = 0 ↔ ∀ gap ∈ r.gaps, ∀ a ∈ gap, a = 0 := by
  have hnonneg : 0 ≤ r.maxGap := (maxGap_le_iff.mp le_rfl).1
  have hzero {m : Nat} (v : Vec ℝ m) : v.norm ≤ 0 ↔ v = 0 := by
    refine ⟨fun h => ?_, fun h => h ▸ Vec.norm_zero.le⟩
    by_contra hne
    exact (Vec.norm_pos hne).not_ge h
  have hentries (gap : List ℝ) : Vec.ofList gap = 0 ↔ ∀ a ∈ gap, a = 0 := by
    rw [Vec.ext_iff, List.forall_mem_iff_getElem]
    simp only [Vec.get_zero]
    exact ⟨fun h i hi => h ⟨i, hi⟩, fun h i => h i i.isLt⟩
  have hnorm (gap : List ℝ) :
      Scalar.isNaN (Vec.ofList gap).norm = true ∨ (Vec.ofList gap).norm ≤ 0 ↔
        ∀ a ∈ gap, a = 0 :=
    (or_iff_right Bool.false_ne_true).trans ((hzero _).trans (hentries gap))
  rw [← hnonneg.ge_iff_eq', maxGap_le_iff, and_iff_right le_rfl]
  exact forall₂_congr fun gap _ => hnorm gap

namespace Solver

/-- **What the length of the longest gap says of the others.** -/
theorem max_gap_bounds [StrictScalar α] :
    (∀ (r : SolveResult α) (tol : α), r.maxGap ≤ tol ↔ 0 ≤ tol ∧ ∀ gap ∈ r.gaps,
      Scalar.isNaN (Vec.ofList gap).norm = true ∨ (Vec.ofList gap).norm ≤ tol) ∧
    (∀ {n : Nat} {nus : List Nat} (sv : Solver α (.euclidean n) nus)
      (p : Problem α (.euclidean n) nus) (g : Guess α) (clock : Nat → Nat) (budget : Nat)
      (res : SolveResult α), p.start.isFinite = true →
      (sv.solveWithin p g clock budget).outcome = .ok res →
      (p.stages.models.ofLibrary = true ∧ 0 < budget ∨
        ∃ path, res.Describes p path ∧ p.FiniteAlong path) →
      ∀ tol, res.maxGap ≤ tol ↔ 0 ≤ tol ∧ ∀ gap ∈ res.gaps, (Vec.ofList gap).norm ≤ tol) ∧
    ∀ r : SolveResult ℝ, r.maxGap = 0 ↔ ∀ gap ∈ r.gaps, ∀ a ∈ gap, a = 0 := by
  refine ⟨fun r tol => SolveResult.maxGap_le_iff, ?_, fun r => SolveResult.maxGap_eq_zero_iff⟩
  intro n nus sv p g clock budget res hstart hout hcase tol
  obtain ⟨path, hdescribes, hfinite⟩ : ∃ path, res.Describes p path ∧ p.FiniteAlong path := by
    rcases hcase with ⟨hlib, hbudget⟩ | hpath
    · exact exists_finiteAlong_of_answer hlib hbudget hout
    · exact hpath
  exact hdescribes.maxGap_le_iff hfinite hstart

set_option maxRecDepth 100000 in
/-- A step that closes all gaps, and a path to start from whose gaps have lengths. -/
theorem max_gap_bounds_push :
    ∃ res, ((Solver.new .standard .none).solveWithin (Problem.push Float)
        ⟨some [[3], [5]], some [[0]], false, none⟩ (fun _ => 0) 1).outcome = .ok res ∧
      res.maxGap ≤ 0 ∧ ∀ gap ∈ res.gaps, (Vec.ofList gap).norm ≤ 0 := by
  have hsolve : ((Solver.new .standard .none).solveWithin (Problem.push Float)
      ⟨some [[3], [5]], some [[0]], false, none⟩ (fun _ => 0) 1).outcome.toOption.any
        (fun res => decide (res.maxGap ≤ 0)) = true := by
    decide +kernel
  obtain ⟨res, hout, hgap⟩ := exists_ok_of_any hsolve
  have hle : res.maxGap ≤ 0 := of_decide_eq_true hgap
  have hstart : (Problem.push Float).start.isFinite = true := by decide +kernel
  exact ⟨res, hout, hle, ((max_gap_bounds.2.1 _ _ _ _ _ res hstart hout
    (.inl ⟨rfl, Nat.one_pos⟩) 0).mp hle).2⟩

/-- A stage that shears the plane so far that the sum of its parts is no number. -/
def sheared : Problem Float (.euclidean 2) [1] :=
  let shear : Mat Float 2 2 := .ofFn fun i j => if i = 0 then 1e308 else if j = 0 then 0 else 1
  let stretch : Model Float (.euclidean 2) 1 := .lqr (.driftless shear 0 0 (.identity 1))
  let stop : Model Float (.euclidean 2) 0 := .lqr (.terminal 0)
  ⟨.ofFn fun i => if i = 0 then 10 else -10, .stage ⟨stretch, .zero⟩ (.last ⟨0, stop, .zero⟩)⟩

set_option maxRecDepth 100000 in
/-- An answer without iterations whose longest gap has no length but the one reported is zero. -/
theorem max_gap_passes_over :
    ∃ res, ((Solver.new .standard .none).solveWithin sheared
        ⟨some [[10, -10], [0, -10]], some [[0]], true, none⟩ (fun _ => 0) 0).outcome = .ok res ∧
      res.maxGap ≤ 0 ∧ ∃ gap ∈ res.gaps, ¬ (Vec.ofList gap).norm ≤ 0 := by
  have hsolve : ((Solver.new .standard .none).solveWithin sheared
      ⟨some [[10, -10], [0, -10]], some [[0]], true, none⟩ (fun _ => 0) 0).outcome.toOption.any
        (fun res => decide (res.maxGap ≤ 0) &&
          res.gaps.any fun gap => !decide ((Vec.ofList gap).norm ≤ 0)) = true := by
    decide +kernel
  obtain ⟨res, hout, hgap⟩ := exists_ok_of_any hsolve
  obtain ⟨hle, hhidden⟩ := Bool.and_eq_true_iff.mp hgap
  obtain ⟨gap, hmem, hopen⟩ := List.any_eq_true.mp hhidden
  exact ⟨res, hout, of_decide_eq_true hle, gap, hmem, by simpa using hopen⟩

end Solver

end Shooting
