import Shooting.Proofs.Exact.PositiveDefinite
import Shooting.Proofs.Loose.Algebra
import Shooting.Proofs.StrictScalar
import Mathlib.Order.Bounds.Basic

/-!
# Solvers that hold a factor

A solver never answers from the factor of a matrix that it was not given last
(`CholeskySolver.never_stale`). What it holds after any requests is a function of that matrix alone
(`CholeskySolver.factor_after`, by induction on the requests): its factor, or nothing if it has none.
This takes no law of arithmetic, nor does it that numbers above the diagonal are never used
(`CholeskySolver.answers_congr`).

If nothing is rounded, a matrix has a factor exactly if the symmetric matrix with its lower triangle
is positive definite. Factorization then stops at the first row that is in the way, so that the pivot
it reports is the order of the largest leading block that is positive definite
(`Mat.isGreatest_of_cholesky_error`).
-/

namespace Shooting

variable {α : Type} {k m n : ℕ}

/-! ## The lower triangle -/

namespace Mat

/-- The symmetric matrix with the lower triangle of a matrix. -/
def mirrored (a : Mat α n n) : Mat α n n := .ofFn fun i j => if j ≤ i then a.get i j else a.get j i

@[simp] theorem get_mirrored (a : Mat α n n) (i j : Fin n) :
    a.mirrored.get i j = if j ≤ i then a.get i j else a.get j i := get_ofFn _ i j

/-- Two matrices with the same entries on the diagonal and below. -/
def SameLower (a b : Mat α m n) : Prop :=
  ∀ (i : Fin m) (j : Fin n), j.val ≤ i.val → a.get i j = b.get i j

theorem sameLower_mirrored (a : Mat α n n) : a.mirrored.SameLower a :=
  fun i j hij => (a.get_mirrored i j).trans (if_pos hij)

variable [Scalar α]

/-- Factorization reads the lower triangle only. -/
theorem choleskyWithReciprocals_congr : ∀ {n : ℕ} {a b : Mat α n n}, a.SameLower b →
    choleskyWithReciprocals a = choleskyWithReciprocals b
  | 0, _, _, _ => rfl
  | n + 1, a, b, h => by
    have hleading : a.leading.SameLower b.leading := by
      intro i j hij
      rw [get_leading, get_leading]
      exact h i.castSucc j.castSucc hij
    have hrow : (a.row (Fin.last n)).init = (b.row (Fin.last n)).init := by
      ext j
      rw [Vec.get_init, Vec.get_init]
      exact h (Fin.last n) j.castSucc j.castSucc.le_last
    have hdiagonal : a.get (Fin.last n) (Fin.last n) = b.get (Fin.last n) (Fin.last n) :=
      h _ _ le_rfl
    unfold choleskyWithReciprocals
    rw [choleskyWithReciprocals_congr hleading, hrow, hdiagonal]

theorem cholesky_congr {a b : Mat α n n} (h : a.SameLower b) : cholesky a = cholesky b := by
  unfold cholesky
  rw [choleskyWithReciprocals_congr h]

end Mat

/-! ## Leading blocks -/

namespace Mat

/-- The first `k` rows and columns. -/
def block (a : Mat α n n) (k : ℕ) (h : k ≤ n) : Mat α k k :=
  .ofFn fun i j => a.get (i.castLE h) (j.castLE h)

@[simp] theorem get_block (a : Mat α n n) (h : k ≤ n) (i j : Fin k) :
    (a.block k h).get i j = a.get (i.castLE h) (j.castLE h) := get_ofFn _ i j

theorem block_self (a : Mat α n n) : a.block n le_rfl = a := by
  ext i j
  exact a.get_block le_rfl i j

theorem leading_block (a : Mat α n n) (h : k + 1 ≤ n) :
    (a.block (k + 1) h).leading = a.block k (k.le_succ.trans h) := by
  ext i j
  rw [get_leading, get_block, get_block]
  rfl

theorem block_leading (a : Mat α (n + 1) (n + 1)) (h : k ≤ n) :
    a.leading.block k h = a.block k (h.trans n.le_succ) := by
  ext i j
  rw [get_block, get_leading, get_block]
  rfl

theorem isSymmetric_mirrored (a : Mat ℝ n n) : a.mirrored.IsSymmetric := by
  refine isSymmetric_of_get fun i j => ?_
  rw [get_mirrored, get_mirrored]
  rcases lt_trichotomy i j with hij | rfl | hij
  · rw [if_neg hij.not_ge, if_pos hij.le]
  · rfl
  · rw [if_pos hij.le, if_neg hij.not_ge]

theorem IsSymmetric.block {a : Mat ℝ n n} (hsymm : a.IsSymmetric) (h : k ≤ n) :
    (a.block k h).IsSymmetric :=
  isSymmetric_of_get fun i j => by rw [get_block, get_block, hsymm.get_comm]

/-- The blocks of a positive block are positive. -/
theorem IsPositive.block {a : Mat ℝ n n} (hsymm : a.IsSymmetric) {l : ℕ} (hle : k ≤ l) :
    ∀ {h : l ≤ n}, (a.block l h).IsPositive → (a.block k (hle.trans h)).IsPositive := by
  induction hle with
  | refl => exact id
  | step hle ih =>
    intro h hpos
    refine ih (h := (Nat.le_succ _).trans h) ?_
    rw [← leading_block]
    exact hpos.leading (hsymm.block h)

/-- A symmetric matrix has a factor if and only if it is positive definite. -/
theorem exists_cholesky_iff {a : Mat ℝ n n} (hsymm : a.IsSymmetric) :
    (∃ l, cholesky a = .ok l) ↔ a.IsPositive := by
  constructor
  · rintro ⟨l, hl⟩
    exact (cholesky_real hl).isPositive hsymm
  · exact cholesky_of_isPositive hsymm

/-- The row where factorization stops: the block before it is positive definite, and it is not with
that row added. -/
theorem block_of_cholesky_error : ∀ {n : ℕ} {a : Mat ℝ n n} {i : ℕ}, a.IsSymmetric →
    choleskyWithReciprocals a = .error i →
    ∃ h : i < n, (a.block i h.le).IsPositive ∧ ¬ (a.block (i + 1) h).IsPositive
  | 0, _, _, _, h => nomatch h
  | n + 1, a, i, hsymm, h => by
    have hnone : ¬ ∃ l, cholesky a = .ok l := by
      unfold cholesky
      rw [h]
      rintro ⟨l, hl⟩
      cases hl
    unfold choleskyWithReciprocals at h
    cases habove : choleskyWithReciprocals a.leading with
    | error j =>
      -- a row above is in the way
      rw [habove] at h
      obtain rfl := Except.error.inj h
      obtain ⟨hj, hpos, hneg⟩ := block_of_cholesky_error hsymm.leading habove
      rw [block_leading] at hpos hneg
      exact ⟨hj.trans n.lt_succ_self, hpos, hneg⟩
    | ok out =>
      -- the last row is
      rw [habove] at h
      dsimp only [bind, Except.bind] at h
      split at h
      next => cases h
      next =>
        obtain rfl := Except.error.inj h
        have hpos : a.leading.IsPositive := (choleskyWithReciprocals_real habove).1.isPositive
          hsymm.leading
        refine ⟨n.lt_succ_self, ?_, ?_⟩
        · rw [← block_leading a le_rfl, block_self]
          exact hpos
        · rw [block_self, ← exists_cholesky_iff hsymm]
          exact hnone

/-- The leading block of order `k` is positive definite, going by the lower triangle. -/
def IsPositiveUpTo (a : Mat ℝ n n) (k : ℕ) : Prop := ∃ h : k ≤ n, (a.mirrored.block k h).IsPositive

/-- **The pivot that fails is the order of the largest positive definite leading block.** -/
theorem isGreatest_of_cholesky_error {a : Mat ℝ n n} {i : ℕ} (h : cholesky a = .error i) :
    i < n ∧ IsGreatest {k | a.IsPositiveUpTo k} i := by
  have hfails : choleskyWithReciprocals a.mirrored = .error i := by
    rw [choleskyWithReciprocals_congr a.sameLower_mirrored]
    unfold cholesky at h
    cases hout : choleskyWithReciprocals a with
    | error j =>
      rw [hout] at h
      exact congrArg Except.error (Except.error.inj h)
    | ok out =>
      rw [hout] at h
      cases h
  obtain ⟨hi, hpos, hneg⟩ := block_of_cholesky_error a.isSymmetric_mirrored hfails
  refine ⟨hi, ⟨hi.le, hpos⟩, ?_⟩
  rintro k ⟨hk, hkpos⟩
  by_contra hlt
  exact hneg (IsPositive.block a.isSymmetric_mirrored (not_le.mp hlt) hkpos)

end Mat

/-! ## Requests -/

namespace Table

theorem toMat?_eq_some_iff {t : Table α} {a : Mat α m n} :
    t.toMat? m n = some a ↔ t = .ofMat a := by
  constructor
  · intro h
    obtain ⟨rows, cols, entry⟩ := t
    obtain ⟨rfl, rfl⟩ := (toMat?_isSome_iff _).mp (Option.isSome_of_eq_some h)
    rw [toMat?, dif_pos ⟨rfl, rfl⟩] at h
    obtain rfl := Option.some.inj h
    refine congrArg (mk rows cols) (funext fun i => funext fun j => ?_)
    exact (Mat.get_ofFn entry i j).symm
  · rintro rfl
    exact toMat?_ofMat a

theorem exists_ofMat (t : Table α) : ∃ (m n : ℕ) (a : Mat α m n), t = .ofMat a :=
  ⟨t.rows, t.cols, t.toMat, toMat?_eq_some_iff.mp (dif_pos ⟨rfl, rfl⟩)⟩

variable [Scalar α]

/-- The table of a square matrix of ordinary numbers whose lower triangle has a factor. -/
def HasFactor (t : Table α) : Prop :=
  ∃ (n : ℕ) (a : Mat α n n), t = .ofMat a ∧ a.isFinite = true ∧ ∃ l, cholesky a.mirrored = .ok l

/-- Two tables that differ at most above the diagonal, where both have ordinary numbers. -/
inductive SameLower : Table α → Table α → Prop
  | intro {m n : ℕ} {a b : Mat α m n} (lower : a.SameLower b)
      (above : ∀ i j, a.get i j = b.get i j ∨
        Scalar.isFinite (a.get i j) = true ∧ Scalar.isFinite (b.get i j) = true) :
      SameLower (.ofMat a) (.ofMat b)

end Table

namespace CholeskySolver

/-- What a solver can be asked. -/
inductive Request (α : Type) where
  | factorize (a : Table α)
  | solve (b : Table α)
  | solveVec (b : List α)

/-- What a solver answers to each request. -/
inductive Answer (α : Type) where
  | factorized (out : Except MatrixError Unit)
  | solved (out : Except MatrixError (Table α))
  | solvedVec (out : Except MatrixError (List α))

/-- The matrix a request brings. -/
def Request.matrix? : Request α → Option (Table α)
  | .factorize a => some a
  | .solve _ | .solveVec _ => none

/-- The matrix a solver was given last. -/
def lastGiven (rs : List (Request α)) : Option (Table α) := (rs.filterMap Request.matrix?).getLast?

/-- Requests that bring tables with the same lower triangle, or ask for the same. -/
inductive Request.Alike [Scalar α] : Request α → Request α → Prop
  | factorize {a b : Table α} (h : a.SameLower b) : Alike (.factorize a) (.factorize b)
  | solve (b : Table α) : Alike (.solve b) (.solve b)
  | solveVec (b : List α) : Alike (.solveVec b) (.solveVec b)

variable [Scalar α]

/-- Answers a request. -/
def serve (sv : CholeskySolver α) : Request α → CholeskySolver α × Answer α
  | .factorize a => ((sv.factorize a).1, .factorized (sv.factorize a).2)
  | .solve b => (sv, .solved (sv.solve b))
  | .solveVec b => (sv, .solvedVec (sv.solveVec b))

/-- The answers to requests one after the other. -/
def answers (sv : CholeskySolver α) : List (Request α) → List (Answer α)
  | [] => []
  | r :: rs => (sv.serve r).2 :: (sv.serve r).1.answers rs

/-- A new solver after some requests. -/
def after (rs : List (Request α)) : CholeskySolver α := rs.foldl (fun sv r => (sv.serve r).1) new

theorem after_append_singleton (rs : List (Request α)) (r : Request α) :
    after (rs ++ [r]) = ((after rs).serve r).1 := by
  rw [after, List.foldl_append]
  rfl

/-! ## One request -/

/-- What is held after a matrix is its factor, if it has one. -/
theorem factor_factorize (sv : CholeskySolver α) (a : Table α) :
    (sv.factorize a).1.factor = (factorOf a).toOption.map fun l => ⟨a.rows, l⟩ := by
  unfold factorize
  cases factorOf a <;> rfl

theorem answer_factorize (sv : CholeskySolver α) (a : Table α) :
    (sv.factorize a).2 = (factorOf a).map fun _ => () := by
  unfold factorize
  cases factorOf a <;> rfl

/-- The factor in terms of the lower triangle alone. -/
theorem factorOf_mirrored (a : Mat α n n) :
    factorOf (.ofMat a) =
      if a.isFinite then (cholesky a.mirrored).mapError fun i => .notPositiveDefinite (.pivot i)
      else .error (.numericalInstability .notFinite) := by
  rw [factorOf_ofMat, Mat.cholesky_congr a.sameLower_mirrored]

theorem factorOf_of_ne (a : Mat α m n) (h : m ≠ n) :
    factorOf (.ofMat a) = .error (.dimensionMismatch (.notSquare m n)) := by
  have hnone : (Table.ofMat a).toMat? (Table.ofMat a).rows (Table.ofMat a).rows = none := by
    refine dif_neg fun hshape => h ?_
    exact hshape.2.symm
  unfold factorOf
  rw [hnone]
  rfl

theorem hasFactor_iff {t : Table α} : t.HasFactor ↔ ∃ l, factorOf t = .ok l := by
  constructor
  · rintro ⟨n, a, rfl, hfinite, l, hl⟩
    rw [factorOf_mirrored, if_pos hfinite, hl]
    exact ⟨l, rfl⟩
  · rintro ⟨l, hl⟩
    obtain ⟨m, n, a, rfl⟩ := t.exists_ofMat
    by_cases hsquare : m = n
    · subst hsquare
      rw [factorOf_mirrored] at hl
      split at hl
      next hfinite =>
        refine ⟨m, a, rfl, hfinite, ?_⟩
        cases hcholesky : cholesky a.mirrored with
        | ok l => exact ⟨l, rfl⟩
        | error i =>
          rw [hcholesky] at hl
          cases hl
      next => cases hl
    · rw [factorOf_of_ne a hsquare] at hl
      cases hl

/-! ## Only the lower triangle is used -/

theorem factorOf_congr {a b : Mat α m n} (hlower : a.SameLower b)
    (habove : ∀ i j, a.get i j = b.get i j ∨
      Scalar.isFinite (a.get i j) = true ∧ Scalar.isFinite (b.get i j) = true) :
    factorOf (.ofMat a) = factorOf (.ofMat b) := by
  by_cases hsquare : m = n
  · subst hsquare
    have hentry (i j : Fin m) : Scalar.isFinite (a.get i j) = Scalar.isFinite (b.get i j) := by
      rcases habove i j with heq | ⟨ha, hb⟩
      · rw [heq]
      · rw [ha, hb]
    have hfinite : a.isFinite = b.isFinite := by
      rw [Bool.eq_iff_iff, Mat.isFinite_iff, Mat.isFinite_iff]
      simp only [hentry]
    have hcholesky : cholesky a = cholesky b := Mat.cholesky_congr hlower
    rw [factorOf_ofMat, factorOf_ofMat, hfinite, hcholesky]
  · exact (factorOf_of_ne a hsquare).trans (factorOf_of_ne b hsquare).symm

theorem serve_congr (sv : CholeskySolver α) {r r' : Request α} (h : r.Alike r') :
    sv.serve r = sv.serve r' := by
  cases h with
  | solve => rfl
  | solveVec => rfl
  | factorize h =>
    obtain @⟨m, n, a, b, hlower, habove⟩ := h
    unfold serve factorize
    dsimp only
    rw [factorOf_congr hlower habove]
    cases factorOf (.ofMat b) <;> rfl

/-- Ordinary numbers above the diagonal are not used: with others the answers are the same. -/
theorem answers_congr {rs rs' : List (Request α)} (h : List.Forall₂ Request.Alike rs rs')
    (sv : CholeskySolver α) : sv.answers rs = sv.answers rs' := by
  induction h generalizing sv with
  | nil => rfl
  | cons hhead _ ih => rw [answers, answers, sv.serve_congr hhead, ih]

/-! ## After any requests -/

/-- **What is held is the factor of the matrix given last.** -/
theorem factor_after (rs : List (Request α)) :
    (after rs).factor =
      (lastGiven rs).bind fun a => (factorOf a).toOption.map fun l => ⟨a.rows, l⟩ := by
  induction rs using List.reverseRecOn with
  | nil => rfl
  | append_singleton rs r ih =>
    rw [after_append_singleton, lastGiven, List.filterMap_append]
    cases r with
    | factorize a =>
      rw [serve, factor_factorize]
      simp [Request.matrix?]
    | solve b =>
      rw [serve, ih]
      simp [Request.matrix?, lastGiven]
    | solveVec b =>
      rw [serve, ih]
      simp [Request.matrix?, lastGiven]

theorem solve_eq_ok_iff {sv : CholeskySolver α} {b x : Table α} :
    sv.solve b = .ok x ↔ ∃ (n k : ℕ) (l : Lower α n) (c : Mat α n k),
      sv.factor = some ⟨n, l⟩ ∧ b = .ofMat c ∧ x = .ofMat (l.solve c) := by
  obtain ⟨factor, d⟩ := sv
  constructor
  · intro h
    unfold solve at h
    split at h
    next => cases h
    next n l hfactor =>
      split at h
      next => cases h
      next c hc =>
        obtain rfl := Except.ok.inj h
        exact ⟨n, b.cols, l, c, hfactor, Table.toMat?_eq_some_iff.mp hc, rfl⟩
  · rintro ⟨n, k, l, c, rfl, rfl, rfl⟩
    exact solve_ofMat l d c

/-- **A system is solved if and only if the matrix given last has a factor**, and as many rows. -/
theorem exists_solve_iff {rs : List (Request α)} {b : Table α} :
    (∃ x, (after rs).solve b = .ok x) ↔
      ∃ a, lastGiven rs = some a ∧ a.HasFactor ∧ b.rows = a.rows := by
  constructor
  · rintro ⟨x, hx⟩
    obtain ⟨n, k, l, c, hfactor, rfl, rfl⟩ := solve_eq_ok_iff.mp hx
    rw [factor_after, Option.bind_eq_some_iff] at hfactor
    obtain ⟨a, ha, hl⟩ := hfactor
    cases hout : factorOf a with
    | error e =>
      rw [hout] at hl
      cases hl
    | ok l' =>
      rw [hout] at hl
      have hrows : a.rows = n := congrArg Sigma.fst (Option.some.inj hl)
      exact ⟨a, ha, hasFactor_iff.mpr ⟨l', hout⟩, hrows.symm⟩
  · rintro ⟨a, ha, hfactor, hrows⟩
    obtain ⟨l, hl⟩ := hasFactor_iff.mp hfactor
    obtain ⟨m, k, c, rfl⟩ := b.exists_ofMat
    subst hrows
    refine ⟨.ofMat (l.solve c), solve_eq_ok_iff.mpr ⟨_, _, l, c, ?_, rfl, rfl⟩⟩
    rw [factor_after, ha, Option.bind_some, hl]
    rfl

/-- The solution is the one by the factor of the matrix given last. -/
theorem solve_after {rs : List (Request α)} {a : Mat α n n} {b : Mat α n k} {x : Table α}
    (ha : lastGiven rs = some (.ofMat a)) (hx : (after rs).solve (.ofMat b) = .ok x) :
    ∃ l, cholesky a.mirrored = .ok l ∧ x = .ofMat (l.solve b) := by
  obtain ⟨n', k', l', c, hheld, hb, -⟩ := solve_eq_ok_iff.mp hx
  have hfactor := factor_after rs
  rw [ha, Option.bind_some, factorOf_mirrored] at hfactor
  split at hfactor
  next hfinite =>
    cases hcholesky : cholesky a.mirrored with
    | error i =>
      rw [hcholesky, hheld] at hfactor
      cases hfactor
    | ok l =>
      rw [hcholesky] at hfactor
      have hsolve := solve_eq_ok_iff.mpr ⟨n, k, l, b, hfactor, rfl, rfl⟩
      exact ⟨l, rfl, Except.ok.inj (hx.symm.trans hsolve)⟩
  next =>
    rw [hheld] at hfactor
    cases hfactor

/-! ## One right-hand side -/

omit [Scalar α] in
/-- The table of a matrix with one column, from its entries. -/
theorem ofVec_flatten (y : Mat α n 1) :
    Table.ofMat (.ofVec (.ofList (Table.ofMat y).toLists.flatten)) = .ofMat y := by
  have hflatten : (Table.ofMat y).toLists.flatten = (y.col 0).toList := by
    rw [Table.toLists, Table.toMat_ofMat]
    exact y.flatten_toLists_one
  have hlist {m : ℕ} (v : Vec α m) :
      Table.ofMat (.ofVec (.ofList v.toList)) = Table.ofMat (.ofVec v) := by
    induction v using Vec.induct with
    | h xs => rw [Vec.toList_ofList]
  have hcol : Mat.ofVec (y.col 0) = y := by
    ext i j
    rw [Fin.fin_one_eq_zero j, Mat.ofVec, Mat.get_ofFn]
    exact Vec.get_ofFn _ i
  rw [hflatten, hlist, hcol]

/-- Solving for one right-hand side is solving for a matrix with one column. -/
theorem solve_column (sv : CholeskySolver α) (b : List α) :
    sv.solve (.ofMat (.ofVec (.ofList b))) =
      (sv.solveVec b).map fun x => .ofMat (.ofVec (.ofList x)) := by
  unfold solveVec
  cases hsolve : sv.solve (.ofMat (.ofVec (.ofList b))) with
  | error e => rfl
  | ok x =>
    obtain ⟨n, k, l, c, -, hb, rfl⟩ := solve_eq_ok_iff.mp hsolve
    obtain rfl : 1 = k := congrArg Table.cols hb
    exact congrArg Except.ok (ofVec_flatten (l.solve c)).symm

/-! ## Without rounding -/

end CholeskySolver

/-- A square table of ordinary numbers whose lower triangle is that of a positive definite matrix. -/
def Table.IsPositiveDefinite (t : Table ℝ) : Prop :=
  ∃ (n : ℕ) (a : Mat ℝ n n), t = .ofMat a ∧ a.isFinite = true ∧ a.mirrored.IsPositive

theorem Table.isPositiveDefinite_ofMat {a : Mat ℝ n n} :
    (ofMat a).IsPositiveDefinite ↔ a.mirrored.IsPositive := by
  constructor
  · rintro ⟨m, b, hab, -, hpos⟩
    obtain rfl : n = m := congrArg rows hab
    have hb := Option.some.inj ((toMat?_eq_some_iff.mpr hab).symm.trans (toMat?_ofMat a))
    rwa [hb] at hpos
  · exact fun hpos => ⟨n, a, rfl, a.isFinite_real, hpos⟩

theorem Table.hasFactor_iff_isPositiveDefinite {t : Table ℝ} :
    t.HasFactor ↔ t.IsPositiveDefinite := by
  unfold HasFactor IsPositiveDefinite
  simp only [Mat.exists_cholesky_iff (Mat.isSymmetric_mirrored _)]

namespace CholeskySolver

theorem factorize_ok_iff {α : Type} [Scalar α] {sv : CholeskySolver α} {a : Table α} :
    (sv.factorize a).2 = .ok () ↔ a.HasFactor := by
  rw [answer_factorize, hasFactor_iff]
  cases factorOf a with
  | error e => exact iff_of_false nofun nofun
  | ok l => exact iff_of_true rfl ⟨l, rfl⟩

/-- A matrix that is not positive definite is refused at the largest leading block that is. -/
theorem factorize_of_not_isPositive (sv : CholeskySolver ℝ) {a : Mat ℝ n n}
    (h : ¬ a.mirrored.IsPositive) :
    ∃ i < n, IsGreatest {k | a.IsPositiveUpTo k} i ∧
      (sv.factorize (.ofMat a)).2 = .error (.notPositiveDefinite (.pivot i)) := by
  rw [factorize_ofMat, if_pos a.isFinite_real]
  cases hout : cholesky a with
  | ok l =>
    refine absurd ((Mat.exists_cholesky_iff a.isSymmetric_mirrored).mp ⟨l, ?_⟩) h
    rw [Mat.cholesky_congr a.sameLower_mirrored, hout]
  | error i =>
    obtain ⟨hi, hgreatest⟩ := Mat.isGreatest_of_cholesky_error hout
    exact ⟨i, hi, hgreatest, rfl⟩

/-- The solution solves the system of the matrix given last. -/
theorem mirrored_mul_of_solve {rs : List (Request ℝ)} {a : Mat ℝ n n} {b : Mat ℝ n k} {x : Table ℝ}
    (ha : lastGiven rs = some (.ofMat a)) (hx : (after rs).solve (.ofMat b) = .ok x) :
    ∃ y : Mat ℝ n k, x = .ofMat y ∧ a.mirrored * y = b := by
  obtain ⟨l, hl, rfl⟩ := solve_after ha hx
  exact ⟨l.solve b, rfl, (cholesky_real hl).mul_solve a.isSymmetric_mirrored b⟩

/-- **A solver never answers from a stale factor.** -/
theorem never_stale :
    -- whatever the arithmetic
    (∀ (α : Type) [Scalar α] (rs : List (Request α)),
      (∀ a, ((after rs).factorize a).2 = .ok () ↔ a.HasFactor) ∧
      (∀ m n (a : Mat α m n), m ≠ n → (after rs).factorize (.ofMat a) =
        ({ after rs with factor := none }, .error (.dimensionMismatch (.notSquare m n)))) ∧
      (∀ n (a : Mat α n n), a.isFinite = false → (after rs).factorize (.ofMat a) =
        ({ after rs with factor := none }, .error (.numericalInstability .notFinite))) ∧
      (∀ b, (∃ x, (after rs).solve b = .ok x) ↔
        ∃ a, lastGiven rs = some a ∧ a.HasFactor ∧ b.rows = a.rows) ∧
      (∀ b, (after rs).solve (.ofMat (.ofVec (.ofList b))) =
        ((after rs).solveVec b).map fun x => .ofMat (.ofVec (.ofList x))) ∧
      ∀ rs', List.Forall₂ Request.Alike rs rs' → new.answers rs = new.answers rs') ∧
    -- without rounding
    ∀ rs : List (Request ℝ),
      (∀ a, ((after rs).factorize a).2 = .ok () ↔ a.IsPositiveDefinite) ∧
      (∀ n (a : Mat ℝ n n), ¬ a.mirrored.IsPositive →
        ∃ i < n, IsGreatest {k | a.IsPositiveUpTo k} i ∧
          ((after rs).factorize (.ofMat a)).2 = .error (.notPositiveDefinite (.pivot i))) ∧
      (∀ b, (∃ x, (after rs).solve b = .ok x) ↔
        ∃ a, lastGiven rs = some a ∧ a.IsPositiveDefinite ∧ b.rows = a.rows) ∧
      ∀ n k (a : Mat ℝ n n) (b : Mat ℝ n k) (x : Table ℝ), lastGiven rs = some (.ofMat a) →
        (after rs).solve (.ofMat b) = .ok x →
        ∃ y : Mat ℝ n k, x = .ofMat y ∧ a.mirrored * y = b := by
  refine ⟨fun α _ rs => ⟨fun a => factorize_ok_iff, fun m n a hne => ?_, fun n a hinfinite => ?_,
    fun b => exists_solve_iff, solve_column _, fun rs' h => answers_congr h new⟩,
    fun rs => ⟨fun a => ?_, fun n a h => factorize_of_not_isPositive _ h, fun b => ?_,
      fun n k a b x ha hx => mirrored_mul_of_solve ha hx⟩⟩
  · unfold factorize
    rw [factorOf_of_ne a hne]
  · rw [factorize_ofMat, hinfinite, if_neg Bool.false_ne_true]
  · rw [factorize_ok_iff, Table.hasFactor_iff_isPositiveDefinite]
  · simp only [exists_solve_iff, Table.hasFactor_iff_isPositiveDefinite]

/-- A matrix with one entry. -/
def single {α : Type} (a : α) : Mat α 1 1 := .ofFn fun _ _ => a

@[simp] theorem get_single {α : Type} (a : α) (i j : Fin 1) : (single a).get i j = a :=
  Mat.get_ofFn _ i j

/-- A matrix with `a` above the diagonal. -/
def corner (a : ℝ) : Mat ℝ 2 2 := .ofFn fun i j => if j.val ≤ i.val then 1 else a

theorem sameLower_corner (a b : ℝ) :
    Table.SameLower (.ofMat (corner a)) (.ofMat (corner b)) := by
  refine .intro (fun i j hij => ?_) fun _ _ => .inr ⟨rfl, rfl⟩
  rw [corner, corner, Mat.get_ofFn, Mat.get_ofFn, if_pos hij, if_pos hij]

theorem never_stale_single :
    (∃ y : Mat ℝ 1 1, (after [.factorize (.ofMat (single 4))]).solve (.ofMat (single 8)) =
      .ok (.ofMat y) ∧ (single (4 : ℝ)).mirrored * y = single 8) ∧
    (¬ ∃ x, (after [.factorize (.ofMat (single 4)), .factorize (.ofMat (single (-1)))]).solve
      (.ofMat (single (8 : ℝ))) = .ok x) ∧
    ((after []).factorize (.ofMat (single (-1 : ℝ)))).2 =
      .error (.notPositiveDefinite (.pivot 0)) ∧
    ((after []).factorize (.ofMat (0 : Mat Float 0 1))).2 =
      .error (.dimensionMismatch (.notSquare 0 1)) ∧
    ((after []).factorize (.ofMat (single (0 / 0 : Float)))).2 =
      .error (.numericalInstability .notFinite) ∧
    new.answers [.factorize (.ofMat (corner 5))] = new.answers [.factorize (.ofMat (corner 7))] := by
  have hpos : (single (4 : ℝ)).mirrored.IsPositive := by
    rw [Mat.isPositive_one_iff]
    simp
  have hneg : ¬ (single (-1 : ℝ)).mirrored.IsPositive := by
    rw [Mat.isPositive_one_iff]
    simp
  obtain ⟨anyScalar, real⟩ := never_stale
  obtain ⟨-, -, hsolved, hsolution⟩ := real [.factorize (.ofMat (single 4))]
  obtain ⟨x, hx⟩ := (hsolved (.ofMat (single 8))).mpr
    ⟨_, rfl, Table.isPositiveDefinite_ofMat.mpr hpos, rfl⟩
  obtain ⟨y, rfl, hy⟩ := hsolution 1 1 (single 4) (single 8) x rfl hx
  refine ⟨⟨y, hx, hy⟩, ?_, ?_, ?_, ?_, ?_⟩
  · rw [(real _).2.2.1]
    rintro ⟨a, hgiven, hdefinite, -⟩
    obtain rfl := Option.some.inj hgiven
    exact hneg (Table.isPositiveDefinite_ofMat.mp hdefinite)
  · obtain ⟨i, hi, -, hpivot⟩ := (real []).2.1 1 (single (-1)) hneg
    obtain rfl : i = 0 := by omega
    exact hpivot
  · rw [(anyScalar Float []).2.1 0 1 0 Nat.zero_ne_one]
  · rw [(anyScalar Float []).2.2.1 1 (single (0 / 0)) (by decide +kernel)]
  · exact (anyScalar ℝ _).2.2.2.2.2 _ (.cons (.factorize (sameLower_corner 5 7)) .nil)

end CholeskySolver

end Shooting
