import Shooting.Linear.CholeskySolver
import Shooting.StateSpace
import Mathlib.Tactic.FinCases

/-!
# Vectors and matrices of any shape

In memory a vector is a list and a matrix is a table: their sizes are part of the value. The
operations here are those of `Vec` and `Mat` on such *loose* values. They look at the sizes of their
operands first, and end in a misuse where these do not fit each other or an index is out of range.

On vectors and matrices whose sizes are known and fit, there is no misuse, and what comes out is the
result of the operation on these. The lemmas that say so are simp lemmas: they evaluate a loose
computation on what `Vec.toList` and `Table.ofMat` give.
-/

namespace Shooting

variable {α β : Type} {k m n : Nat}

/-- Every vector is a list of its own length. -/
@[elab_as_elim] theorem Vec.induct {motive : ∀ n, Vec α n → Prop}
    (h : ∀ xs : List α, motive xs.length (.ofList xs)) : ∀ {n : Nat} (v : Vec α n), motive n v
  | _, ⟨⟨⟨xs⟩, rfl⟩⟩ => h xs

theorem Vec.ofList?_eq_none {xs : List α} (h : xs.length ≠ n) :
    (ofList? xs : Option (Vec α n)) = none := by
  rw [← Option.not_isSome_iff_eq_none, ofList?_isSome_iff]
  exact h

theorem Vec.toList_eq_ofFn (v : Vec α n) : v.toList = List.ofFn v.get := by
  refine List.ext_getElem (by simp) fun i hi _ => ?_
  simp [toList, get]

theorem Vec.toList_ofFn (f : Fin n → α) : (ofFn f).toList = List.ofFn f := by
  rw [toList_eq_ofFn]
  exact congrArg List.ofFn (funext fun i => get_ofFn f i)

theorem Vec.toList_map (f : α → β) (v : Vec α n) : (v.map f).toList = v.toList.map f := by
  rw [map, toList_ofFn, toList_eq_ofFn, List.map_ofFn]
  rfl

theorem Vec.toList_replicate (a : α) : (replicate n a).toList = List.replicate n a := by
  rw [toList_eq_ofFn]
  exact List.ext_getElem (by simp) fun i hi _ => by simp

theorem Vec.getElem?_toList (v : Vec α n) (i : Fin n) : v.toList[(i : Nat)]? = some (v.get i) := by
  rw [toList_eq_ofFn, List.getElem?_ofFn, dif_pos i.isLt]

theorem Vec.toList_put (v : Vec α n) (i : Nat) (a : α) : (v.put i a).toList = v.toList.set i a := by
  rw [put, toList_ofFn, toList_eq_ofFn]
  refine List.ext_getElem (by simp) fun j hj _ => ?_
  rw [List.getElem_set, List.getElem_ofFn, List.getElem_ofFn]
  simp only [eq_comm]

theorem Mat.flatten_toLists_one (a : Mat α n 1) : a.toLists.flatten = (a.col 0).toList := by
  have hrow (row : Vec α 1) : row.toList = [row.get 0] := row.toList_eq_ofFn
  have hcol : a.col 0 = a.rows.map fun row => row.get 0 := by
    ext i
    simp [col, get]
  rw [toLists, hcol, Vec.toList_map, funext hrow, List.flatten_eq_flatMap, List.flatMap_map]
  exact List.flatMap_pure_eq_map _ _

/-- A computation on loose values. -/
abbrev Loose (ε : Type) : Type → Type := Except (Refusal ε)

namespace Loose

variable {ε γ : Type}

@[simp] theorem ok_bind (b : β) (f : β → Loose ε γ) : ((Except.ok b : Loose ε β) >>= f) = f b := rfl

@[simp] theorem pure_eq (b : β) : (pure b : Loose ε β) = .ok b := rfl

/-- What is not there is a misuse. -/
def ofOption : Option β → Loose ε β
  | some b => .ok b
  | none => .error .misuse

@[simp] theorem ofOption_some (b : β) : (ofOption (some b) : Loose ε β) = .ok b := rfl

/-- An error is reported. -/
def ofExcept : Except ε β → Loose ε β := Except.mapError .error

/-! ## Lists -/

/-- The entry number `i`. -/
def entry (v : List β) (i : Nat) : Loose ε β := ofOption v[i]?

/-- The list with the entry number `i` replaced. -/
def put (v : List β) (i : Nat) (b : β) : Loose ε (List β) :=
  if i < v.length then .ok (v.set i b) else .error .misuse

theorem entry_eq_ok_iff {v : List β} {i : Nat} {b : β} :
    (entry v i : Loose ε β) = .ok b ↔ v[i]? = some b := by
  unfold entry
  cases v[i]? with
  | none => exact ⟨nofun, nofun⟩
  | some b' => simp

theorem put_eq_ok_iff {v v' : List β} {i : Nat} {b : β} :
    (put v i b : Loose ε (List β)) = .ok v' ↔ i < v.length ∧ v' = v.set i b := by
  unfold put
  by_cases hi : i < v.length
  · simp [hi, eq_comm]
  · simp [hi]

@[simp] theorem entry_append {pre rest : List β} {b : β} {i : Nat} (h : pre.length = i) :
    (entry (pre ++ b :: rest) i : Loose ε β) = .ok b := by
  simp [entry, ← h]

@[simp] theorem put_append {pre rest : List β} {b : β} {i : Nat} (h : pre.length = i) (b' : β) :
    (put (pre ++ b :: rest) i b' : Loose ε (List β)) = .ok (pre ++ b' :: rest) := by
  simp [put, ← h]

theorem entry_of_drop {v rest : List β} {b : β} {i : Nat} (h : v.drop i = b :: rest) :
    (entry v i : Loose ε β) = .ok b := by
  rw [entry_eq_ok_iff, ← Nat.add_zero i, ← List.getElem?_drop, h]
  rfl

theorem drop_succ {v rest : List β} {b : β} {i : Nat} (h : v.drop i = b :: rest) :
    v.drop (i + 1) = rest := by
  rw [← List.tail_drop, h]
  rfl

theorem entry_toList (v : Vec α n) (i : Fin n) :
    (entry v.toList i : Loose ε α) = .ok (v.get i) :=
  entry_eq_ok_iff.mpr (v.getElem?_toList i)

@[simp] theorem entry_toList_of_lt [Scalar α] (v : Vec α n) {i : Nat} (h : i < n) :
    (entry v.toList i : Loose ε α) = .ok (v.entry i) := by
  rw [Vec.entry, dif_pos h]
  exact entry_toList v ⟨i, h⟩

theorem put_toList (v : Vec α n) {i : Nat} (h : i < n) (a : α) :
    (put v.toList i a : Loose ε (List α)) = .ok (v.put i a).toList := by
  rw [put, if_pos (by simpa using h), Vec.toList_put]

/-- **The rule for counted loops.** `inv k` is the state after `k` rounds. -/
theorem foldlM_range {σ : Type} (step : σ → Nat → Loose ε σ) (count : Nat) (inv : Nat → σ)
    (h : ∀ i < count, step (inv i) i = .ok (inv (i + 1))) :
    (List.range count).foldlM step (inv 0) = .ok (inv count) := by
  induction count with
  | zero => rfl
  | succ count ih =>
    rw [List.range_succ, List.foldlM_append, ih fun i hi => h i (Nat.lt_succ_of_lt hi)]
    simp [h count (Nat.lt_succ_self count)]

/-! ## Vectors -/

/-- Combines two vectors, which have to be of one size. -/
def combine (f : {n : Nat} → Vec α n → Vec α n → β) (v w : List α) : Loose ε β := do
  let w ← ofOption (Vec.ofList? w)
  return f (Vec.ofList v) w

theorem combine_toList (f : {n : Nat} → Vec α n → Vec α n → β) (v w : Vec α n) :
    (combine f v.toList w.toList : Loose ε β) = .ok (f v w) := by
  induction v using Vec.induct with
  | h xs =>
    rw [Vec.toList_ofList, combine, Vec.ofList?_toList]
    rfl

variable [Scalar α]

/-- The vector of zeros. -/
def zeros (n : Nat) : List α := List.replicate n 0

theorem zeros_eq (n : Nat) : zeros n = (0 : Vec α n).toList := by
  rw [Vec.toList_eq_ofFn]
  refine List.ext_getElem (by simp [zeros]) fun i hi _ => ?_
  simp [zeros]

def add (v w : List α) : Loose ε (List α) := combine (fun v w => (v + w).toList) v w

def sub (v w : List α) : Loose ε (List α) := combine (fun v w => (v - w).toList) v w

def dot (v w : List α) : Loose ε α := combine Vec.dot v w

@[simp] theorem add_toList (v w : Vec α n) :
    (add v.toList w.toList : Loose ε (List α)) = .ok (v + w).toList :=
  combine_toList (fun v w => (v + w).toList) v w

@[simp] theorem sub_toList (v w : Vec α n) :
    (sub v.toList w.toList : Loose ε (List α)) = .ok (v - w).toList :=
  combine_toList (fun v w => (v - w).toList) v w

@[simp] theorem dot_toList (v w : Vec α n) :
    (dot v.toList w.toList : Loose ε α) = .ok (v.dot w) :=
  combine_toList Vec.dot v w

/-- Every entry times `a`, from the right. -/
def scale (v : List α) (a : α) : List α := v.map (· * a)

@[simp] theorem scale_toList (v : Vec α n) (a : α) : scale v.toList a = (v.scale a).toList :=
  (v.toList_map (· * a)).symm

def neg (v : List α) : List α := v.map (- ·)

@[simp] theorem neg_toList (v : Vec α n) : neg v.toList = (-v).toList := (v.toList_map (- ·)).symm

def normSq (v : List α) : α := (Vec.ofList v).normSq

def norm (v : List α) : α := (Vec.ofList v).norm

@[simp] theorem normSq_toList (v : Vec α n) : normSq v.toList = v.normSq := by
  induction v using Vec.induct with
  | h xs => rw [Vec.toList_ofList, normSq]

@[simp] theorem norm_toList (v : Vec α n) : norm v.toList = v.norm := by
  induction v using Vec.induct with
  | h xs => rw [Vec.toList_ofList, norm]

/-- The entries number `i` and following, `count` of them. -/
def segment (v : List α) (i count : Nat) : Loose ε (List α) :=
  if i + count ≤ v.length then .ok ((v.drop i).take count) else .error .misuse

/-- The difference of two states. -/
def diff (s : StateSpace) (x₀ x₁ : List α) : Loose ε (List α) := ofOption (s.diff? x₀ x₁)

/-- The state reached along a tangent vector. -/
def integrate (s : StateSpace) (x dx : List α) : Loose ε (List α) := ofOption (s.integrate? x dx)

theorem diff_euclidean (x₀ x₁ : List α) :
    (diff (.euclidean n) x₀ x₁ : Loose ε (List α)) =
      combine (fun v w => (w - v).toList) x₀ x₁ := by
  show ofOption (Vec.ofList? x₁ >>= fun b => pure (b - Vec.ofList x₀).toList) = _
  unfold combine
  cases (Vec.ofList? x₁ : Option (Vec α x₀.length)) <;> rfl

theorem integrate_euclidean (x dx : List α) :
    (integrate (.euclidean n) x dx : Loose ε (List α)) = add x dx := by
  show ofOption (Vec.ofList? dx >>= fun d => pure (Vec.ofList x + d).toList) = _
  unfold add combine
  cases (Vec.ofList? dx : Option (Vec α x.length)) <;> rfl

omit [Scalar α] in
theorem ofList?_take (v : Vec α n) : (Vec.ofList? (v.toList.take n) : Option (Vec α n)) = some v := by
  rw [List.take_of_length_le (by simp), Vec.ofList?_toList]

@[simp] theorem diff_toList : ∀ (s : StateSpace) (x₀ x₁ : Vec α s.nx),
    (diff s x₀.toList x₁.toList : Loose ε (List α)) = .ok (s.diff x₀ x₁).toList
  | .euclidean _, x₀, x₁ => by
    rw [diff_euclidean]
    exact combine_toList (fun v w => (w - v).toList) x₀ x₁
  | .revolute, x₀, x₁ => by
    simp only [diff, StateSpace.diff?, ofList?_take]
    rfl

@[simp] theorem integrate_toList : ∀ (s : StateSpace) (x : Vec α s.nx) (dx : Vec α s.ndx),
    (integrate s x.toList dx.toList : Loose ε (List α)) = .ok (s.integrate x dx).toList
  | .euclidean _, x, dx => by
    rw [integrate_euclidean]
    exact add_toList x dx
  | .revolute, x, dx => by
    simp only [integrate, StateSpace.integrate?, ofList?_take]
    rfl

/-! ## Matrices -/

omit [Scalar α] in
/-- Combines two matrices, which have to be of one shape. -/
def combineMat (f : {m n : Nat} → Mat α m n → Mat α m n → β) (a b : Table α) : Loose ε β := do
  let b ← ofOption (b.toMat? a.rows a.cols)
  return f a.toMat b

omit [Scalar α] in
theorem combineMat_ofMat (f : {m n : Nat} → Mat α m n → Mat α m n → β) (a b : Mat α m n) :
    (combineMat f (.ofMat a) (.ofMat b) : Loose ε β) = .ok (f a b) := by
  show (ofOption ((Table.ofMat b).toMat? m n) >>= fun b => pure (f (Table.ofMat a).toMat b)) = _
  rw [Table.toMat?_ofMat, Table.toMat_ofMat]
  rfl

/-- The image of a vector, which needs as many entries as there are columns. -/
def mulVec (a : Table α) (v : List α) : Loose ε (List α) := do
  let v ← ofOption (Vec.ofList? v)
  return (a.toMat.mulVec v).toList

/-- The product of two matrices. -/
def mul (a b : Table α) : Loose ε (Table α) := do
  let b ← ofOption (b.toMat? a.cols b.cols)
  return .ofMat (a.toMat.mul b)

def addMat (a b : Table α) : Loose ε (Table α) := combineMat (fun a b => .ofMat (a + b)) a b

def subMat (a b : Table α) : Loose ε (Table α) := combineMat (fun a b => .ofMat (a - b)) a b

/-- Ones on the diagonal. -/
def identity (n : Nat) : Table α := .ofMat (.identity n)

/-- The matrix of zeros. -/
def zeroMat (m n : Nat) : Table α := .ofMat (0 : Mat α m n)

/-- The matrix whose entries are given row by row. -/
def ofRows (m n : Nat) (entries : List α) : Loose ε (Table α) :=
  if h : entries.length = m * n then
    .ok ⟨m, n, fun i j => entries.get ⟨i * n + j, by
      have hrow := Nat.mul_le_mul_right n i.isLt
      rw [Nat.succ_mul] at hrow
      omega⟩⟩
  else .error .misuse

/-- Rows and columns exchanged. -/
def transpose (a : Table α) : Table α := .ofMat a.toMat.transpose

/-- Every entry times `s`, from the right. -/
def scaleMat (a : Table α) (s : α) : Table α := .ofMat (a.toMat.scale s)

/-- Adds `s` to every diagonal entry, as far as the diagonal goes. -/
def addDiagonal (a : Table α) (s : α) : Table α :=
  ⟨a.rows, a.cols, fun i j => if (i : Nat) = j then a.entry i j + s else a.entry i j⟩

/-- The entry in row `i` and column `j` replaced. -/
def putEntry (a : Table α) (i j : Nat) (s : α) : Loose ε (Table α) :=
  if i < a.rows ∧ j < a.cols then
    .ok ⟨a.rows, a.cols, fun i' j' => if (i' : Nat) = i ∧ (j' : Nat) = j then s else a.entry i' j'⟩
  else .error .misuse

/-- Column `j` replaced by a vector with an entry for every row. -/
def putColumn (a : Table α) (j : Nat) (v : List α) : Loose ε (Table α) :=
  if h : v.length = a.rows ∧ j < a.cols then
    .ok ⟨a.rows, a.cols, fun i' j' => if (j' : Nat) = j then v.get ⟨i', by omega⟩ else a.entry i' j'⟩
  else .error .misuse

/-- The `m` rows and `n` columns that start in row `i` and column `j`. -/
def block (a : Table α) (i j m n : Nat) : Loose ε (Table α) :=
  if h : i + m ≤ a.rows ∧ j + n ≤ a.cols then
    .ok ⟨m, n, fun i' j' => a.entry ⟨i + i', by omega⟩ ⟨j + j', by omega⟩⟩
  else .error .misuse

@[simp] theorem mulVec_ofMat (a : Mat α m n) (v : Vec α n) :
    (mulVec (.ofMat a) v.toList : Loose ε (List α)) = .ok (a * v).toList := by
  show (ofOption (Vec.ofList? v.toList) >>= fun w : Vec α n =>
    pure ((Table.ofMat a).toMat.mulVec w).toList) = _
  rw [Vec.ofList?_toList, Table.toMat_ofMat]
  rfl

@[simp] theorem mul_ofMat (a : Mat α m k) (b : Mat α k n) :
    (mul (.ofMat a) (.ofMat b) : Loose ε (Table α)) = .ok (.ofMat (a * b)) := by
  show (ofOption ((Table.ofMat b).toMat? k n) >>= fun b =>
    pure (Table.ofMat ((Table.ofMat a).toMat.mul b))) = _
  rw [Table.toMat?_ofMat, Table.toMat_ofMat]
  rfl

@[simp] theorem addMat_ofMat (a b : Mat α m n) :
    (addMat (.ofMat a) (.ofMat b) : Loose ε (Table α)) = .ok (.ofMat (a + b)) :=
  combineMat_ofMat (fun a b => Table.ofMat (a + b)) a b

@[simp] theorem subMat_ofMat (a b : Mat α m n) :
    (subMat (.ofMat a) (.ofMat b) : Loose ε (Table α)) = .ok (.ofMat (a - b)) :=
  combineMat_ofMat (fun a b => Table.ofMat (a - b)) a b

omit [Scalar α] in
@[simp] theorem transpose_ofMat (a : Mat α m n) : transpose (.ofMat a) = .ofMat a.transpose :=
  congrArg (fun b : Mat α m n => Table.ofMat b.transpose) (Table.toMat_ofMat a)

@[simp] theorem scaleMat_ofMat (a : Mat α m n) (s : α) :
    scaleMat (.ofMat a) s = .ofMat (a.scale s) :=
  congrArg (fun b : Mat α m n => Table.ofMat (b.scale s)) (Table.toMat_ofMat a)

@[simp] theorem addDiagonal_ofMat (a : Mat α n n) (s : α) :
    addDiagonal (.ofMat a) s = .ofMat (a.addDiagonal s) := by
  refine congrArg (Table.mk n n) (funext fun i : Fin n => funext fun j : Fin n => ?_)
  show (if (i : Nat) = j then a.get i j + s else a.get i j) = (a.addDiagonal s).get i j
  simp [Fin.ext_iff]

omit [Scalar α] in
theorem ofRows_eq {entries : List α} {a : Mat α m n} (hlength : entries.length = m * n)
    (h : ∀ (i : Fin m) (j : Fin n), entries[(i : Nat) * n + j]? = some (a.get i j)) :
    (ofRows m n entries : Loose ε (Table α)) = .ok (.ofMat a) := by
  rw [ofRows, dif_pos hlength]
  refine congrArg (fun f => Except.ok (Table.mk m n f)) (funext fun i => funext fun j => ?_)
  exact Option.some.inj (List.getElem?_eq_getElem _ ▸ h i j)

end Loose

/-! ## Linear systems -/

namespace CholeskySolver

variable [Scalar α]

theorem factorOf_eq {t : Table α} {a : Mat α t.rows t.rows} (h : t.toMat? t.rows t.rows = some a) :
    factorOf t =
      if a.isFinite then (cholesky a).mapError fun i => .notPositiveDefinite (.pivot i)
      else .error (.numericalInstability .notFinite) := by
  unfold factorOf
  rw [h]
  dsimp only
  cases cholesky a <;> rfl

theorem factorOf_ofMat (a : Mat α n n) :
    factorOf (.ofMat a) =
      if a.isFinite then (cholesky a).mapError fun i => .notPositiveDefinite (.pivot i)
      else .error (.numericalInstability .notFinite) :=
  factorOf_eq (Table.toMat?_ofMat a)

theorem factorize_ofMat (sv : CholeskySolver α) (a : Mat α n n) :
    sv.factorize (.ofMat a) =
      if a.isFinite then match cholesky a with
        | .ok l => (⟨some ⟨n, l⟩, n⟩, .ok ())
        | .error i => ({ sv with factor := none }, .error (.notPositiveDefinite (.pivot i)))
      else ({ sv with factor := none }, .error (.numericalInstability .notFinite)) := by
  unfold factorize
  rw [factorOf_ofMat]
  by_cases hfinite : a.isFinite = true
  · rw [if_pos hfinite, if_pos hfinite]
    cases cholesky a <;> rfl
  · rw [if_neg hfinite, if_neg hfinite]

theorem solve_ofMat (l : Lower α n) (d : Nat) (b : Mat α n k) :
    (⟨some ⟨n, l⟩, d⟩ : CholeskySolver α).solve (.ofMat b) = .ok (.ofMat (l.solve b)) := by
  have h : (Table.ofMat b).toMat? n (Table.ofMat b).cols = some b := Table.toMat?_ofMat b
  unfold solve
  dsimp only
  rw [h]
  rfl

theorem solveVec_toList (l : Lower α n) (d : Nat) (b : Vec α n) :
    (⟨some ⟨n, l⟩, d⟩ : CholeskySolver α).solveVec b.toList = .ok (l.solveVec b).toList := by
  induction b using Vec.induct with
  | h xs =>
    rw [Vec.toList_ofList, solveVec, solve_ofMat]
    refine congrArg Except.ok ?_
    show (Table.ofMat (l.solve (.ofVec (.ofList xs)))).toMat.toLists.flatten = _
    rw [Table.toMat_ofMat]
    exact Mat.flatten_toLists_one _

end CholeskySolver

end Shooting
