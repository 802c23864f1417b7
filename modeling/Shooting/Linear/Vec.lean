import Shooting.Scalar

/-!
# Vectors of known size

`Vec α n` holds `n` scalars. Its one view is `get`; every operation is `ofFn` of a formula in
`get`, and `get_ofFn` with `ext` is all that a proof about vectors needs.

Lists become vectors through `ofList?`, which succeeds exactly when the length is right and forgets
nothing (`ofList?_isSome_iff`, `ofList?_eq_some_iff`).
-/

namespace Shooting

/-- A vector of `n` scalars. -/
structure Vec (α : Type) (n : Nat) where
  entries : Vector α n
  deriving DecidableEq, Repr

namespace Vec

variable {α β : Type} {n : Nat}

/-- Vectors of this many scalars or more cannot be set aside: eight bytes each would fill half of a
64-bit address space. -/
def sizeLimit : Nat := Nat.pow 2 60

/-- The entry at `i`. -/
def get (v : Vec α n) (i : Fin n) : α := v.entries[i]

/-- The vector with the given entries. -/
def ofFn (f : Fin n → α) : Vec α n := ⟨Vector.ofFn f⟩

@[simp] theorem get_ofFn (f : Fin n → α) (i : Fin n) : (ofFn f).get i = f i := by
  simp [get, ofFn]

@[ext] theorem ext {v w : Vec α n} (h : ∀ i, v.get i = w.get i) : v = w := by
  obtain ⟨v⟩ := v
  obtain ⟨w⟩ := w
  congr 1
  exact Vector.ext fun i hi => h ⟨i, hi⟩

@[simp] theorem ofFn_get (v : Vec α n) : ofFn v.get = v := by ext; simp

/-- The entries in order. -/
def toList (v : Vec α n) : List α := v.entries.toList

/-- A list as a vector of its own length. -/
def ofList (xs : List α) : Vec α xs.length := ⟨⟨xs.toArray, by simp⟩⟩

/-- A list of exactly `n` entries as a vector. -/
def ofList? (xs : List α) : Option (Vec α n) :=
  if h : xs.length = n then some ⟨⟨xs.toArray, by simpa using h⟩⟩ else none

@[simp] theorem length_toList (v : Vec α n) : v.toList.length = n := by simp [toList]

@[simp] theorem toList_ofList (xs : List α) : (ofList xs).toList = xs := by simp [toList, ofList]

@[simp] theorem ofList?_toList (v : Vec α n) : ofList? v.toList = some v := by
  obtain ⟨⟨entries, h⟩⟩ := v
  simp [ofList?, toList, h]

theorem ofList?_isSome_iff (xs : List α) :
    (ofList? xs : Option (Vec α n)).isSome ↔ xs.length = n := by
  unfold ofList?
  split <;> simp_all

theorem ofList?_eq_some_iff {xs : List α} {v : Vec α n} : ofList? xs = some v ↔ v.toList = xs := by
  refine ⟨fun h => ?_, fun h => h ▸ ofList?_toList v⟩
  unfold ofList? at h
  split at h
  · cases h; simp [toList]
  · simp at h

/-- The vector that repeats one value. -/
def replicate (n : Nat) (a : α) : Vec α n := ofFn fun _ => a

@[simp] theorem get_replicate (a : α) (i : Fin n) : (replicate n a).get i = a := by
  simp [replicate]

/-- Applies `f` to every entry. -/
def map (f : α → β) (v : Vec α n) : Vec β n := ofFn fun i => f (v.get i)

@[simp] theorem get_map (f : α → β) (v : Vec α n) (i : Fin n) : (v.map f).get i = f (v.get i) := by
  simp [map]

/-- All entries but the last. -/
def init (v : Vec α (n + 1)) : Vec α n := ofFn fun i => v.get i.castSucc

/-- The last entry. -/
def last (v : Vec α (n + 1)) : α := v.get (Fin.last n)

/-- One more entry at the end. -/
def snoc (v : Vec α n) (a : α) : Vec α (n + 1) :=
  ofFn fun i => if h : i < n then v.get ⟨i, h⟩ else a

@[simp] theorem get_init (v : Vec α (n + 1)) (i : Fin n) : v.init.get i = v.get i.castSucc := by
  simp [init]

@[simp] theorem get_snoc_castSucc (v : Vec α n) (a : α) (i : Fin n) :
    (v.snoc a).get i.castSucc = v.get i := by
  simp [snoc]

@[simp] theorem get_snoc_last (v : Vec α n) (a : α) : (v.snoc a).get (Fin.last n) = a := by
  simp [snoc]

/-- The entries in reverse order. -/
def reverse (v : Vec α n) : Vec α n := ofFn fun i => v.get i.rev

@[simp] theorem get_reverse (v : Vec α n) (i : Fin n) : v.reverse.get i = v.get i.rev := by
  simp [reverse]

/-- The vector with the entry number `i` replaced, if there is one. -/
def put (v : Vec α n) (i : Nat) (a : α) : Vec α n := ofFn fun k => if k = i then a else v.get k

@[simp] theorem get_put (v : Vec α n) (i : Nat) (a : α) (k : Fin n) :
    (v.put i a).get k = if k = i then a else v.get k := by
  simp [put]

/-- The entries from number `k` on. -/
def drop (v : Vec α n) (k : Nat) : Vec α (n - k) := ofFn fun i => v.get ⟨k + i, by omega⟩

@[simp] theorem get_drop (v : Vec α n) (k : Nat) (i : Fin (n - k)) :
    (v.drop k).get i = v.get ⟨k + i, by omega⟩ := by
  simp [drop]

/-- The first `k` entries, or all if there are fewer. -/
def take (v : Vec α n) (k : Nat) : Vec α (min k n) := ofFn fun i => v.get ⟨i, by omega⟩

@[simp] theorem get_take (v : Vec α n) (k : Nat) (i : Fin (min k n)) :
    (v.take k).get i = v.get ⟨i, by omega⟩ := by
  simp [take]

/-- Whether every entry passes the test. -/
def all (p : α → Bool) (v : Vec α n) : Bool := v.toList.all p

variable [Scalar α]

instance : Zero (Vec α n) := ⟨replicate n 0⟩
instance : Add (Vec α n) := ⟨fun v w => ofFn fun i => v.get i + w.get i⟩
instance : Sub (Vec α n) := ⟨fun v w => ofFn fun i => v.get i - w.get i⟩
instance : Neg (Vec α n) := ⟨fun v => v.map (- ·)⟩

/-- Every entry times `a`, from the right. -/
def scale (v : Vec α n) (a : α) : Vec α n := v.map (· * a)

@[simp] theorem get_zero (i : Fin n) : (0 : Vec α n).get i = 0 := get_replicate 0 i
@[simp] theorem get_add (v w : Vec α n) (i : Fin n) : (v + w).get i = v.get i + w.get i :=
  get_ofFn _ i
@[simp] theorem get_sub (v w : Vec α n) (i : Fin n) : (v - w).get i = v.get i - w.get i :=
  get_ofFn _ i
@[simp] theorem get_neg (v : Vec α n) (i : Fin n) : (-v).get i = -v.get i := get_map _ v i
@[simp] theorem get_scale (v : Vec α n) (a : α) (i : Fin n) : (v.scale a).get i = v.get i * a :=
  get_map _ v i

/-- The entry number `i`, zero if there is none. -/
def entry (v : Vec α n) (i : Nat) : α := if h : i < n then v.get ⟨i, h⟩ else 0

@[simp] theorem entry_val (v : Vec α n) (i : Fin n) : v.entry i = v.get i := by simp [entry]

/-- The vector that is `a` at `i` and zero elsewhere. -/
def single (i : Fin n) (a : α) : Vec α n := ofFn fun k => if k = i then a else 0

@[simp] theorem get_single (i k : Fin n) (a : α) :
    (single i a).get k = if k = i then a else 0 := by
  simp [single]

/-- Whether every entry is an ordinary number. -/
def isFinite (v : Vec α n) : Bool := v.all Scalar.isFinite

end Vec

end Shooting
