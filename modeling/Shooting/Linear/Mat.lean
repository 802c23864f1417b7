import Shooting.Linear.InnerProduct

/-!
# Matrices of known shape

`Mat α m n` has `m` rows and `n` columns; a shape with no rows or no columns is a shape like any
other. As for vectors there is one view, `get`, and every operation is `ofFn` of a formula in it.
An entry of a product is a sum along the inner index from first to last. Products of matrices with
more than five rows and columns throughout do not round its terms.
-/

namespace Shooting

/-- A matrix with `m` rows and `n` columns. -/
structure Mat (α : Type) (m n : Nat) where
  rows : Vec (Vec α n) m
  deriving DecidableEq, Repr

namespace Mat

variable {α : Type} {k m n : Nat}

/-- The entry in row `i` and column `j`. -/
def get (a : Mat α m n) (i : Fin m) (j : Fin n) : α := (a.rows.get i).get j

/-- The matrix with the given entries. -/
def ofFn (f : Fin m → Fin n → α) : Mat α m n := ⟨Vec.ofFn fun i => Vec.ofFn (f i)⟩

@[simp] theorem get_ofFn (f : Fin m → Fin n → α) (i : Fin m) (j : Fin n) :
    (ofFn f).get i j = f i j := by
  simp [get, ofFn]

@[ext] theorem ext {a b : Mat α m n} (h : ∀ i j, a.get i j = b.get i j) : a = b := by
  obtain ⟨a⟩ := a
  obtain ⟨b⟩ := b
  congr 1
  ext i j
  exact h i j

/-- Row `i`. -/
def row (a : Mat α m n) (i : Fin m) : Vec α n := a.rows.get i

/-- The matrix with `f` applied to every row. -/
def mapRows (f : Vec α n → Vec α k) (a : Mat α m n) : Mat α m k := ⟨a.rows.map f⟩

@[simp] theorem get_mapRows (f : Vec α n → Vec α k) (a : Mat α m n) (i : Fin m) (j : Fin k) :
    (a.mapRows f).get i j = (f (a.row i)).get j := by
  simp [mapRows, get, row]

/-- Column `j`. -/
def col (a : Mat α m n) (j : Fin n) : Vec α m := Vec.ofFn fun i => a.get i j

/-- The matrix with the given columns. -/
def ofCols (f : Fin n → Vec α m) : Mat α m n := ofFn fun i j => (f j).get i

/-- Rows and columns exchanged. -/
def transpose (a : Mat α m n) : Mat α n m := ofFn fun i j => a.get j i

@[simp] theorem get_transpose (a : Mat α m n) (i : Fin n) (j : Fin m) :
    a.transpose.get i j = a.get j i := by
  simp [transpose]

/-- The rows in order, each as the list of its entries. -/
def toLists (a : Mat α m n) : List (List α) := a.rows.toList.map Vec.toList

/-- The leading block: all but the last row and column. -/
def leading (a : Mat α (n + 1) (n + 1)) : Mat α n n := ofFn fun i j => a.get i.castSucc j.castSucc

@[simp] theorem get_leading (a : Mat α (n + 1) (n + 1)) (i j : Fin n) :
    a.leading.get i j = a.get i.castSucc j.castSucc := by
  simp [leading]

/-- The vector as a matrix of one column. -/
def ofVec (v : Vec α n) : Mat α n 1 := ofFn fun i _ => v.get i

/-- The matrix turned by half a turn and transposed: reflected in its other diagonal. -/
def antitranspose (a : Mat α n n) : Mat α n n := ofFn fun i j => a.get j.rev i.rev

@[simp] theorem get_antitranspose (a : Mat α n n) (i j : Fin n) :
    a.antitranspose.get i j = a.get j.rev i.rev := get_ofFn _ i j

variable [Scalar α]

instance : Zero (Mat α m n) := ⟨ofFn fun _ _ => 0⟩
instance : Add (Mat α m n) := ⟨fun a b => ofFn fun i j => a.get i j + b.get i j⟩
instance : Sub (Mat α m n) := ⟨fun a b => ofFn fun i j => a.get i j - b.get i j⟩
instance : Neg (Mat α m n) := ⟨fun a => ofFn fun i j => -a.get i j⟩

@[simp] theorem get_zero (i : Fin m) (j : Fin n) : (0 : Mat α m n).get i j = 0 := get_ofFn _ i j
@[simp] theorem get_add (a b : Mat α m n) (i : Fin m) (j : Fin n) :
    (a + b).get i j = a.get i j + b.get i j := get_ofFn _ i j
@[simp] theorem get_sub (a b : Mat α m n) (i : Fin m) (j : Fin n) :
    (a - b).get i j = a.get i j - b.get i j := get_ofFn _ i j
@[simp] theorem get_neg (a : Mat α m n) (i : Fin m) (j : Fin n) :
    (-a).get i j = -a.get i j := get_ofFn _ i j

/-- Every entry times `s`, from the right. -/
def scale (a : Mat α m n) (s : α) : Mat α m n := ofFn fun i j => a.get i j * s

@[simp] theorem get_scale (a : Mat α m n) (s : α) (i : Fin m) (j : Fin n) :
    (a.scale s).get i j = a.get i j * s := get_ofFn _ i j

/-- Ones on the diagonal. -/
def identity (n : Nat) : Mat α n n := ofFn fun i j => if i = j then 1 else 0

@[simp] theorem get_identity (i j : Fin n) :
    (identity n : Mat α n n).get i j = if i = j then 1 else 0 := get_ofFn _ i j

/-- The given entries on the diagonal. -/
def diagonal (v : Vec α n) : Mat α n n := ofFn fun i j => if i = j then v.get i else 0

@[simp] theorem get_diagonal (v : Vec α n) (i j : Fin n) :
    (diagonal v).get i j = if i = j then v.get i else 0 := get_ofFn _ i j

/-- The product of two matrices. -/
def mul (a : Mat α m k) (b : Mat α k n) : Mat α m n :=
  ofFn fun i j =>
    if 5 < m ∧ 5 < k ∧ 5 < n then (a.row i).dotFused (b.col j) else (a.row i).dotInOrder (b.col j)

instance : HMul (Mat α m k) (Mat α k n) (Mat α m n) := ⟨mul⟩

theorem get_mul (a : Mat α m k) (b : Mat α k n) (i : Fin m) (j : Fin n) :
    (a * b).get i j =
      if 5 < m ∧ 5 < k ∧ 5 < n then (a.row i).dotFused (b.col j)
      else (a.row i).dotInOrder (b.col j) :=
  get_ofFn _ i j

/-- The image of a vector. -/
def mulVec (a : Mat α m n) (v : Vec α n) : Vec α m := Vec.ofFn fun i => (a.row i).dotInOrder v

instance : HMul (Mat α m n) (Vec α n) (Vec α m) := ⟨mulVec⟩

theorem get_mulVec (a : Mat α m n) (v : Vec α n) (i : Fin m) :
    (a * v).get i = (a.row i).dotInOrder v := Vec.get_ofFn _ i

/-- Adds `s` to every diagonal entry. -/
def addDiagonal (a : Mat α n n) (s : α) : Mat α n n :=
  ofFn fun i j => if i = j then a.get i j + s else a.get i j

@[simp] theorem get_addDiagonal (a : Mat α n n) (s : α) (i j : Fin n) :
    (a.addDiagonal s).get i j = if i = j then a.get i j + s else a.get i j := get_ofFn _ i j

/-- The mean of a square matrix and its transpose. -/
def symmetrized (a : Mat α n n) : Mat α n n := (a + a.transpose).scale 0.5

/-- The largest distance of an entry from zero. -/
def maxAbs (a : Mat α m n) : α :=
  a.toLists.flatten.foldl (fun acc x => Scalar.max acc (Scalar.abs x)) 0

/-- Whether every entry is an ordinary number. -/
def isFinite (a : Mat α m n) : Bool := a.rows.all fun r => r.isFinite

end Mat

end Shooting
