import Shooting.Error.Basic
import Shooting.Linear.SingularValues

/-!
# Pseudo-inverse

The pseudo-inverse of `Σ σᵢ uᵢ vᵢᵀ` is `Σ (1/σᵢ) vᵢ uᵢᵀ` over the singular values above a threshold.
The matrix is divided by its largest entry before its singular values are found. A matrix without
rows or columns has no pseudo-inverse.

Whoever needs a pseudo-inverse takes it from a `PseudoInverting` arithmetic, whose routine may be
any. Doubles have the one by singular values.
-/

namespace Shooting

/-- A singular value with its unit vectors. -/
structure SingularTriple (α : Type) (m n : Nat) where
  value : α
  left : Vec α m
  right : Vec α n

/-- The triple of the transposed matrix. -/
def SingularTriple.swap {α : Type} {m n : Nat} (t : SingularTriple α m n) : SingularTriple α n m :=
  ⟨t.value, t.right, t.left⟩

namespace Mat

variable {α : Type} [Scalar α] {m n : Nat}

/-- The singular values of a matrix with no more columns than rows, in no particular order. Its
columns and its rows are reflected by inner products of their own. -/
def tallTriples (inColumns inRows : InnerProduct α) (a : Mat α m n) :
    List (SingularTriple α m n) :=
  let top := a.maxAbs
  let unit := if top == 0 then 1 else top
  let scaled : Mat α m n := .ofFn fun i j => a.get i j / unit
  let b := (Bidiagonal.ofMat inColumns inRows scaled).diagonalize
  (List.finRange n).map fun i =>
    let σ := b.diag.get i * top
    if σ < 0 then ⟨-σ, -b.left.row i, b.right.row i⟩ else ⟨σ, b.left.row i, b.right.row i⟩

/-- The singular values of a matrix, in no particular order. Whatever its shape, inner products run
in eight sums along columns and in order along rows. -/
def singularTriples (a : Mat α m n) : List (SingularTriple α m n) :=
  if n ≤ m then a.tallTriples Vec.dot Vec.dotInOrder
  else (a.transpose.tallTriples Vec.dotInOrder Vec.dot).map .swap

/-- The pseudo-inverse, if there is one; singular values up to `threshold` count as zero. -/
def pseudoInverse? (a : Mat α m n) (threshold : α) : Option (Mat α n m) :=
  match a.singularTriples with
  | [] => none
  | triples =>
    let weight := fun (σ : α) => if threshold < σ then 1 / σ else 0
    let left : Mat α m triples.length :=
      .ofCols fun i => (triples.get i).left.scale (weight (triples.get i).value)
    let right : Mat α triples.length n := .ofFn fun i j => (triples.get i).right.get j
    some (left * right).transpose

end Mat

/-- An arithmetic with a routine for pseudo-inverses. Nothing is said about what it finds. -/
class PseudoInverting (α : Type) where
  /-- The pseudo-inverse of a matrix, singular values up to the threshold counting as zero, or the
  reason why there is none. `misuse` stands for a search that does not come back. -/
  pseudoInverse {m n : Nat} (a : Mat α m n) (threshold : α) : Except (Refusal String) (Mat α n m)

/-- The routine by singular values. -/
@[reducible]
def PseudoInverting.bySingularValues {α : Type} [Scalar α] : PseudoInverting α where
  pseudoInverse a threshold :=
    match a.pseudoInverse? threshold with
    | some inverse => .ok inverse
    | none => .error .misuse

theorem PseudoInverting.bySingularValues_eq_ok {α : Type} [Scalar α] {m n : Nat} {a : Mat α m n}
    {threshold : α} {inverse : Mat α n m} (h : a.pseudoInverse? threshold = some inverse) :
    bySingularValues.pseudoInverse a threshold = .ok inverse := by
  unfold bySingularValues
  dsimp only
  rw [h]

instance : PseudoInverting Float := .bySingularValues

end Shooting
