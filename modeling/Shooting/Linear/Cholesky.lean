import Shooting.Linear.Mat

/-!
# Cholesky factorization

A symmetric matrix, given by its lower triangle, is factorized into a lower triangular matrix times
its transpose, from the first row to the last: each row is found by elimination with the rows above
it, and its pivot is the root of what is left of the diagonal entry. The factorization stops at the
first row that leaves nothing positive. Products are taken away without being rounded, so that a
singular matrix whose entries are rounded leaves what the rounding is worth.

`Lower α n` grows by one row at a time, so that factorization and substitution are recursions on it.
Entries above the diagonal are never read.

A system is solved with the reciprocals of the pivots: a row is divided by its pivot before the
products with the unknowns are added. Large systems are cut into blocks; what a row owes to unknowns
outside its own block is taken away before that division. Where nothing overflows and nothing
vanishes this is only a matter of the last digits.
-/

namespace Shooting

/-- A lower triangular matrix, row by row: the entries left of the diagonal, then the diagonal. -/
inductive Lower (α : Type) : Nat → Type where
  | empty : Lower α 0
  | border {n : Nat} (above : Lower α n) (row : Vec α n) (pivot : α) : Lower α (n + 1)

/-- Where the unknowns before row `i` of a system of `n` unknowns are cut, for at most `fuel` cuts:
the end of each block that row `i` is outside of. Four unknowns are a block; more are cut in two,
the lower part being about a half, rounded up to a multiple that grows with `n`. -/
def blockEnds : (fuel n i : Nat) → List Nat
  | 0, _, _ => []
  | fuel + 1, n, i =>
    if n ≤ 4 then []
    else
      let multiple := if n < 8 then 1 else if n < 16 then 4 else if n < 32 then 8 else 16
      let lower := (n / 2 + multiple - 1) / multiple * multiple
      let upper := n - lower
      if i < upper then blockEnds fuel upper i
      else upper :: (blockEnds fuel lower (i - upper)).map (upper + ·)

/-- A way to take the products of the entries of two vectors away from a number. -/
abbrev Deduction (α : Type) : Type := {n : Nat} → α → Vec α n → Vec α n → α

namespace Lower

variable {α : Type} [Scalar α]

/-- The unknown of one row, given those above it in `y`. The row's own block starts where the last
of the blocks before it ends. -/
def solveRow {n : Nat} (deduct : Deduction α) (ends : List Nat) (row : Vec α n) (pivot : α)
    (y : Vec α n) (b : α) : α :=
  let reciprocal := 1 / pivot
  let (rest, start) := ends.foldl
    (fun (rest, start) stop =>
      (deduct rest ((row.take stop).drop start) ((y.take stop).drop start), stop))
    (b, 0)
  let term := fun j => -(row.get j * reciprocal) * y.get j
  Fin.foldl n (fun acc j => if j < start then acc else acc + term j) (rest * reciprocal)

/-- Solves `L y = b`, where `L` is the leading block of a system of `size` unknowns. -/
def forwardSubst (deduct : Deduction α) (size : Nat) : {n : Nat} → Lower α n → Vec α n → Vec α n
  | 0, empty, b => b
  | n + 1, border above row pivot, b =>
    let y := above.forwardSubst deduct size b.init
    y.snoc (solveRow deduct (blockEnds size size n) row pivot y b.last)

/-- The lower triangle of a matrix. -/
def ofMat : {n : Nat} → Mat α n n → Lower α n
  | 0, _ => empty
  | n + 1, a =>
    border (ofMat a.leading) (a.row (Fin.last n)).init (a.get (Fin.last n) (Fin.last n))

/-- The matrix itself. -/
def toMat : {n : Nat} → Lower α n → Mat α n n
  | 0, empty => 0
  | n + 1, border above row pivot =>
    let corner := above.toMat
    .ofFn fun i j =>
      if hi : i < n then
        if hj : j < n then corner.get ⟨i, hi⟩ ⟨j, hj⟩ else 0
      else if hj : j < n then row.get ⟨j, hj⟩ else pivot

/-- Solves `L Lᵀ x = b`, where `l'` is `l` reflected in its other diagonal. The rows of `Lᵀ` from
the last to the first, read from right to left, are that lower triangular matrix. -/
def solveWith {n : Nat} (down up : Deduction α) (l l' : Lower α n) (b : Vec α n) : Vec α n :=
  (l'.forwardSubst up n (l.forwardSubst down n b).reverse).reverse

/-- Solves `L Lᵀ X = B`, column by column. What a row owes to another block is taken away product by
product if there is a single column, and only on the way down; otherwise it is summed first. The
sums on the way up run in the order of the rows of `L`, although these are solved in reverse. -/
def solve {n k : Nat} (l : Lower α n) (b : Mat α n k) : Mat α n k :=
  let l' := ofMat l.toMat.antitranspose
  .ofCols fun j =>
    if k = 1 then
      solveWith Vec.takeProducts (fun a v w => a - v.reverse.dotFusedByFour w.reverse) l l'
        (b.col j)
    else
      solveWith (fun a v w => a - v.dotFused w) (fun a v w => a - v.reverse.dotFused w.reverse)
        l l' (b.col j)

/-- Solves `L Lᵀ x = b`. -/
def solveVec {n : Nat} (l : Lower α n) (b : Vec α n) : Vec α n := (l.solve (.ofVec b)).col 0

/-- The row of the factor that belongs to a row of the matrix left of the diagonal. Entries are
divided by the pivots as multiplication by the given reciprocals. -/
def eliminate : {n : Nat} → Lower α n → (reciprocals : Vec α n) → Vec α n → Vec α n
  | 0, empty, _, a => a
  | _ + 1, border above row _, reciprocals, a =>
    let y := above.eliminate reciprocals.init a.init
    y.snoc (Vec.takeProducts a.last row y * reciprocals.last)

end Lower

/-- The factor of a symmetric matrix with the reciprocals of its pivots, or the index of the first
row that leaves nothing positive. A pivot is what is left of the diagonal entry, divided by its
root like the rest of its column. -/
def choleskyWithReciprocals {α : Type} [Scalar α] :
    {n : Nat} → Mat α n n → Except Nat (Lower α n × Vec α n)
  | 0, _ => .ok (.empty, 0)
  | n + 1, a => do
    let (above, reciprocals) ← choleskyWithReciprocals a.leading
    let row := above.eliminate reciprocals (a.row (Fin.last n)).init
    let rest := Vec.takeProducts (a.get (Fin.last n) (Fin.last n)) row row
    if 0 < rest then
      let reciprocal := 1 / Scalar.sqrt rest
      .ok (.border above row (rest * reciprocal), reciprocals.snoc reciprocal)
    else .error n

/-- The factor of a symmetric matrix, or the index of the first row that leaves nothing positive. -/
def cholesky {α : Type} [Scalar α] {n : Nat} (a : Mat α n n) : Except Nat (Lower α n) :=
  (choleskyWithReciprocals a).map (·.1)

/-- Whether a matrix is symmetric and has a Cholesky factor. -/
def Mat.isPositiveDefinite {α : Type} [Scalar α] {n : Nat} (a : Mat α n n) : Bool :=
  ((List.finRange n).all fun i => (List.finRange n).all fun j => a.get i j == a.get j i) &&
    (cholesky a).isOk

end Shooting
