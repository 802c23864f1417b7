import Shooting.Linear.PlaneRotation

/-!
# Bidiagonal form

Every matrix `A` with no more columns than rows is `L B R`, where the columns of `L` and the rows of
`R` are orthonormal and `B` has entries on the diagonal and just above it only. Reflections find
these factors: for each index one that clears the column of the matrix below the diagonal, and one
that clears the row right of the entry above the diagonal.

A reflection is applied with the sign that leaves a positive entry, so that `B` starts out without
negative entries.
-/

namespace Shooting

/-- A reflection of the coordinates from number `start` on in the plane orthogonal to `axis`. -/
structure Reflection (α : Type) (n : Nat) where
  start : Nat
  axis : Vec α (n - start)
  /-- What the first of these coordinates becomes; all others become zero. -/
  head : α

namespace Reflection

variable {α : Type} [Scalar α] {n : Nat}

/-- The reflection that leaves `v` only one coordinate from number `start` on. Coordinates whose
squares all vanish count as zero and give a reflection without an axis. -/
def clearing (start : Nat) (v : Vec α n) : Reflection α n :=
  let v := v.drop start
  let square := v.normSq
  let length := Scalar.sqrt square
  let first := v.entry 0
  let head := Scalar.sign first * length
  -- the square of the length of the axis before it is normalized
  let factor := (square + Scalar.abs first * length) * 2.0
  if factor == 0 then ⟨start, 0, head⟩
  else
    let axis := (v.put 0 (first + head)).map (· / Scalar.sqrt factor)
    -- dividing once more mends the length where `factor` was too small to be accurate
    let length := axis.norm
    ⟨start, axis.map (· / length), -head⟩

/-- The image of a vector, with the sign that makes the head positive. -/
def apply (dot : InnerProduct α) (r : Reflection α n) (v : Vec α n) : Vec α n :=
  if r.axis.normSq == 0 then v
  else
    let sign := Scalar.sign r.head
    let along := dot r.axis (v.drop r.start) * (-(2.0 * sign))
    .ofFn fun i =>
      if i < r.start then v.get i else along * r.axis.entry (i - r.start) + sign * v.get i

end Reflection

/-- The matrix `Σ diagᵢ leftᵢᵀ rightᵢ + Σ linkᵢ leftᵢᵀ rightᵢ₊₁`, where `leftᵢ` and `rightᵢ` are
rows. The last link stands for nothing. -/
structure Bidiagonal (α : Type) (m n : Nat) where
  diag : Vec α n
  link : Vec α n
  left : Mat α n m
  right : Mat α n n

namespace Bidiagonal

variable {α : Type} [Scalar α] {m n : Nat}

/-- The reflections that bring a matrix into bidiagonal form: for each index the one of its column
and the one of its row. -/
def reflections (inColumns inRows : InnerProduct α) (a : Mat α m n) :
    List (Reflection α m × Reflection α n) :=
  let step := fun (state : Mat α m n × List (Reflection α m × Reflection α n)) (i : Fin n) =>
    let (a, done) := state
    let byColumn := Reflection.clearing i (a.col i)
    let a := (a.transpose.mapRows (byColumn.apply inColumns)).transpose
    let byRow := Reflection.clearing (i + 1) (.ofFn fun j => (a.col j).entry i)
    (a.mapRows (byRow.apply inRows), done ++ [(byColumn, byRow)])
  ((List.finRange n).foldl step (a, [])).2

/-- The bidiagonal form of a matrix with no more columns than rows. Columns and rows are reflected
by inner products of their own. -/
def ofMat (inColumns inRows : InnerProduct α) (a : Mat α m n) : Bidiagonal α m n :=
  let rs := reflections inColumns inRows a
  let entries := fun (heads : List α) => .ofFn fun i : Fin n => Scalar.abs (heads.getD i 0)
  { diag := entries (rs.map (·.1.head))
    link := entries (rs.map (·.2.head))
    left := rs.foldr (fun r q => q.mapRows (r.1.apply inColumns))
      (.ofFn fun i j => if i.val = j then 1 else 0)
    right := rs.foldr (fun r q => q.mapRows (r.2.apply inRows)) (.identity n) }

end Bidiagonal

end Shooting
