import Shooting.Linear.Bidiagonal

/-!
# Singular values

The singular values of a matrix, with the orthonormal vectors that belong to them, by sweeps of
rotations over its bidiagonal form. A sweep moves a disturbance down the two diagonals, and it is
started so that the last link shrinks fastest. Links that have become negligible fall away, the form
breaks into blocks, and each block is finished from its end: two values are found at once by a
formula, and a block of one is done.

What is negligible is measured in rounding errors of numbers of the size of one, so the matrix has
to be scaled to that size first. The number of sweeps is bounded; finite matrices need a few for
each value.
-/

namespace Shooting

namespace Bidiagonal

variable {α : Type} [Scalar α] {m n : Nat}

/-- Five units in the last place of one. -/
def tolerance : α := 5.0 * 2.220446049250313e-16

/-- Whether link `i` is negligible beside its neighbours on the diagonal. -/
def isLoose (b : Bidiagonal α m n) (i : Nat) : Bool :=
  Scalar.abs (b.link.entry i) ≤
    tolerance * (Scalar.abs (b.diag.entry (i + 1)) + Scalar.abs (b.diag.entry i))

/-- Whether diagonal entry `i` is negligible. -/
def isVanishing (b : Bidiagonal α m n) (i : Nat) : Bool :=
  Scalar.abs (b.diag.entry i) ≤ tolerance

/-- The form without link `i`. -/
def unlink (b : Bidiagonal α m n) (i : Nat) : Bidiagonal α m n := { b with link := b.link.put i 0 }

/-- Rotates the entry `x` that is left in row `i` above diagonal entry `k + 1`, which is `y`, into
the next column, and so on for `remaining` columns. -/
def pushRight (i : Nat) : (remaining k : Nat) → (x y : α) → Bidiagonal α m n → Bidiagonal α m n
  | 0, _, _, _, b => b
  | rest + 1, k, x, y, b =>
    match PlaneRotation.cancelFirst? x y with
    | none => b
    | some (r, length) =>
      let b := { b with
        diag := b.diag.put (k + 1) length
        left := b.left.rotateRows r i (k + 1) }
      if rest = 0 then b
      else
        let f := b.link.entry (k + 1)
        pushRight i rest (k + 1) (-r.s * f) (b.diag.entry (k + 2))
          { b with link := b.link.put (k + 1) (f * r.c) }

/-- Rotates the entry `y` that is left in column `i + 1` beside diagonal entry `k`, which is `x`,
into the row above, and so on up to the first row. -/
def pushUp (i : Nat) : (k : Nat) → (x y : α) → Bidiagonal α m n → Bidiagonal α m n
  | k, x, y, b =>
    match PlaneRotation.cancelSecond? x y with
    | none => b
    | some (r, length) =>
      let b := { b with
        diag := b.diag.put k length
        right := b.right.rotateRows r k (i + 1) }
      match k with
      | 0 => b
      | k + 1 =>
        let f := b.link.entry k
        pushUp i k (b.diag.entry k) (r.s * f) { b with link := b.link.put k (f * r.c) }

/-- Removes link `i` by rotations of columns. -/
def clearAbove (b : Bidiagonal α m n) (i : Nat) : Bidiagonal α m n :=
  (b.unlink i).pushUp i i (b.diag.entry i) (b.link.entry i)

/-- Sets diagonal entry `i` to zero and removes the links in its row and its column, in a block that
ends at `last`. -/
def split (b : Bidiagonal α m n) (i last : Nat) : Bidiagonal α m n :=
  let b := { b with diag := b.diag.put i 0 }
  let b := (b.unlink i).pushRight i (last - i) i (b.link.entry i) (b.diag.entry (i + 1))
  if i = 0 then b else b.clearAbove (i - 1)

/-- Removes links from the end for as long as that is possible. The number is the last index of what
remains to be done; zero if nothing does. -/
def trimEnd : Nat → Bidiagonal α m n → Bidiagonal α m n × Nat
  | 0, b => (b, 0)
  | i + 1, b =>
    if b.isLoose i then trimEnd i (b.unlink i)
    else if b.isVanishing i then trimEnd i (b.split i (i + 1))
    else if b.isVanishing (i + 1) then
      trimEnd i ({ b with diag := b.diag.put (i + 1) 0 }.clearAbove i)
    else (b, i + 1)

/-- Finds the start of the block that ends at `last`, at the given index or before. -/
def blockStart (last : Nat) : Nat → Bidiagonal α m n → Bidiagonal α m n × Nat
  | 0, b => (b, 0)
  | i + 1, b =>
    if b.isLoose i then (b.unlink i, i + 1)
    else if b.isVanishing i then (b.split i last, i + 1)
    else blockStart last i b

/-- The eigenvalue nearer to `q` of the symmetric matrix with `p` and `q` on its diagonal and `r`
beside them. -/
def nearerEigenvalue (p q r : α) : α :=
  let square := r * r
  if square == 0 then q
  else
    let d := (p - q) * 0.5
    q - square / (d + Scalar.sign d * Scalar.sqrt (d * d + square))

/-- Moves a disturbance down from index `k`, with `remaining` links ahead of it. `x` and `y` are the
entries that the next rotation of columns has to merge; before the first they only set its angle. -/
def sweepFrom (first : Bool) : (remaining k : Nat) → (x y : α) → Bidiagonal α m n → Bidiagonal α m n
  | 0, _, _, _, b => b
  | rest + 1, k, x, y, b =>
    match PlaneRotation.cancelSecond? x y with
    | none => b
    | some (byColumn, length) =>
      let d := b.diag.entry k
      let f := b.link.entry k
      let d' := b.diag.entry (k + 1)
      let f' := if rest = 0 then 0 else b.link.entry (k + 1)
      let b := if first then b else { b with link := b.link.put (k - 1) length }
      let (d, f) := byColumn.apply d f
      let (below, d') := byColumn.apply 0 d'
      let (byRow, d) := (PlaneRotation.cancelSecond? d below).getD (.identity, d)
      let (f, d') := byRow.apply f d'
      let (beside, f') := byRow.apply 0 f'
      sweepFrom false rest (k + 1) f beside
        { diag := (b.diag.put k d).put (k + 1) d'
          link := if rest = 0 then b.link.put k f else (b.link.put k f).put (k + 1) f'
          left := b.left.rotateRows byRow k (k + 1)
          right := b.right.rotateRows byColumn k (k + 1) }

/-- A sweep over the block from `start` to `last`. -/
def sweep (b : Bidiagonal α m n) (start last : Nat) : Bidiagonal α m n :=
  let d := b.diag.entry (last - 1)
  let e := b.diag.entry last
  let f := b.link.entry (last - 1)
  let g := b.link.entry (last - 2)
  let shift := nearerEigenvalue (d * d + g * g) (e * e + f * f) (d * f)
  let top := b.diag.entry start
  b.sweepFrom true (last - start) start (top * top - shift) (top * b.link.entry start)

/-- Finishes a block of two. -/
def solvePair (b : Bidiagonal α m n) (i : Nat) : Bidiagonal α m n :=
  let p := b.diag.entry i
  let f := b.link.entry i
  let q := b.diag.entry (i + 1)
  let total := Scalar.hypot (p + q) f + Scalar.hypot (p - q) f
  -- the value nearer to `q` first: its difference from `p` loses no digits below
  let near := p * q * 2.0 / total
  let far := 0.5 * total
  let (byColumn, scale) := PlaneRotation.fromAxis (p * f) (near * near - p * p)
  let near := near * scale
  let far := far * scale
  let (byRow, scale) :=
    PlaneRotation.fromAxis ((p * byColumn.c + f * byColumn.s) / near) (q * byColumn.s / near)
  { diag := (b.diag.put i (near * scale)).put (i + 1) (far * scale)
    link := b.link.put i 0
    left := b.left.rotateRows byRow.inverse i (i + 1)
    right := b.right.rotateRows byColumn.inverse i (i + 1) }

/-- Removes all links up to `last`, by at most the given number of sweeps. -/
def diagonalizeTo : (sweeps last : Nat) → Bidiagonal α m n → Bidiagonal α m n
  | 0, _, b => b
  | rest + 1, last, b =>
    match b.trimEnd last with
    | (b, 0) => b
    | (b, last + 1) =>
      let (b, start) := b.blockStart (last + 1) last
      if start = last then diagonalizeTo rest last (b.solvePair start)
      else diagonalizeTo rest (last + 1) (b.sweep start (last + 1))

/-- The form without links: what is left on the diagonal are the singular values but for sign and
order. -/
def diagonalize (b : Bidiagonal α m n) : Bidiagonal α m n := b.diagonalizeTo (100 * n) (n - 1)

end Bidiagonal

end Shooting
