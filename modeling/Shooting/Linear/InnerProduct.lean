import Shooting.Linear.Vec

/-!
# Inner products

A floating-point sum depends on the order of its terms, and on whether products are rounded before
they are added. So there are several inner products; they are one where nothing is rounded.

* `dotInOrder` adds the products from the first to the last.
* `dot` runs eight sums side by side, and `norm` is its root. With fewer than eight entries it is
  `dotInOrder`.
* `dotFused` is `dotInOrder` without the rounding of products, and `takeProducts` takes away what
  `dotFused` adds.
* `dotFusedByFour` runs four sums of products that are not rounded.
-/

namespace Shooting

/-- A way to compute inner products. -/
abbrev InnerProduct (α : Type) : Type := {n : Nat} → Vec α n → Vec α n → α

namespace Vec

variable {α : Type} [Scalar α] {n : Nat}

/-- The inner product, summed from the first entry to the last. -/
def dotInOrder (v w : Vec α n) : α := Scalar.sum fun i => v.get i * w.get i

/-- The sum over the entries number `r`, `r + width`, `r + 2 width`, …, `count` of them, where `add`
adds the product of two entries to a sum. Entries past the end count as zero. -/
def lane (add : α → α → α → α) (width count : Nat) (v w : Vec α n) (r : Nat) : α :=
  Fin.foldl count (fun acc q => add (v.entry (width * q + r)) (w.entry (width * q + r)) acc) 0

/-- The inner product. Of eight entries or more, whole groups of eight go into eight sums, which are
added in pairs, and what is left after the last group is added to their total in order. -/
def dot (v w : Vec α n) : α :=
  if n < 8 then v.dotInOrder w
  else
    let sum := lane (fun a b acc => acc + a * b) 8 (n / 8) v w
    let whole := (sum 0 + sum 4) + (sum 1 + sum 5) + (sum 2 + sum 6) + (sum 3 + sum 7)
    let rest := 8 * (n / 8)
    Fin.foldl (n % 8) (fun acc k => acc + v.entry (rest + k) * w.entry (rest + k)) whole

/-- The inner product, summed from the first entry to the last without rounding the products. -/
def dotFused (v w : Vec α n) : α :=
  Fin.foldl n (fun acc i => Scalar.mulAdd (v.get i) (w.get i) acc) 0

/-- The inner product by four sums, over every fourth product each, without rounding the products.
-/
def dotFusedByFour (v w : Vec α n) : α :=
  let sum := lane Scalar.mulAdd 4 ((n + 3) / 4) v w
  (sum 0 + sum 2) + (sum 1 + sum 3)

/-- What is left of `a` after the products of the entries of `v` and `w` are taken away in order. -/
def takeProducts (a : α) (v w : Vec α n) : α :=
  Fin.foldl n (fun acc i => Scalar.mulAdd (-v.get i) (w.get i) acc) a

/-- The square of the Euclidean length. -/
def normSq (v : Vec α n) : α := v.dot v

/-- The Euclidean length. -/
def norm (v : Vec α n) : α := Scalar.sqrt v.normSq

end Vec

end Shooting
