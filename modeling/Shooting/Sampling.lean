import Shooting.Model.Lqr
import Shooting.StateSpace

/-!
# Random states and models

A `Sampler` is an endless table of numbers in `[-1, 1)`, fixed by a seed. States and models are
read off consecutive places of it, so that a seed determines them.
-/

namespace Shooting

/-- An endless table of numbers, from a place on. -/
structure Sampler where
  seed : UInt64
  place : Nat
  deriving DecidableEq, Repr

namespace Sampler

/-- Skips places. -/
def drop (g : Sampler) (n : Nat) : Sampler := { g with place := g.place + n }

/-- Sixty-four bits for a place. -/
def bits (g : Sampler) (k : Nat) : UInt64 :=
  let z := g.seed + (g.place + k + 1).toUInt64 * 0x9e3779b97f4a7c15
  let z := (z ^^^ (z >>> 30)) * 0xbf58476d1ce4e5b9
  let z := (z ^^^ (z >>> 27)) * 0x94d049bb133111eb
  z ^^^ (z >>> 31)

variable {α : Type} [Scalar α]

/-- The number at a place, in `[-1, 1)`. -/
def number (g : Sampler) (k : Nat) : α :=
  Scalar.ofNat (g.bits k >>> 11).toNat / Scalar.ofNat (Nat.pow 2 52) - 1

/-- A vector of numbers. -/
def vec (g : Sampler) (n : Nat) : Vec α n := .ofFn fun i => g.number i

/-- A matrix of numbers. -/
def mat (g : Sampler) (m n : Nat) : Mat α m n := .ofFn fun i j => g.number (i * n + j)

/-- A state; the angle of a joint is anywhere on the circle. -/
def state (g : Sampler) : (s : StateSpace) → Vec α s.nx
  | .euclidean n => g.vec n
  | .revolute => Revolute.ofAngle (Scalar.pi * g.number 0) (g.number 1)

/-- A state as a list, if there is room for it. -/
def state? (g : Sampler) (s : StateSpace) : Option (List α) :=
  if s.nx < Vec.sizeLimit then some (g.state s : Vec α s.nx).toList else none

/-- A symmetric matrix whose eigenvalues are at least one. -/
def gram (g : Sampler) (n : Nat) : Mat α n n :=
  let m : Mat α n n := g.mat n n
  let square := m * m.transpose
  (Mat.ofFn fun i j => square.get i j / Scalar.ofNat (max n 1)) + .identity n

/-- A linear-quadratic stage with dynamics near the identity and positive definite weights. -/
def lqr (g : Sampler) (nx nu : Nat) (driftFree : Bool) : Lqr α nx nu :=
  let g₁ := g.drop (nx * nx)
  let g₂ := g₁.drop (nx * nu)
  let g₃ := g₂.drop (nx * nx)
  let g₄ := g₃.drop (nu * nu)
  let g₅ := g₄.drop nx
  let g₆ := g₅.drop nu
  { fx := .identity nx + (g.mat nx nx).scale 0.1
    fu := g₁.mat nx nu
    f0 := if driftFree then 0 else g₆.vec nx
    lxx := g₂.gram nx
    luu := g₃.gram nu
    lxu := 0
    lx := g₄.vec nx
    lu := g₅.vec nu }

end Sampler

end Shooting
