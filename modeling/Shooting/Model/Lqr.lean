import Shooting.Linear.Table
import Shooting.StageData
import Shooting.Error.Size

/-!
# Linear dynamics with a quadratic cost

`x' = Fx x + Fu u + f0` at the cost `½ x·Lxx x + ½ u·Luu u + x·Lxu u + lx·x + lu·u`. Without a
control the state stays and only its own terms are charged.

The weights need not be symmetric. The gradients returned are those of the symmetric case.
-/

namespace Shooting

/-- The coefficients of a linear-quadratic stage. -/
structure Lqr (α : Type) (nx nu : Nat) where
  fx : Mat α nx nx
  fu : Mat α nx nu
  f0 : Vec α nx
  lxx : Mat α nx nx
  luu : Mat α nu nu
  lxu : Mat α nx nu
  lx : Vec α nx
  lu : Vec α nu
  deriving DecidableEq, Repr

namespace Lqr

variable {α : Type} [Scalar α] {nx nu : Nat}

/-- Dynamics and weights without drift, cross weight or linear terms. -/
def driftless (fx : Mat α nx nx) (fu : Mat α nx nu) (lxx : Mat α nx nx) (luu : Mat α nu nu) :
    Lqr α nx nu :=
  ⟨fx, fu, 0, lxx, luu, 0, 0, 0⟩

/-- A stage without controls that keeps the state and charges `½ x·Lxx x`. -/
def terminal (lxx : Mat α nx nx) : Lqr α nx 0 := driftless (.identity nx) 0 lxx 0

/-- The part of the cost that does not depend on the control. -/
def stateCost (p : Lqr α nx nu) (x : Vec α nx) : α := 0.5 * x.dot (p.lxx * x) + p.lx.dot x

/-- Next state and cost. -/
def evaluate (p : Lqr α nx nu) (x : Vec α nx) : Option (Vec α nu) → Evaluation α nx
  | some u =>
    { cost := p.stateCost x + 0.5 * u.dot (p.luu * u) + x.dot (p.lxu * u) + p.lu.dot u
      next := p.fx * x + p.fu * u + p.f0 }
  | none => { cost := p.stateCost x, next := x }

/-- Derivatives at a state and a control. -/
def expand (p : Lqr α nx nu) (x : Vec α nx) : Option (Vec α nu) → Expansion α nx nu
  | some u =>
    { fx := p.fx
      fu := p.fu
      lx := p.lxx * x + p.lxu * u + p.lx
      lu := p.luu * u + p.lxu.transpose * x + p.lu
      lxx := p.lxx
      luu := p.luu
      lxu := p.lxu }
  | none =>
    { fx := .identity nx
      fu := 0
      lx := p.lxx * x + p.lx
      lu := 0
      lxx := p.lxx
      luu := 0
      lxu := 0 }

end Lqr

/-- A linear-quadratic stage together with its sizes. -/
structure Lqr.Sized (α : Type) where
  nx : Nat
  nu : Nat
  model : Lqr α nx nu

namespace Lqr

variable {α : Type} [Scalar α]

/-- The matrix of a table that has to have the given shape. -/
def expectShape (name : String) (t : Table α) (m n : Nat) : Except SizeFault (Mat α m n) :=
  match t.toMat? m n with
  | some a => .ok a
  | none => .error (.matrix name t.rows t.cols m n)

/-- A driftless stage from tables. The rows of `fx` give the state size and the columns of `fu` the
control size; everything else has to agree with them. -/
def ofTables (fx fu lxx luu : Table α) : Except SizeFault (Lqr.Sized α) := do
  let nx := fx.rows
  let nu := fu.cols
  let a ← expectShape "Fx" fx nx nx
  let b ← expectShape "Fu" fu nx nu
  let q ← expectShape "Lxx" lxx nx nx
  let r ← expectShape "Luu" luu nu nu
  return ⟨nx, nu, driftless a b q r⟩

/-- A stage without controls from the table of its state weight. -/
def terminalOfTable (lxx : Table α) : Except SizeFault (Lqr.Sized α) := do
  let q ← expectShape "Lxx" lxx lxx.rows lxx.rows
  return ⟨lxx.rows, 0, terminal q⟩

variable {nx nu : Nat}

/-- Sets the drift. -/
def withDrift (p : Lqr α nx nu) (f0 : List α) : Except SizeFault (Lqr α nx nu) :=
  match Vec.ofList? f0 with
  | some v => .ok { p with f0 := v }
  | none => .error (.drift f0.length nx)

/-- Sets the weight between state and control. -/
def withCrossWeight (p : Lqr α nx nu) (lxu : Table α) : Except SizeFault (Lqr α nx nu) := do
  let w ← expectShape "Lxu" lxu nx nu
  return { p with lxu := w }

/-- Sets the linear terms of the cost. -/
def withLinearCost (p : Lqr α nx nu) (lx lu : List α) : Except SizeFault (Lqr α nx nu) :=
  match Vec.ofList? lx, Vec.ofList? lu with
  | some v, some w => .ok { p with lx := v, lu := w }
  | _, _ => .error (.linearCost lx.length lu.length nx nu)

end Lqr

end Shooting
