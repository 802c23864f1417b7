import Shooting.Linear.Mat

/-!
# What a stage evaluates to

A stage of an optimal control problem takes a state and a control to the next state and a cost.
`Evaluation` holds these two, `Expansion` their derivatives in tangent coordinates: the linear
dynamics `δx' = fx δx + fu δu` and the quadratic cost
`lx·δx + lu·δu + ½ δx·lxx δx + δx·lxu δu + ½ δu·luu δu`.

`StageData` is what a problem remembers of one stage. Its two parts are written independently: an
evaluation never touches the expansion, nor the other way round.
-/

namespace Shooting

/-- Cost of a stage and the state it leads to. -/
structure Evaluation (α : Type) (nx : Nat) where
  cost : α
  next : Vec α nx
  deriving DecidableEq, Repr

/-- First and second order terms of a stage in tangent coordinates. -/
structure Expansion (α : Type) (ndx nu : Nat) where
  fx : Mat α ndx ndx
  fu : Mat α ndx nu
  lx : Vec α ndx
  lu : Vec α nu
  lxx : Mat α ndx ndx
  luu : Mat α nu nu
  lxu : Mat α ndx nu
  deriving DecidableEq, Repr

/-- The last evaluation and the last expansion of a stage. -/
structure StageData (α : Type) (nx ndx nu : Nat) where
  eval : Evaluation α nx
  expansion : Expansion α ndx nu
  deriving DecidableEq, Repr

variable {α : Type} [Scalar α] {nx ndx nu : Nat}

/-- Whether cost and next state are ordinary numbers. -/
def Evaluation.isFinite (e : Evaluation α nx) : Bool := Scalar.isFinite e.cost && e.next.isFinite

/-- Whether all derivatives are ordinary numbers. -/
def Expansion.isFinite (e : Expansion α ndx nu) : Bool :=
  e.fx.isFinite && e.fu.isFinite && e.lx.isFinite && e.lu.isFinite && e.lxx.isFinite &&
    e.luu.isFinite && e.lxu.isFinite

/-- The same expansion with the control terms of the cost taken from another one. -/
def Expansion.withControlCostOf (e old : Expansion α ndx nu) : Expansion α ndx nu :=
  { e with lu := old.lu, luu := old.luu, lxu := old.lxu }

namespace StageData

/-- The data of a stage that was never evaluated. -/
def zero : StageData α nx ndx nu := ⟨⟨0, 0⟩, ⟨0, 0, 0, 0, 0, 0, 0⟩⟩

/-- Whether the whole stage consists of ordinary numbers. -/
def isFinite (d : StageData α nx ndx nu) : Bool := d.eval.isFinite && d.expansion.isFinite

end StageData

end Shooting
