import Shooting.Proofs.Loose.Algebra
import Shooting.StageData

/-!
# Stage data of any shape

The data of a stage as they are kept in memory. `toLoose` forgets the sizes of an evaluation, of an
expansion and of stage data; `LooseData.Fits` says that data have the sizes of a stage, which is all
that was forgotten (`StageData.fits_toLoose`).
-/

namespace Shooting

/-- Cost of a stage and the state it leads to. -/
structure LooseEvaluation (α : Type) where
  cost : α
  next : List α

/-- First and second order terms of a stage in tangent coordinates. -/
structure LooseExpansion (α : Type) where
  fx : Table α
  fu : Table α
  lx : List α
  lu : List α
  lxx : Table α
  luu : Table α
  lxu : Table α

/-- The last evaluation and the last expansion of a stage. -/
structure LooseData (α : Type) where
  eval : LooseEvaluation α
  expansion : LooseExpansion α

/-- A table with the given numbers of rows and columns. -/
def Table.HasShape {α : Type} (t : Table α) (m n : Nat) : Prop := t.rows = m ∧ t.cols = n

/-- The data of a stage with `nu` controls, whose states have `nx` entries and whose tangents have
`ndx`. -/
structure LooseData.Fits {α : Type} (d : LooseData α) (nx ndx nu : Nat) : Prop where
  next : d.eval.next.length = nx
  fx : d.expansion.fx.HasShape ndx ndx
  fu : d.expansion.fu.HasShape ndx nu
  lx : d.expansion.lx.length = ndx
  lu : d.expansion.lu.length = nu
  lxx : d.expansion.lxx.HasShape ndx ndx
  luu : d.expansion.luu.HasShape nu nu
  lxu : d.expansion.lxu.HasShape ndx nu

variable {α : Type} {nx ndx nu : Nat}

def Evaluation.toLoose (e : Evaluation α nx) : LooseEvaluation α := ⟨e.cost, e.next.toList⟩

@[simp] theorem Evaluation.cost_toLoose (e : Evaluation α nx) : e.toLoose.cost = e.cost := rfl

def Expansion.toLoose (e : Expansion α ndx nu) : LooseExpansion α where
  fx := .ofMat e.fx
  fu := .ofMat e.fu
  lx := e.lx.toList
  lu := e.lu.toList
  lxx := .ofMat e.lxx
  luu := .ofMat e.luu
  lxu := .ofMat e.lxu

def StageData.toLoose (d : StageData α nx ndx nu) : LooseData α :=
  ⟨d.eval.toLoose, d.expansion.toLoose⟩

theorem Table.hasShape_ofMat {m n : Nat} (a : Mat α m n) : (Table.ofMat a).HasShape m n :=
  ⟨rfl, rfl⟩

theorem StageData.fits_toLoose (d : StageData α nx ndx nu) : d.toLoose.Fits nx ndx nu where
  next := d.eval.next.length_toList
  fx := Table.hasShape_ofMat _
  fu := Table.hasShape_ofMat _
  lx := d.expansion.lx.length_toList
  lu := d.expansion.lu.length_toList
  lxx := Table.hasShape_ofMat _
  luu := Table.hasShape_ofMat _
  lxu := Table.hasShape_ofMat _

variable [Scalar α]

theorem Vec.all_toList (v : Vec α nx) : v.toList.all Scalar.isFinite = v.isFinite := by
  rw [isFinite, all]

/-- Whether cost and next state are ordinary numbers. -/
def LooseEvaluation.isFinite (e : LooseEvaluation α) : Bool :=
  Scalar.isFinite e.cost && e.next.all Scalar.isFinite

/-- Whether all derivatives are ordinary numbers. -/
def LooseExpansion.isFinite (e : LooseExpansion α) : Bool :=
  e.fx.toMat.isFinite && e.fu.toMat.isFinite && e.lx.all Scalar.isFinite &&
    e.lu.all Scalar.isFinite && e.lxx.toMat.isFinite && e.luu.toMat.isFinite &&
    e.lxu.toMat.isFinite

/-- Whether the whole stage consists of ordinary numbers. -/
def LooseData.isFinite (d : LooseData α) : Bool := d.eval.isFinite && d.expansion.isFinite

theorem Table.isFinite_toMat_ofMat {m n : Nat} (a : Mat α m n) :
    (Table.ofMat a).toMat.isFinite = a.isFinite :=
  congrArg (fun b : Mat α m n => b.isFinite) (toMat_ofMat a)

@[simp] theorem Evaluation.isFinite_toLoose (e : Evaluation α nx) :
    e.toLoose.isFinite = e.isFinite := rfl

@[simp] theorem StageData.isFinite_toLoose (d : StageData α nx ndx nu) :
    d.toLoose.isFinite = d.isFinite := by
  unfold LooseData.isFinite LooseExpansion.isFinite toLoose Expansion.toLoose isFinite
    Expansion.isFinite
  simp only [Table.isFinite_toMat_ofMat, Evaluation.isFinite_toLoose]
  rfl

/-- The data of a stage that was never evaluated. -/
def LooseData.new (nx ndx nu : Nat) : LooseData α where
  eval := ⟨0, Loose.zeros nx⟩
  expansion := {
    fx := Loose.zeroMat ndx ndx, fu := Loose.zeroMat ndx nu
    lx := Loose.zeros ndx, lu := Loose.zeros nu
    lxx := Loose.zeroMat ndx ndx, luu := Loose.zeroMat nu nu, lxu := Loose.zeroMat ndx nu }

theorem StageData.toLoose_zero :
    (zero : StageData α nx ndx nu).toLoose = .new nx ndx nu := by
  unfold LooseData.new
  simp only [Loose.zeros_eq]
  rfl

end Shooting
