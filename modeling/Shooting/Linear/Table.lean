import Shooting.Linear.Mat

/-!
# Matrices of any shape

A `Table` is a matrix together with its shape, the form in which matrices arrive from outside. It is
given by its entries, so that a shape alone takes no room. `toMat?` is the one way from a table to a
matrix of known shape, and it succeeds exactly when the shapes agree (`toMat?_isSome_iff`).
-/

namespace Shooting

/-- A matrix whose shape is part of the value. -/
structure Table (α : Type) where
  rows : Nat
  cols : Nat
  entry : Fin rows → Fin cols → α

namespace Table

variable {α : Type} {m n : Nat}

/-- A matrix with its shape. -/
def ofMat (a : Mat α m n) : Table α := ⟨m, n, a.get⟩

/-- The rows of equal length as a table; without rows there are no columns either. -/
def ofLists? (rows : List (List α)) : Option (Table α) := do
  let cols := (rows.head?.map List.length).getD 0
  let vecs ← rows.mapM (fun r => (Vec.ofList? r : Option (Vec α cols)))
  let mat ← (Vec.ofList? vecs : Option (Vec (Vec α cols) rows.length))
  return ofMat ⟨mat⟩

/-- The table as a matrix. -/
def toMat (t : Table α) : Mat α t.rows t.cols := .ofFn t.entry

/-- The matrix of the table, if it has the wanted shape. -/
def toMat? (t : Table α) (m n : Nat) : Option (Mat α m n) :=
  if h : t.rows = m ∧ t.cols = n then some (h.1 ▸ h.2 ▸ t.toMat) else none

theorem toMat?_isSome_iff (t : Table α) : (t.toMat? m n).isSome ↔ t.rows = m ∧ t.cols = n := by
  unfold toMat?
  split <;> simp_all

@[simp] theorem toMat_ofMat (a : Mat α m n) : (ofMat a).toMat = a := by
  ext i j
  exact Mat.get_ofFn _ i j

@[simp] theorem toMat?_ofMat (a : Mat α m n) : (ofMat a).toMat? m n = some a := by
  simp only [toMat?, ofMat, and_self, ↓reduceDIte]
  exact congrArg some (toMat_ofMat a)

/-- The rows in order. -/
def toLists (t : Table α) : List (List α) := t.toMat.toLists

end Table

end Shooting
