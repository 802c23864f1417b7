import Shooting.Proofs.Loose.Data
import Shooting.Model.Differencing

/-!
# Finite differences in memory

`Differencing.expandLoose` fills its matrices as a program does: one column after the other, one
entry after the other, the Hessian of the cost over the stacked coordinates `(δx, δu)` and then cut
into blocks. Around a stage whose evaluations do not clash it does not clash either, and what it
fills in are the derivatives of `Differencing.expand` (`Differencing.expandLoose_toList`).

Each of its loops is a `Loose.foldlM_range` with the part that is filled in already as its state.
-/

namespace Shooting

variable {α ε : Type} [Scalar α] {m n ndx nu : Nat}

namespace Loose

/-- Adds `h` to the entry number `i`. -/
def bump (v : List α) (i : Nat) (h : α) : Loose ε (List α) := do put v i ((← entry v i) + h)

theorem bump_toList (v : Vec α n) (i : Fin n) (h : α) :
    (bump v.toList i h : Loose ε (List α)) = .ok (v.put i (v.get i + h)).toList := by
  rw [bump, entry_toList, ok_bind, put_toList v i.isLt]

/-! ## Columns -/

/-- The first `count` columns of a matrix, and zeros. -/
def columns (f : Fin n → Vec α m) (count : Nat) : Table α :=
  ⟨m, n, fun i j => if (j : Nat) < count then (f j).get i else 0⟩

theorem columns_zero (f : Fin n → Vec α m) : columns f 0 = zeroMat m n := by
  refine congrArg (Table.mk m n) (funext fun i => funext fun j => ?_)
  rw [if_neg (Nat.not_lt_zero _)]
  exact (Mat.get_zero i j).symm

theorem columns_all (f : Fin n → Vec α m) : columns f n = .ofMat (.ofCols f) := by
  refine congrArg (Table.mk m n) (funext fun i => funext fun j => ?_)
  rw [if_pos j.isLt]
  exact (Mat.get_ofFn (fun i j => (f j).get i) i j).symm

theorem putColumn_columns (f : Fin n → Vec α m) (j : Fin n) :
    (putColumn (columns f j) j (f j).toList : Loose ε (Table α)) = .ok (columns f (j + 1)) := by
  have hfits : (f j).toList.length = (columns f j).rows ∧ (j : Nat) < (columns f j).cols :=
    ⟨(f j).length_toList, j.isLt⟩
  rw [putColumn, dif_pos hfits]
  refine congrArg (fun g => Except.ok (Table.mk m n g)) (funext fun i => funext fun j' => ?_)
  show (if (j' : Nat) = j then (f j).toList.get ⟨i, _⟩ else
    if (j' : Nat) < j then (f j').get i else 0) = if (j' : Nat) < j + 1 then (f j').get i else 0
  by_cases hj : (j' : Nat) = j
  · rw [if_pos hj, if_pos (by omega), Fin.ext hj]
    exact Option.some.inj (List.getElem?_eq_getElem _ ▸ (f j).getElem?_toList i)
  · rw [if_neg hj]
    exact if_congr (by omega) rfl rfl

/-- The first `count` entries of a vector, and zeros. -/
def entries (f : Fin n → α) (count : Nat) : Vec α n :=
  .ofFn fun i => if (i : Nat) < count then f i else 0

theorem entries_zero (f : Fin n → α) : (entries f 0).toList = zeros n := by
  have hnone : entries f 0 = 0 := by
    ext i
    simp [entries]
  rw [hnone, zeros_eq]

theorem entries_all (f : Fin n → α) : entries f n = .ofFn f := by
  ext i
  simp [entries]

theorem put_entries (f : Fin n → α) (i : Fin n) :
    (put (entries f i).toList i (f i) : Loose ε (List α)) = .ok (entries f (i + 1)).toList := by
  rw [put_toList _ i.isLt]
  congr 2
  ext k
  rw [Vec.get_put, entries, entries, Vec.get_ofFn, Vec.get_ofFn]
  by_cases hk : (k : Nat) = i
  · obtain rfl := Fin.ext hk
    rw [if_pos rfl, if_pos (Nat.lt_succ_self _)]
  · rw [if_neg hk]
    exact if_congr (by omega) rfl rfl

/-- Differences of next states and costs, one column and one entry for each of `count` moves. -/
def differences (s : StateSpace) (h : α) (base : LooseEvaluation α) (count : Nat)
    (moved : Nat → Loose ε (LooseEvaluation α)) : Loose ε (Table α × List α) :=
  (List.range count).foldlM (fun found i => do
    let e ← moved i
    let f ← putColumn found.1 i ((← diff s base.next e.next).map (· / h))
    let l ← put found.2 i ((e.cost - base.cost) / h)
    return (f, l)) (zeroMat s.ndx count, zeros count)

theorem differences_eq {s : StateSpace} {base : Evaluation α s.nx}
    {moved : Nat → Loose ε (LooseEvaluation α)} {e : Fin n → Evaluation α s.nx}
    (hmoved : ∀ i : Fin n, moved i = .ok (e i).toLoose) (h : α) :
    differences s h base.toLoose n moved =
      .ok (.ofMat (.ofCols fun i => (s.diff base.next (e i).next).map (· / h)),
        (Vec.ofFn fun i => ((e i).cost - base.cost) / h).toList) := by
  have hloop := foldlM_range (ε := ε) (fun found i => do
      let e ← moved i
      let f ← putColumn found.1 i ((← diff s base.toLoose.next e.next).map (· / h))
      let l ← put found.2 i ((e.cost - base.toLoose.cost) / h)
      return (f, l)) n
    (fun i => (columns (fun i => (s.diff base.next (e i).next).map (· / h)) i,
      (entries (fun i => ((e i).cost - base.cost) / h) i).toList)) (by
    intro i hi
    have hcolumn := putColumn_columns (ε := ε)
      (fun i => (s.diff base.next (e i).next).map (· / h)) ⟨i, hi⟩
    have hentry := put_entries (ε := ε) (fun i => ((e i).cost - base.cost) / h) ⟨i, hi⟩
    rw [Vec.toList_map] at hcolumn
    simp only [hmoved ⟨i, hi⟩, Evaluation.toLoose, ok_bind, diff_toList, hcolumn, hentry, pure_eq])
  rw [columns_zero, entries_zero, columns_all, entries_all] at hloop
  exact hloop

/-! ## Second differences -/

/-- The value of a symmetric function of two indices, given for indices in order. -/
def inOrder (f : Fin n → Fin n → α) (i j : Fin n) : α := if i ≤ j then f i j else f j i

/-- A symmetric matrix in which rows and columns before number `i` are filled in, and of row and
column `i` the entries before number `j`. -/
def corner (f : Fin n → Fin n → α) (i j : Nat) : Table α :=
  ⟨n, n, fun a b => if ((a : Nat) < i ∨ (b : Nat) < i) ∨
    (((a : Nat) = i ∨ (b : Nat) = i) ∧ (a : Nat) < j ∧ (b : Nat) < j) then inOrder f a b else 0⟩

theorem corner_zero (f : Fin n → Fin n → α) : corner f 0 0 = zeroMat n n := by
  refine congrArg (Table.mk n n) (funext fun a => funext fun b => ?_)
  rw [if_neg (by omega)]
  exact (Mat.get_zero a b).symm

theorem corner_all (f : Fin n → Fin n → α) : corner f n n = .ofMat (.ofFn (inOrder f)) := by
  refine congrArg (Table.mk n n) (funext fun a => funext fun b => ?_)
  rw [if_pos (by omega)]
  exact (Mat.get_ofFn (inOrder f) a b).symm

theorem corner_next (f : Fin n → Fin n → α) (i : Nat) : corner f i n = corner f (i + 1) (i + 1) := by
  refine congrArg (Table.mk n n) (funext fun a => funext fun b => ?_)
  exact if_congr (by omega) rfl rfl

omit [Scalar α] in
theorem putEntry_mk {g : Fin m → Fin n → α} {i j : Nat} (hi : i < m) (hj : j < n) (a : α) :
    (putEntry ⟨m, n, g⟩ i j a : Loose ε (Table α)) =
      .ok ⟨m, n, fun i' j' => if (i' : Nat) = i ∧ (j' : Nat) = j then a else g i' j'⟩ :=
  if_pos ⟨hi, hj⟩

theorem putEntry_corner (f : Fin n → Fin n → α) {i j : Fin n} (h : i ≤ j) :
    (do putEntry (← putEntry (corner f i j) i j (f i j)) j i (f i j) : Loose ε (Table α)) =
      .ok (corner f i (j + 1)) := by
  unfold corner
  rw [putEntry_mk i.isLt j.isLt, ok_bind, putEntry_mk j.isLt i.isLt]
  refine congrArg (fun g => Except.ok (Table.mk n n g)) (funext fun a => funext fun b => ?_)
  have hle : (i : Nat) ≤ j := h
  by_cases hba : (a : Nat) = j ∧ (b : Nat) = i
  · rw [if_pos hba, if_pos (by omega), Fin.ext hba.1, Fin.ext hba.2]
    unfold inOrder
    split
    next hji => rw [Fin.le_antisymm h hji]
    next => rfl
  rw [if_neg hba]
  by_cases hab : (a : Nat) = i ∧ (b : Nat) = j
  · rw [if_pos hab, if_pos (by omega), Fin.ext hab.1, Fin.ext hab.2]
    exact (if_pos h).symm
  rw [if_neg hab]
  exact if_congr (by omega) rfl rfl

/-- Fills in the second difference along coordinates `i` and `j`, on both sides of the diagonal.
`single` holds the costs of the steps along one coordinate and `base` is the cost without a step. -/
def putSecond (h base : α) (n : Nat) (cost : List α → Loose ε α) (single : List α)
    (hessian : Table α) (i j : Nat) : Loose ε (Table α) := do
  let both ← cost (← bump (← bump (zeros n) i h) j h)
  let value := (both - (← entry single i) - (← entry single j) + base) / (h * h)
  putEntry (← putEntry hessian i j value) j i value

/-- Second differences of a cost along all pairs of coordinates. -/
def secondDifferences (h base : α) (n : Nat) (cost : List α → Loose ε α) : Loose ε (Table α) := do
  let single ← (List.range n).foldlM (fun single i => do
    put single i (← cost (← put (zeros n) i h))) (zeros n)
  (List.range n).foldlM (fun hessian i =>
    (List.range (n - i)).foldlM (fun hessian k => putSecond h base n cost single hessian i (i + k))
      hessian) (zeroMat n n)

/-- The second difference along coordinates `i` and `j`. -/
def secondDifference (h base : α) (cost : Vec α n → α) (i j : Fin n) : α :=
  let z := (0 : Vec α n).put i ((0 : Vec α n).get i + h)
  (cost (z.put j (z.get j + h)) - cost (.single i h) - cost (.single j h) + base) / (h * h)

theorem put_zeros (i : Fin n) (h : α) :
    (put (zeros n) i h : Loose ε (List α)) = .ok (Vec.single i h).toList := by
  have hsingle : (0 : Vec α n).put i h = .single i h := by
    ext k
    simp [Fin.ext_iff]
  rw [zeros_eq, put_toList _ i.isLt, hsingle]

theorem putSecond_corner {cost : List α → Loose ε α} {c : Vec α n → α}
    (hcost : ∀ z : Vec α n, cost z.toList = .ok (c z)) (h base : α) {i j : Fin n} (hle : i ≤ j) :
    putSecond h base n cost (Vec.ofFn fun i => c (.single i h)).toList
        (corner (secondDifference h base c) i j) i j =
      .ok (corner (secondDifference h base c) i (j + 1)) := by
  unfold putSecond
  simp only [zeros_eq, bump_toList, ok_bind, hcost, entry_toList, Vec.get_ofFn]
  exact putEntry_corner (secondDifference h base c) hle

theorem secondDifferences_eq {cost : List α → Loose ε α} {c : Vec α n → α}
    (hcost : ∀ z : Vec α n, cost z.toList = .ok (c z)) (h base : α) :
    secondDifferences h base n cost =
      .ok (.ofMat (.ofFn (inOrder (secondDifference h base c)))) := by
  have hsingle := foldlM_range (ε := ε)
    (fun single i => do put single i (← cost (← put (zeros n) i h))) n
    (fun i => (entries (fun i => c (.single i h)) i).toList) (by
    intro i hi
    simp only [put_zeros ⟨i, hi⟩, ok_bind, hcost, put_entries (fun i => c (.single i h)) ⟨i, hi⟩])
  rw [entries_zero, entries_all] at hsingle
  have hrow (i : Nat) (hi : i < n) := foldlM_range (ε := ε)
    (fun hessian k => putSecond h base n cost (Vec.ofFn fun i => c (.single i h)).toList
      hessian i (i + k)) (n - i)
    (fun k => corner (secondDifference h base c) i (i + k))
    (fun k hk => putSecond_corner hcost h base (i := ⟨i, hi⟩) (j := ⟨i + k, by omega⟩)
      (Nat.le_add_right i k))
  have hrows := foldlM_range (ε := ε)
    (fun hessian i => (List.range (n - i)).foldlM
      (fun hessian k => putSecond h base n cost (Vec.ofFn fun i => c (.single i h)).toList
        hessian i (i + k)) hessian) n
    (fun i => corner (secondDifference h base c) i i) (by
    intro i hi
    have hend : corner (secondDifference h base c) i (i + (n - i)) =
        corner (secondDifference h base c) i n :=
      congrArg _ (by omega)
    rw [← corner_next, ← hend]
    exact hrow i hi)
  rw [corner_zero, corner_all] at hrows
  rw [secondDifferences, hsingle, ok_bind, hrows]

/-! ## Stacked coordinates -/

end Loose

namespace Vec

/-- The first `m` entries. -/
def front (z : Vec α (m + n)) : Vec α m := ofFn fun i => z.get (i.castAdd n)

/-- The last `n` entries. -/
def back (z : Vec α (m + n)) : Vec α n := ofFn fun j => z.get (j.natAdd m)

end Vec

namespace Loose

omit [Scalar α] in
theorem segment_front (z : Vec α (m + n)) :
    (segment z.toList 0 m : Loose ε (List α)) = .ok z.front.toList := by
  rw [segment, if_pos (by simp)]
  refine congrArg Except.ok (List.ext_getElem (by simp) fun i hi _ => ?_)
  simp [Vec.toList_eq_ofFn, Vec.front]

omit [Scalar α] in
theorem segment_back (z : Vec α (m + n)) :
    (segment z.toList m n : Loose ε (List α)) = .ok z.back.toList := by
  rw [segment, if_pos (by simp)]
  refine congrArg Except.ok (List.ext_getElem (by simp) fun i hi _ => ?_)
  simp [Vec.toList_eq_ofFn, Vec.back]

omit [Scalar α] in
theorem block_ofMat {k l i j : Nat} {a : Mat α m n} {b : Mat α k l} (hi : i + k ≤ m)
    (hj : j + l ≤ n)
    (h : ∀ (i' : Fin k) (j' : Fin l), a.get ⟨i + i', by omega⟩ ⟨j + j', by omega⟩ = b.get i' j') :
    (block (.ofMat a) i j k l : Loose ε (Table α)) = .ok (.ofMat b) := by
  have hfits : i + k ≤ (Table.ofMat a).rows ∧ j + l ≤ (Table.ofMat a).cols := ⟨hi, hj⟩
  rw [block, dif_pos hfits]
  exact congrArg (fun g => Except.ok (Table.mk k l g)) (funext fun i' => funext fun j' => h i' j')

omit [Scalar α] in
theorem block_front (f : Fin (m + n) → Fin (m + n) → α) :
    (block (.ofMat (.ofFn (inOrder f))) 0 0 m m : Loose ε (Table α)) =
      .ok (.ofMat (.ofFn (inOrder fun i j => f (i.castAdd n) (j.castAdd n)))) := by
  refine block_ofMat (by omega) (by omega) fun i j => ?_
  rw [Mat.get_ofFn, Mat.get_ofFn]
  simp only [Nat.zero_add]
  rfl

omit [Scalar α] in
theorem block_mixed (f : Fin (m + n) → Fin (m + n) → α) :
    (block (.ofMat (.ofFn (inOrder f))) 0 m m n : Loose ε (Table α)) =
      .ok (.ofMat (.ofFn fun i j => f (i.castAdd n) (j.natAdd m))) := by
  refine block_ofMat (by omega) (by omega) fun i j => ?_
  rw [Mat.get_ofFn, Mat.get_ofFn]
  simp only [Nat.zero_add]
  refine if_pos ?_
  show (i : Nat) ≤ m + j
  omega

omit [Scalar α] in
theorem block_back (f : Fin (m + n) → Fin (m + n) → α) :
    (block (.ofMat (.ofFn (inOrder f))) m m n n : Loose ε (Table α)) =
      .ok (.ofMat (.ofFn (inOrder fun i j => f (i.natAdd m) (j.natAdd m)))) := by
  refine block_ofMat (le_refl _) (le_refl _) fun i j => ?_
  rw [Mat.get_ofFn, Mat.get_ofFn]
  refine if_congr ?_ rfl rfl
  show m + (i : Nat) ≤ m + j ↔ (i : Nat) ≤ j
  omega

end Loose

namespace Differencing

/-- The direction of a stacked coordinate. -/
def direction (i : Fin (ndx + nu)) : Direction ndx nu :=
  Fin.addCases .state .control i

theorem direction_state (i : Fin ndx) : direction (i.castAdd nu) = .state i := Fin.addCases_left i

theorem direction_control (j : Fin nu) : direction (j.natAdd ndx) = .control j :=
  Fin.addCases_right j

theorem along_direction (h : α) (i : Fin (ndx + nu)) :
    (direction i).along h = ((Vec.single i h).front, (Vec.single i h).back) := by
  refine Fin.addCases (fun i => ?_) (fun j => ?_) i
  · rw [direction, Fin.addCases_left]
    refine Prod.ext (Vec.ext fun k => ?_) (Vec.ext fun k => ?_)
    · simp [Direction.along, Vec.front, Fin.ext_iff]
    · simp [Direction.along, Vec.back, Fin.ext_iff]
      omega
  · rw [direction, Fin.addCases_right]
    refine Prod.ext (Vec.ext fun k => ?_) (Vec.ext fun k => ?_)
    · simp [Direction.along, Vec.front, Fin.ext_iff]
      omega
    · simp [Direction.along, Vec.back, Fin.ext_iff]

theorem addTo_direction (h : α) (i : Fin (ndx + nu)) (z : Vec α (ndx + nu)) :
    (direction i).addTo h (z.front, z.back) =
      ((z.put i (z.get i + h)).front, (z.put i (z.get i + h)).back) := by
  refine Fin.addCases (fun i => ?_) (fun j => ?_) i
  · rw [direction, Fin.addCases_left]
    refine Prod.ext (Vec.ext fun k => ?_) (Vec.ext fun k => ?_)
    · simp [Direction.addTo, Vec.front]
    · simp [Direction.addTo, Vec.back]
      omega
  · rw [direction, Fin.addCases_right]
    refine Prod.ext (Vec.ext fun k => ?_) (Vec.ext fun k => ?_)
    · simp [Direction.addTo, Vec.front]
      omega
    · simp [Direction.addTo, Vec.back]

/-- The cost after a displacement that is given by its stacked coordinates. -/
def perturbedCostLoose (s : StateSpace)
    (evaluate : List α → Option (List α) → Loose ε (LooseEvaluation α)) (x : List α)
    (u : Option (List α)) (z : List α) : Loose ε α := do
  let x ← Loose.integrate s x (← Loose.segment z 0 s.ndx)
  match u with
  | some u =>
    let e ← evaluate x (some (← Loose.add u (← Loose.segment z s.ndx u.length)))
    return e.cost
  | none =>
    let e ← evaluate x none
    return e.cost

/-- Derivatives at a state and a control of a stage with `nu` controls. -/
def expandLoose (d : Differencing α) (s : StateSpace) (nu : Nat)
    (evaluate : List α → Option (List α) → Loose ε (LooseEvaluation α)) (x : List α)
    (u : Option (List α)) : Loose ε (LooseExpansion α) := do
  let width := if u.isSome then nu else 0
  let base ← evaluate x u
  let (fx, lx) ← Loose.differences s d.step base s.ndx fun i => do
    evaluate (← Loose.integrate s x (← Loose.put (Loose.zeros s.ndx) i d.step)) u
  let (fu, lu) ← match u with
    | some u => Loose.differences s d.step base width fun j => do
      evaluate x (some (← Loose.bump u j d.step))
    | none => pure (Loose.zeroMat s.ndx nu, Loose.zeros nu)
  let hessian ← Loose.secondDifferences d.curvatureStep base.cost (s.ndx + width)
    (perturbedCostLoose s evaluate x u)
  let lxx ← Loose.block hessian 0 0 s.ndx s.ndx
  -- without perturbed controls there are no blocks to take them from
  if 0 < width then
    let lxu ← Loose.block hessian 0 s.ndx s.ndx width
    let luu ← Loose.block hessian s.ndx s.ndx width width
    return { fx, fu, lx, lu, lxx, luu, lxu }
  else
    return { fx, fu, lx, lu, lxx, luu := Loose.zeroMat nu nu, lxu := Loose.zeroMat s.ndx nu }

theorem secondDifference_direction (d : Differencing α) (s : StateSpace)
    (evaluate : Vec α s.nx → Option (Vec α nu) → Evaluation α s.nx) (x : Vec α s.nx)
    (u : Option (Vec α nu)) (i j : Fin (s.ndx + nu)) :
    Loose.secondDifference d.curvatureStep (evaluate x u).cost
        (fun z => perturbedCost s evaluate x u (z.front, z.back)) i j =
      d.secondDifference s evaluate x u (direction i) (direction j) := by
  have hzero : ((0 : Vec α s.ndx), (0 : Vec α nu)) =
      ((0 : Vec α (s.ndx + nu)).front, (0 : Vec α (s.ndx + nu)).back) :=
    Prod.ext (Vec.ext fun k => by simp [Vec.front]) (Vec.ext fun k => by simp [Vec.back])
  unfold Loose.secondDifference secondDifference
  dsimp only
  rw [hzero, addTo_direction, addTo_direction, along_direction, along_direction]

variable {s : StateSpace} {evaluate : Vec α s.nx → Option (Vec α nu) → Evaluation α s.nx}
  {evaluateLoose : List α → Option (List α) → Loose ε (LooseEvaluation α)}

section

variable (h : ∀ x u, evaluateLoose x.toList (u.map Vec.toList) = .ok (evaluate x u).toLoose)
include h

theorem differences_state (d : Differencing α) (x : Vec α s.nx) (u : Option (Vec α nu)) :
    Loose.differences s d.step (evaluate x u).toLoose s.ndx (fun i => do
        evaluateLoose (← Loose.integrate s x.toList (← Loose.put (Loose.zeros s.ndx) i d.step))
          (u.map Vec.toList)) =
      .ok (.ofMat (d.expand s evaluate x u).fx, (d.expand s evaluate x u).lx.toList) := by
  rw [Loose.differences_eq (e := fun i => evaluate (s.integrate x (.single i d.step)) u)]
  · cases u <;> simp [expand]
  · intro i
    simp only [Loose.put_zeros, Loose.ok_bind, Loose.integrate_toList, h]

theorem differences_control (d : Differencing α) (x : Vec α s.nx) (v : Vec α nu) :
    Loose.differences s d.step (evaluate x (some v)).toLoose nu (fun j => do
        evaluateLoose x.toList (some (← Loose.bump v.toList j d.step))) =
      .ok (.ofMat (d.expand s evaluate x (some v)).fu,
        (d.expand s evaluate x (some v)).lu.toList) := by
  rw [Loose.differences_eq (e := fun j => evaluate x (some (v.put j (v.get j + d.step))))]
  · simp [expand]
  · intro j
    simp only [Loose.bump_toList, Loose.ok_bind]
    exact h x (some _)

/-- Around a stage that does not clash, finite differences do not clash. -/
theorem expandLoose_toList (d : Differencing α) (x : Vec α s.nx) : ∀ u : Option (Vec α nu),
    d.expandLoose s nu evaluateLoose x.toList (u.map Vec.toList) =
      .ok (d.expand s evaluate x u).toLoose
  | some v => by
    have hcost (z : Vec α (s.ndx + nu)) :
        perturbedCostLoose s evaluateLoose x.toList (some v.toList) z.toList =
          .ok (perturbedCost s evaluate x (some v) (z.front, z.back)) := by
      simp only [perturbedCostLoose, Loose.segment_front, Loose.ok_bind, Loose.integrate_toList,
        Vec.length_toList, Loose.segment_back, Loose.add_toList]
      rw [← Option.map_some, h]
      rfl
    have hhessian := Loose.secondDifferences_eq hcost d.curvatureStep (evaluate x (some v)).cost
    simp only [funext₂ (d.secondDifference_direction s evaluate x (some v))] at hhessian
    have hbase := h x (some v)
    have hstate := differences_state h d x (some v)
    have hcontrol := differences_control h d x v
    simp only [Option.map_some] at hbase hstate
    simp only [expandLoose, Option.map_some, Option.isSome_some, if_true, hbase, Loose.ok_bind,
      hstate, hcontrol]
    rw [Evaluation.cost_toLoose, hhessian, Loose.ok_bind, Loose.block_front, Loose.ok_bind,
      Loose.block_mixed, Loose.block_back]
    simp only [direction_state, direction_control, Loose.ok_bind]
    split
    next => rfl
    next hnone =>
      -- no controls: the blocks that are not taken have no entries
      obtain rfl : nu = 0 := by omega
      have hlxu : Loose.zeroMat s.ndx 0 = .ofMat (d.expand s evaluate x (some v)).lxu :=
        congrArg Table.ofMat (Mat.ext fun _ j => j.elim0)
      have hluu : Loose.zeroMat 0 0 = .ofMat (d.expand s evaluate x (some v)).luu :=
        congrArg Table.ofMat (Mat.ext fun i _ => i.elim0)
      rw [hlxu, hluu]
      rfl
  | none => by
    -- nothing but the state is perturbed, as around a stage without controls
    let still (x : Vec α s.nx) (_ : Option (Vec α 0)) := evaluate x none
    have hcost (z : Vec α (s.ndx + 0)) :
        perturbedCostLoose s evaluateLoose x.toList none z.toList =
          .ok (perturbedCost s still x none (z.front, z.back)) := by
      simp only [perturbedCostLoose, Loose.segment_front, Loose.ok_bind, Loose.integrate_toList]
      rw [← Option.map_none, h]
      rfl
    have hhessian := Loose.secondDifferences_eq hcost d.curvatureStep (evaluate x none).cost
    rw [funext₂ (d.secondDifference_direction s still x none)] at hhessian
    have hbase := h x none
    have hstate := differences_state h d x none
    simp only [Option.map_none] at hbase hstate
    simp only [expandLoose, Option.map_none, Option.isSome_none, Bool.false_eq_true, if_false,
      hbase, Loose.ok_bind, hstate, Loose.pure_eq]
    rw [Evaluation.cost_toLoose, hhessian, Loose.ok_bind, Loose.block_front]
    simp only [direction_state, Loose.ok_bind, Nat.lt_irrefl, if_false, Loose.zeros_eq]
    rfl

end

end Differencing

end Shooting
