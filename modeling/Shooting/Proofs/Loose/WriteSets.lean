import Shooting.Proofs.Loose.Filling

/-!
# Write sets of the models

`Model.evaluateInPlace` and `Model.expandInPlace` are the models as they write into the data of their
stage, with finite differences around them to any depth. A model of the library refuses exactly the
arguments of other sizes, without writing anything. Otherwise evaluating overwrites cost and next
state, expanding overwrites all derivatives, and what is written depends on state and control alone
(`Model.write_sets`).

The proof for finite differences does not look into their loops. All that they do aside is put
together from evaluations that are read where they were just written, so nothing of it depends on
what the data held before (`Differencing.answers_measure`); what they find there is then what
`Differencing.expandLoose` finds, and is cut into the same blocks.
-/

namespace Shooting

open InPlace Filling

variable {α : Type} [Scalar α] {nu : Nat} {s : StateSpace}

/-! ## Finite differences -/

/-- What finite differences are put together from: derivatives of next state and cost, and second
differences of the cost along all coordinates. -/
structure Measured (α : Type) where
  fx : Table α
  lx : List α
  fu : Table α
  lu : List α
  hessian : Table α

namespace Differencing

/-- What is measured, as a computation. -/
def measureLoose {ε : Type} (d : Differencing α) (s : StateSpace) (nu : Nat)
    (evaluate : List α → Option (List α) → Loose ε (LooseEvaluation α)) (x : List α)
    (u : Option (List α)) : Loose ε (Measured α) := do
  let width := if u.isSome then nu else 0
  let base ← evaluate x u
  let (fx, lx) ← Loose.differences s d.step base s.ndx fun i => do
    evaluate (← Loose.integrate s x (← Loose.put (Loose.zeros s.ndx) i d.step)) u
  let (fu, lu) ← match u with
    | some u => Loose.differences s d.step base width fun j => do
      evaluate x (some (← Loose.bump u j d.step))
    | none => pure (Loose.zeroMat s.ndx nu, Loose.zeros nu)
  let hessian ← Loose.secondDifferences d.curvatureStep base.cost (s.ndx + width)
    (perturbedCostLoose s evaluate x u)
  return { fx, lx, fu, lu, hessian }

/-- The derivatives are cut out of what is measured. -/
theorem expandLoose_eq {ε : Type} (d : Differencing α) (s : StateSpace) (nu : Nat)
    (evaluate : List α → Option (List α) → Loose ε (LooseEvaluation α)) (x : List α)
    (u : Option (List α)) :
    d.expandLoose s nu evaluate x u = (do
      let width := if u.isSome then nu else 0
      let ⟨fx, lx, fu, lu, hessian⟩ ← d.measureLoose s nu evaluate x u
      let lxx ← Loose.block hessian 0 0 s.ndx s.ndx
      if 0 < width then
        let lxu ← Loose.block hessian 0 s.ndx s.ndx width
        let luu ← Loose.block hessian s.ndx s.ndx width width
        return { fx, fu, lx, lu, lxx, luu, lxu }
      else
        return { fx, fu, lx, lu, lxx, luu := Loose.zeroMat nu nu, lxu := Loose.zeroMat s.ndx nu }) := by
  cases u <;> simp only [expandLoose, measureLoose, bind_assoc, pure_bind]

/-- Differences of next states and costs, one column and one entry for each of `count` moves. -/
def differencesInPlace (s : StateSpace) (h : α) (base : LooseEvaluation α) (count : Nat)
    (moved : Nat → Filling α (LooseEvaluation α)) : Filling α (Table α × List α) :=
  (List.range count).foldlM (fun filled i => do
    let e ← moved i
    let f ← found do Loose.putColumn filled.1 i ((← Loose.diff s base.next e.next).map (· / h))
    let l ← found (Loose.put filled.2 i ((e.cost - base.cost) / h))
    return (f, l)) (Loose.zeroMat s.ndx count, Loose.zeros count)

/-- Fills in the second difference along coordinates `i` and `j`. -/
def putSecondInPlace (h base : α) (n : Nat) (cost : List α → Filling α α) (single : List α)
    (hessian : Table α) (i j : Nat) : Filling α (Table α) := do
  let both ← cost (← found do Loose.bump (← Loose.bump (Loose.zeros n) i h) j h)
  let value ← found do
    return (both - (← Loose.entry single i) - (← Loose.entry single j) + base) / (h * h)
  found do Loose.putEntry (← Loose.putEntry hessian i j value) j i value

/-- Second differences of a cost along all pairs of coordinates. -/
def secondDifferencesInPlace (h base : α) (n : Nat) (cost : List α → Filling α α) :
    Filling α (Table α) := do
  let single ← (List.range n).foldlM (fun single i => do
    let c ← cost (← found (Loose.put (Loose.zeros n) i h))
    found (Loose.put single i c)) (Loose.zeros n)
  (List.range n).foldlM (fun hessian i =>
    (List.range (n - i)).foldlM
      (fun hessian k => putSecondInPlace h base n cost single hessian i (i + k)) hessian)
    (Loose.zeroMat n n)

/-- The cost after a displacement that is given by its stacked coordinates. -/
def perturbedCostInPlace (s : StateSpace) (evaluate : List α → Option (List α) → Filling α Unit)
    (x : List α) (u : Option (List α)) (z : List α) : Filling α α := do
  let x ← found do Loose.integrate s x (← Loose.segment z 0 s.ndx)
  match u with
  | some u =>
    let u ← found do Loose.add u (← Loose.segment z s.ndx u.length)
    let e ← probe evaluate x (some u)
    return e.cost
  | none =>
    let e ← probe evaluate x none
    return e.cost

/-- What is measured, with every evaluation in the same data. -/
def measureInPlace (d : Differencing α) (s : StateSpace) (nu : Nat)
    (evaluate : List α → Option (List α) → Filling α Unit) (x : List α) (u : Option (List α)) :
    Filling α (Measured α) := do
  let width := if u.isSome then nu else 0
  let base ← probe evaluate x u
  let (fx, lx) ← differencesInPlace s d.step base s.ndx fun i => do
    let x ← found do Loose.integrate s x (← Loose.put (Loose.zeros s.ndx) i d.step)
    probe evaluate x u
  let (fu, lu) ← match u with
    | some u => differencesInPlace s d.step base width fun j => do
      let u ← found (Loose.bump u j d.step)
      probe evaluate x (some u)
    | none => pure (Loose.zeroMat s.ndx nu, Loose.zeros nu)
  let hessian ← secondDifferencesInPlace d.curvatureStep base.cost (s.ndx + width)
    (perturbedCostInPlace s evaluate x u)
  return { fx, lx, fu, lu, hessian }

/-- Measures in data of its own and writes the derivatives at the end. -/
def expandInPlace (d : Differencing α) (s : StateSpace) (nu : Nat)
    (evaluate : List α → Option (List α) → Filling α Unit) (x : List α) (u : Option (List α)) :
    Filling α Unit := do
  let width := if u.isSome then nu else 0
  let m ← aside (.new s.nx s.ndx nu) (d.measureInPlace s nu evaluate x u)
  inExpansion ({ · with fx := m.fx })
  inExpansion ({ · with fu := m.fu })
  inExpansion ({ · with lx := m.lx })
  inExpansion ({ · with lu := m.lu })
  let lxx ← found (Loose.block m.hessian 0 0 s.ndx s.ndx)
  inExpansion ({ · with lxx })
  -- zeros first, and what a control adds is written over them
  inExpansion ({ · with lxu := Loose.zeroMat s.ndx nu })
  inExpansion ({ · with luu := Loose.zeroMat nu nu })
  if 0 < width then
    let lxu ← found (Loose.block m.hessian 0 s.ndx s.ndx width)
    inExpansion ({ · with lxu })
    let luu ← found (Loose.block m.hessian s.ndx s.ndx width width)
    inExpansion ({ · with luu })

section

variable {evaluate : List α → Option (List α) → Filling α Unit}
  {evaluateLoose : List α → Option (List α) → Loose (ProblemError α) (LooseEvaluation α)}

theorem answers_differences {moved : Nat → Filling α (LooseEvaluation α)}
    {moved' : Nat → Loose (ProblemError α) (LooseEvaluation α)}
    (h : ∀ i, Answers (moved i) (moved' i)) (s : StateSpace) (step : α)
    (base : LooseEvaluation α) (count : Nat) :
    Answers (differencesInPlace s step base count moved)
      (Loose.differences s step base count moved') := by
  refine Answers.foldlM ?_ _ _
  intro filled i
  refine (h i).bind ?_
  intro e
  rw [found_bind, bind_assoc]
  exact (answers_found _).bind fun gap => (answers_found _).bind fun f =>
    (answers_found _).bind fun l => answers_pure (f, l)

theorem answers_secondDifferences {cost : List α → Filling α α}
    {cost' : List α → Loose (ProblemError α) α} (h : ∀ z, Answers (cost z) (cost' z))
    (step base : α) (n : Nat) :
    Answers (secondDifferencesInPlace step base n cost)
      (Loose.secondDifferences step base n cost') := by
  have hsingle (single : List α) (i : Nat) :
      Answers (do
          let c ← cost (← found (Loose.put (Loose.zeros n) i step))
          found (Loose.put single i c))
        (do Loose.put single i (← cost' (← Loose.put (Loose.zeros n) i step))) :=
    (answers_found _).bind fun z => (h z).bind fun c => answers_found _
  have hput (single : List α) (hessian : Table α) (i j : Nat) :
      Answers (putSecondInPlace step base n cost single hessian i j)
        (Loose.putSecond step base n cost' single hessian i j) := by
    unfold putSecondInPlace Loose.putSecond
    -- one step for each thing that is found, so that both sides are bound in the same way
    simp only [found_bind, bind_assoc, Loose.pure_eq, found_ok, pure_bind]
    exact (answers_found _).bind fun z => (answers_found _).bind fun z => (h z).bind fun both =>
      (answers_found _).bind fun a => (answers_found _).bind fun b =>
        (answers_found _).bind fun hessian => answers_found _
  refine (Answers.foldlM hsingle _ _).bind ?_
  intro single
  refine Answers.foldlM ?_ _ _
  intro hessian i
  exact Answers.foldlM (fun hessian k => hput single hessian i (i + k)) _ _

section

variable (h : ∀ x u, Evaluates (evaluate x u) (evaluateLoose x u))
include h

theorem answers_perturbedCost (s : StateSpace) (x : List α) (u : Option (List α)) (z : List α) :
    Answers (perturbedCostInPlace s evaluate x u z) (perturbedCostLoose s evaluateLoose x u z) := by
  unfold perturbedCostInPlace perturbedCostLoose
  cases u with
  | none =>
    simp only [found_bind, bind_assoc]
    exact (answers_found _).bind fun dx => (answers_found _).bind fun x =>
      (answers_probe h x none).bind fun e => answers_pure e.cost
  | some u =>
    simp only [found_bind, bind_assoc]
    exact (answers_found _).bind fun dx => (answers_found _).bind fun x =>
      (answers_found _).bind fun du => (answers_found _).bind fun u =>
        (answers_probe h x (some u)).bind fun e => answers_pure e.cost

/-- What is measured does not depend on the data it is measured in. -/
theorem answers_measure (d : Differencing α) (s : StateSpace) (nu : Nat) (x : List α)
    (u : Option (List α)) :
    Answers (d.measureInPlace s nu evaluate x u) (d.measureLoose s nu evaluateLoose x u) := by
  have hstate (i : Nat) :
      Answers (do
          let x ← found do Loose.integrate s x (← Loose.put (Loose.zeros s.ndx) i d.step)
          probe evaluate x u)
        (do evaluateLoose (← Loose.integrate s x (← Loose.put (Loose.zeros s.ndx) i d.step)) u) := by
    rw [found_bind, bind_assoc]
    exact (answers_found _).bind fun dx => (answers_found _).bind fun x => answers_probe h x u
  have hcontrol (u : List α) (j : Nat) :
      Answers (do
          let u ← found (Loose.bump u j d.step)
          probe evaluate x (some u))
        (do evaluateLoose x (some (← Loose.bump u j d.step))) :=
    (answers_found _).bind fun u => answers_probe h x (some u)
  have hhessian (base : LooseEvaluation α) (n : Nat) :=
    answers_secondDifferences (answers_perturbedCost h s x u) d.curvatureStep base.cost n
  unfold measureInPlace measureLoose
  refine (answers_probe h x u).bind ?_
  intro base
  refine (answers_differences hstate s d.step base s.ndx).bind ?_
  intro f
  cases u with
  | none =>
    simp only [pure_bind]
    exact (hhessian base _).bind fun hessian => answers_pure _
  | some u =>
    refine (answers_differences (hcontrol u) s d.step base _).bind ?_
    intro g
    exact (hhessian base _).bind fun hessian => answers_pure _

/-- Around a stage that evaluates in place, finite differences overwrite the expansion with what
they find. -/
theorem run_expandInPlace (d : Differencing α) {x : List α} {u : Option (List α)}
    {e : LooseExpansion α} (hfound : d.expandLoose s nu evaluateLoose x u = .ok e)
    (data : LooseData α) :
    d.expandInPlace s nu evaluate x u data = .ok () { data with expansion := e } := by
  rw [expandLoose_eq] at hfound
  obtain ⟨m, hm, hfound⟩ := exists_of_bind_ok hfound
  obtain ⟨lxx, hlxx, hfound⟩ := exists_of_bind_ok hfound
  -- aside, the same is measured; it was found, so nothing is refused there either
  have haside := (answers_measure h d s nu x u).run_aside (.new s.nx s.ndx nu)
  rw [hm, found_ok] at haside
  unfold expandInPlace
  rw [InPlace.run_bind _ (haside data)]
  simp only [hlxx, found_ok, pure_bind]
  by_cases hwidth : 0 < if u.isSome = true then nu else 0
  · rw [if_pos hwidth] at hfound
    obtain ⟨lxu, hlxu, hfound⟩ := exists_of_bind_ok hfound
    obtain ⟨luu, hluu, hfound⟩ := exists_of_bind_ok hfound
    obtain rfl := Except.ok.inj hfound
    simp only [if_pos hwidth, hlxu, hluu, found_ok, pure_bind]
    rfl
  · rw [if_neg hwidth] at hfound
    obtain rfl := Except.ok.inj hfound
    simp only [if_neg hwidth]
    rfl

end

end

end Differencing

/-! ## Models -/

namespace Model

/-- Refuses arguments of wrong sizes before anything else is done. -/
def guarded (m : Model α s nu) (x : List α) (u : Option (List α)) (op : Filling α Unit) :
    Filling α Unit := do
  found (Loose.sized (m.check x u))
  op

/-- Evaluates a stage into its data. -/
def evaluateInPlace : {s : StateSpace} → {nu : Nat} → Model α s nu → List α → Option (List α) →
    Filling α Unit
  | _, _, lqr p, x, u => (lqr p).guarded x u (p.evaluateInPlace x u)
  | _, _, unicycle p, x, u => (unicycle p).guarded x u (p.evaluateInPlace x u)
  | _, _, pendulum p, x, u => (pendulum p).guarded x u (p.evaluateInPlace x u)
  | _, _, integrator p, x, u => (integrator p).guarded x u (p.evaluateInPlace x u)
  | _, _, differenced _ inner, x, u => inner.evaluateInPlace x u
  | _, _, custom c, x, u => (custom c).guarded x u (c.evaluateInPlace x u)

/-- Expands a stage into its data. An integrator does not look at its arguments. -/
def expandInPlace : {s : StateSpace} → {nu : Nat} → Model α s nu → List α → Option (List α) →
    Filling α Unit
  | _, _, lqr p, x, u => (lqr p).guarded x u (p.expandInPlace x u)
  | _, _, unicycle p, x, u => (unicycle p).guarded x u (p.expandInPlace x u)
  | _, _, pendulum p, x, u => (pendulum p).guarded x u (p.expandInPlace x u)
  | _, _, integrator p, x, _ => p.expandInPlace x
  | s, nu, differenced d inner, x, u =>
    (differenced d inner).guarded x u (d.expandInPlace s nu inner.evaluateInPlace x u)
  | _, _, custom c, x, u => (custom c).guarded x u (c.expandInPlace x u)

/-- A state, and a control if there is one, of the sizes that the model expects. -/
def Takes (_ : Model α s nu) (x : List α) (u : Option (List α)) : Prop :=
  x.length = s.nx ∧ ∀ v ∈ u, v.length = nu

section

variable {x : List α} {u : Option (List α)}

omit [Scalar α] in
theorem check_ok_iff_takes (m : Model α s nu) : m.check x u = .ok () ↔ m.Takes x u := by
  cases u with
  | none =>
    rw [check_state_ok_iff]
    exact ⟨fun h => ⟨h, nofun⟩, fun h => h.1⟩
  | some u =>
    rw [check_ok_iff]
    exact ⟨fun h => ⟨h.1, fun v hv => Option.some.inj hv ▸ h.2⟩, fun h => ⟨h.1, h.2 u rfl⟩⟩

omit [Scalar α] in
theorem Takes.exists_typed {m : Model α s nu} (h : m.Takes x u) :
    ∃ (v : Vec α s.nx) (w : Option (Vec α nu)), x = v.toList ∧ u = w.map Vec.toList := by
  obtain ⟨hx, hu⟩ := h
  obtain ⟨v, hv⟩ := Vec.exists_toList_eq hx
  cases u with
  | none => exact ⟨v, none, hv.symm, rfl⟩
  | some u =>
    obtain ⟨w, hw⟩ := Vec.exists_toList_eq (hu u rfl)
    exact ⟨v, some w, hv.symm, congrArg some hw.symm⟩

omit [Scalar α] in
/-- A check of sizes fails with a fault. -/
theorem exists_check_error {m : Model α s nu} (h : ¬ m.Takes x u) :
    ∃ fault, m.check x u = .error fault := by
  cases hcheck : m.check x u with
  | ok _ => exact (h (m.check_ok_iff_takes.mp hcheck)).elim
  | error fault => exact ⟨fault, rfl⟩

omit [Scalar α] in
theorem run_guarded {m : Model α s nu} (op : Filling α Unit) (h : m.check x u = .ok ())
    (d : LooseData α) : m.guarded x u op d = op d :=
  InPlace.run_bind _ (run_found (congrArg Loose.sized h) d)

omit [Scalar α] in
theorem run_guarded_error {m : Model α s nu} (op : Filling α Unit) {fault : SizeFault}
    (h : m.check x u = .error fault) (d : LooseData α) :
    m.guarded x u op d = .error (.error (.dimensionMismatch fault)) d :=
  InPlace.run_bind_error _ (run_found_error (congrArg Loose.sized h) d)

end

/-- Evaluating in place writes the evaluation and nothing else, whatever wrappers there are. -/
theorem run_evaluateInPlace (m : Model α s nu) (x : Vec α s.nx) (u : Option (Vec α nu))
    (d : LooseData α) :
    m.evaluateInPlace x.toList (u.map Vec.toList) d =
      .ok () { d with eval := (m.evaluate x u).toLoose } := by
  induction m with
  | lqr p => exact (run_guarded _ (check_toList _ x u) d).trans (p.run_evaluateInPlace x d u)
  | unicycle p => exact (run_guarded _ (check_toList _ x u) d).trans (p.run_evaluateInPlace x d u)
  | pendulum p => exact (run_guarded _ (check_toList _ x u) d).trans (p.run_evaluateInPlace x d u)
  | integrator p =>
    exact (run_guarded _ (check_toList _ x u) d).trans (p.run_evaluateInPlace x d u)
  | differenced d' inner ih => exact ih x u
  | custom c => exact (run_guarded _ (check_toList _ x u) d).trans (c.run_evaluateInPlace x d u)

theorem run_evaluateInPlace_refused {x : List α} {u : Option (List α)} {fault : SizeFault}
    {s : StateSpace} {nu : Nat} (m : Model α s nu) (h : m.evaluator.check x u = .error fault)
    (d : LooseData α) :
    m.evaluateInPlace x u d = .error (.error (.dimensionMismatch fault)) d := by
  induction m with
  | lqr p => exact run_guarded_error _ h d
  | unicycle p => exact run_guarded_error _ h d
  | pendulum p => exact run_guarded_error _ h d
  | integrator p => exact run_guarded_error _ h d
  | differenced d' inner ih => exact ih h
  | custom c => exact run_guarded_error _ h d

/-- **Evaluating is all or nothing.** -/
theorem evaluates (m : Model α s nu) (x : List α) (u : Option (List α)) :
    Evaluates (m.evaluateInPlace x u) (m.evaluateLoose x u) := by
  intro d
  by_cases h : m.evaluator.Takes x u
  · obtain ⟨v, w, rfl, rfl⟩ := h.exists_typed
    rw [evaluateLoose_toList]
    exact m.run_evaluateInPlace v w d
  · obtain ⟨fault, hfault⟩ := exists_check_error h
    rw [evaluateLoose, hfault]
    exact m.run_evaluateInPlace_refused hfault d

/-- Expanding in place writes the expansion and nothing else. -/
theorem run_expandInPlace {m : Model α s nu} (hlib : m.ofLibrary = true) (x : Vec α s.nx)
    (u : Option (Vec α nu)) (d : LooseData α) :
    m.expandInPlace x.toList (u.map Vec.toList) d =
      .ok () { d with expansion := (m.expand x u).toLoose } := by
  cases m with
  | lqr p => exact (run_guarded _ (check_toList _ x u) d).trans (p.run_expandInPlace x d u)
  | unicycle p => exact (run_guarded _ (check_toList _ x u) d).trans (p.run_expandInPlace x d u)
  | pendulum p => exact (run_guarded _ (check_toList _ x u) d).trans (p.run_expandInPlace x d u)
  | integrator p => cases hlib
  | differenced d' inner =>
    -- only the evaluation of what is wrapped is asked for, at any depth
    have hloose := Differencing.expandLoose_toList inner.evaluateLoose_toList d' x u
    exact (run_guarded _ (check_toList _ x u) d).trans
      (Differencing.run_expandInPlace inner.evaluates d' hloose d)
  | custom c => cases hlib

theorem run_expandInPlace_refused {m : Model α s nu} (hlib : m.ofLibrary = true) {x : List α}
    {u : Option (List α)} {fault : SizeFault} (h : m.check x u = .error fault) (d : LooseData α) :
    m.expandInPlace x u d = .error (.error (.dimensionMismatch fault)) d := by
  cases m with
  | lqr p => exact run_guarded_error _ h d
  | unicycle p => exact run_guarded_error _ h d
  | pendulum p => exact run_guarded_error _ h d
  | integrator p => cases hlib
  | differenced d' inner => exact run_guarded_error _ h d
  | custom c => cases hlib

/-! ## Write sets -/

section

variable {x : List α} {u : Option (List α)} {fault : SizeFault}

omit [Scalar α] in
theorem arguments?_refused {m : Model α s nu} (h : m.check x u = .error fault) :
    arguments? (.model m.name) s nu x u = .error fault := by
  unfold check at h
  cases hargs : arguments? (.model m.name) s nu x u with
  | ok args =>
    rw [hargs] at h
    cases h
  | error fault' =>
    rw [hargs] at h
    have h : (Except.error fault' : Except SizeFault Unit) = .error fault := h
    rw [Except.error.inj h]

theorem evaluateInto_toList (m : Model α s nu) (r : StageReport α) (x : Vec α s.nx)
    (u : Option (Vec α nu)) :
    m.evaluateInto r x.toList (u.map Vec.toList) = .ok (r.withEvaluation (m.evaluate x u)) := by
  cases u <;> simp [evaluateInto, evaluate?, arguments?, state?, control?] <;> rfl

theorem evaluateInto_refused {m : Model α s nu} (h : m.evaluator.check x u = .error fault)
    (r : StageReport α) : m.evaluateInto r x u = .error fault := by
  unfold evaluateInto evaluate?
  rw [arguments?_refused h]
  rfl

/-- Into a report, every model but an integrator writes what its checked expansion says. -/
theorem expandInto_eq {m : Model α s nu} (hlib : m.ofLibrary = true) (r : StageReport α)
    (x : List α) (u : Option (List α)) :
    m.expandInto r x u = (m.expand? x u).map r.withExpansion := by
  cases m with
  | integrator p => cases hlib
  | _ => rfl

theorem expandInto_toList {m : Model α s nu} (hlib : m.ofLibrary = true) (r : StageReport α)
    (x : Vec α s.nx) (u : Option (Vec α nu)) :
    m.expandInto r x.toList (u.map Vec.toList) = .ok (r.withExpansion (m.expand x u)) := by
  rw [expandInto_eq hlib]
  cases u <;> simp [expand?, arguments?, state?, control?] <;> rfl

theorem expandInto_refused {m : Model α s nu} (hlib : m.ofLibrary = true)
    (h : m.check x u = .error fault) (r : StageReport α) : m.expandInto r x u = .error fault := by
  rw [expandInto_eq hlib, expand?, arguments?_refused h]
  rfl

end

/-- **What a model writes.** Arguments of other sizes are refused for them, and the data stay as
they are. All others are served, whatever the data hold: evaluating overwrites cost and next state,
expanding overwrites all derivatives, and what is written is a function of state and control. The
same goes for a report. -/
theorem write_sets {m : Model α s nu} (hlib : m.ofLibrary = true) (x : List α)
    (u : Option (List α)) :
    (m.Takes x u → ∃ (v : Vec α s.nx) (w : Option (Vec α nu)),
      x = v.toList ∧ u = w.map Vec.toList ∧
      (∀ d : LooseData α,
        m.evaluateInPlace x u d = .ok () { d with eval := (m.evaluate v w).toLoose } ∧
        m.expandInPlace x u d = .ok () { d with expansion := (m.expand v w).toLoose }) ∧
      ∀ r : StageReport α,
        m.evaluateInto r x u = .ok (r.withEvaluation (m.evaluate v w)) ∧
        m.expandInto r x u = .ok (r.withExpansion (m.expand v w))) ∧
    (¬ m.Takes x u → ∃ fault fault' : SizeFault,
      (∀ d : LooseData α,
        m.evaluateInPlace x u d = .error (.error (.dimensionMismatch fault)) d ∧
        m.expandInPlace x u d = .error (.error (.dimensionMismatch fault')) d) ∧
      ∀ r : StageReport α,
        m.evaluateInto r x u = .error fault ∧ m.expandInto r x u = .error fault') := by
  constructor
  · intro h
    obtain ⟨v, w, rfl, rfl⟩ := h.exists_typed
    refine ⟨v, w, rfl, rfl, ?_, ?_⟩
    · intro d
      exact ⟨m.run_evaluateInPlace v w d, run_expandInPlace hlib v w d⟩
    · intro r
      exact ⟨m.evaluateInto_toList r v w, expandInto_toList hlib r v w⟩
  · intro h
    obtain ⟨fault, hfault⟩ := exists_check_error (m := m.evaluator) h
    obtain ⟨fault', hfault'⟩ := exists_check_error h
    refine ⟨fault, fault', ?_, ?_⟩
    · intro d
      exact ⟨m.run_evaluateInPlace_refused hfault d, run_expandInPlace_refused hlib hfault' d⟩
    · intro r
      exact ⟨evaluateInto_refused hfault r, expandInto_refused hlib hfault' r⟩

/-- A pendulum in two wrappers of finite differences. -/
theorem write_sets_wrapped :
    let m : Model Float .revolute 1 :=
      .differenced .standard (.differenced .standard (.pendulum .standard))
    m.ofLibrary = true ∧ m.Takes [1, 0, 0] (some [2]) ∧ ¬ m.Takes [1, 0, 0] (some []) ∧
      (∃ eval expansion, ∀ d : LooseData Float,
        m.evaluateInPlace [1, 0, 0] (some [2]) d = .ok () { d with eval } ∧
        m.expandInPlace [1, 0, 0] (some [2]) d = .ok () { d with expansion }) ∧
      ∃ fault fault', ∀ d : LooseData Float,
        m.evaluateInPlace [1, 0, 0] (some []) d = .error (.error (.dimensionMismatch fault)) d ∧
        m.expandInPlace [1, 0, 0] (some []) d = .error (.error (.dimensionMismatch fault')) d := by
  intro m
  have htakes : m.Takes [1, 0, 0] (some [2]) := ⟨rfl, fun v hv => Option.some.inj hv ▸ rfl⟩
  have hrefuses : ¬ m.Takes [1, 0, 0] (some []) := fun h => nomatch h.2 [] rfl
  obtain ⟨v, w, -, -, hserved, -⟩ := (write_sets (m := m) rfl [1, 0, 0] (some [2])).1 htakes
  obtain ⟨fault, fault', hrefused, -⟩ :=
    (write_sets (m := m) rfl [1, 0, 0] (some [])).2 hrefuses
  exact ⟨rfl, htakes, hrefuses, ⟨_, _, hserved⟩, fault, fault', hrefused⟩

end Model

end Shooting
