import Shooting.Proofs.Loose.Stagewise
import Shooting.Solver.Workspace

/-!
# The backward pass in memory

A policy is kept in nine lists, one for each of its parts: those of the value function have an entry
for every stage, the others one for every running stage. A backward pass writes into them stage by
stage, from the last one to the first; where it ends early, the entries before that are the old ones.

`backward_toLoose` says that the lists of a policy are those of another policy afterwards, the one
that `backward` finds, and that nothing clashes on the way; `expected_toLoose` says the same of the
sums over a policy. Stages without controls need no case of their own: they go through the same
steps with empty vectors and matrices.
-/

namespace Shooting

/-! ## The lists -/

structure LooseValue (α : Type) where
  gradient : List α
  hessian : Table α

structure LooseActionValue (α : Type) where
  qx : List α
  qu : List α
  qxx : Table α
  qxu : Table α
  quu : Table α

structure LooseStagePolicy (α : Type) where
  q : LooseActionValue α
  feedforward : List α
  feedback : Table α
  value : LooseValue α

/-- The policy of a problem in memory. -/
structure LoosePolicy (α : Type) where
  vx : List (List α)
  vxx : List (Table α)
  qx : List (List α)
  qu : List (List α)
  qxx : List (Table α)
  qxu : List (Table α)
  quu : List (Table α)
  feedforward : List (List α)
  feedback : List (Table α)

variable {α ε : Type} {s : StateSpace} {ndx nu : Nat} {nus : List Nat}

def ValueModel.toLoose (v : ValueModel α ndx) : LooseValue α := ⟨v.gradient.toList, .ofMat v.hessian⟩

def ActionValue.toLoose (q : ActionValue α ndx nu) : LooseActionValue α :=
  ⟨q.qx.toList, q.qu.toList, .ofMat q.qxx, .ofMat q.qxu, .ofMat q.quu⟩

def StagePolicy.toLoose (p : StagePolicy α ndx nu) : LooseStagePolicy α :=
  ⟨p.q.toLoose, p.gains.feedforward.toList, .ofMat p.gains.feedback, p.value.toLoose⟩

namespace LoosePolicy

/-- The lists of the parts of a policy. -/
def ofStages (running : List (LooseStagePolicy α)) (last : LooseValue α) : LoosePolicy α where
  vx := running.map (fun p => p.value.gradient) ++ [last.gradient]
  vxx := running.map (fun p => p.value.hessian) ++ [last.hessian]
  qx := running.map fun p => p.q.qx
  qu := running.map fun p => p.q.qu
  qxx := running.map fun p => p.q.qxx
  qxu := running.map fun p => p.q.qxu
  quu := running.map fun p => p.q.quu
  feedforward := running.map LooseStagePolicy.feedforward
  feedback := running.map LooseStagePolicy.feedback

/-- The value function of stage `t`. -/
def value (p : LoosePolicy α) (t : Nat) : Loose ε (LooseValue α) := do
  return ⟨← Loose.entry p.vx t, ← Loose.entry p.vxx t⟩

/-- Writes the value function of stage `t`. -/
def putValue (p : LoosePolicy α) (t : Nat) (v : LooseValue α) : Loose ε (LoosePolicy α) := do
  let vx ← Loose.put p.vx t v.gradient
  let vxx ← Loose.put p.vxx t v.hessian
  return { p with vx, vxx }

/-- Writes the quadratic model of stage `t`. -/
def putModel (p : LoosePolicy α) (t : Nat) (q : LooseActionValue α) : Loose ε (LoosePolicy α) := do
  let qx ← Loose.put p.qx t q.qx
  let qu ← Loose.put p.qu t q.qu
  let qxx ← Loose.put p.qxx t q.qxx
  let qxu ← Loose.put p.qxu t q.qxu
  let quu ← Loose.put p.quu t q.quu
  return { p with qx, qu, qxx, qxu, quu }

/-- Writes the gains of stage `t`. -/
def putGains (p : LoosePolicy α) (t : Nat) (k : List α) (K : Table α) : Loose ε (LoosePolicy α) := do
  let feedforward ← Loose.put p.feedforward t k
  let feedback ← Loose.put p.feedback t K
  return { p with feedforward, feedback }

section

variable (pre rest : List (LooseStagePolicy α)) (last : LooseValue α) {t : Nat}

theorem value_ofStages (ht : pre.length = t) (a : LooseStagePolicy α) :
    ((ofStages (pre ++ a :: rest) last).value t : Loose ε _) = .ok a.value := by
  simp [value, ofStages, ht]

theorem value_ofStages_last (ht : pre.length = t) :
    ((ofStages pre last).value t : Loose ε _) = .ok last := by
  simp [value, ofStages, ht]

theorem putValue_ofStages (ht : pre.length = t) (a : LooseStagePolicy α) (v : LooseValue α) :
    ((ofStages (pre ++ a :: rest) last).putValue t v : Loose ε _) =
      .ok (ofStages (pre ++ { a with value := v } :: rest) last) := by
  simp [putValue, ofStages, ht]

theorem putValue_ofStages_last (ht : pre.length = t) (v : LooseValue α) :
    ((ofStages pre last).putValue t v : Loose ε _) = .ok (ofStages pre v) := by
  simp [putValue, ofStages, ht]

theorem putModel_ofStages (ht : pre.length = t) (a : LooseStagePolicy α) (q : LooseActionValue α) :
    ((ofStages (pre ++ a :: rest) last).putModel t q : Loose ε _) =
      .ok (ofStages (pre ++ { a with q } :: rest) last) := by
  simp [putModel, ofStages, ht]

theorem putGains_ofStages (ht : pre.length = t) (a : LooseStagePolicy α) (k : List α)
    (K : Table α) :
    ((ofStages (pre ++ a :: rest) last).putGains t k K : Loose ε _) =
      .ok (ofStages (pre ++ { a with feedforward := k, feedback := K } :: rest) last) := by
  simp [putGains, ofStages, ht]

end

end LoosePolicy

/-- The parts of a policy for the running stages. -/
def Policy.looseStages (p : Policy α ndx nus) : List (LooseStagePolicy α) :=
  Horizon.running StagePolicy.toLoose p

/-- Forgets the sizes of a policy. -/
def Policy.toLoose (p : Policy α ndx nus) : LoosePolicy α :=
  .ofStages p.looseStages (Horizon.final p).toLoose

theorem Policy.looseStages_stage (p : StagePolicy α ndx nu) (ps : Policy α ndx nus) :
    Policy.looseStages (.stage p ps) = p.toLoose :: ps.looseStages := rfl

/-! ## The backward pass -/

variable [Scalar α]

namespace LooseActionValue

/-- The quadratic model of a stage whose successor has the value function `next`. -/
def ofExpansion (e : LooseExpansion α) (next : LooseValue α) (damping : α) :
    Loose ε (LooseActionValue α) := do
  let fxv ← Loose.mul (Loose.transpose e.fx) next.hessian
  let qxx ← Loose.addMat e.lxx (← Loose.mul fxv e.fx)
  let qx ← Loose.add e.lx (← Loose.mulVec (Loose.transpose e.fx) next.gradient)
  let fuv ← Loose.mul (Loose.transpose e.fu) next.hessian
  let qxu ← Loose.addMat e.lxu (← Loose.mul fxv e.fu)
  let qu ← Loose.add e.lu (← Loose.mulVec (Loose.transpose e.fu) next.gradient)
  let quu ← Loose.addMat e.luu (← Loose.mul fuv e.fu)
  return { qx, qu, qxx, qxu, quu := Loose.addDiagonal quu damping }

/-- What a solver of linear systems refuses for want of a fit is a clash. -/
def solved {β : Type} : Except MatrixError β → Loose ε β
  | .ok b => .ok b
  | .error _ => .error .misuse

/-- The minimizing policy of a quadratic model, if `Quu` has a Cholesky factor. -/
def gains (q : LooseActionValue α) : Loose ε (Option (List α × Table α)) :=
  match CholeskySolver.new.factorize q.quu with
  | (solver, .ok ()) => do
    let k ← solved (solver.solveVec q.qu)
    let K ← solved (solver.solve (Loose.transpose q.qxu))
    return some (k, K)
  | (_, .error (.notPositiveDefinite _)) => return none
  | (_, .error (.numericalInstability _)) => return none
  | (_, .error _) => .error .misuse

/-- A value function with its Hessian regularized and its gradient moved across the gap of stage
`t`, unless the path is feasible. -/
def across (gradient : List α) (hessian : Table α) (damping : α) (feasible : Bool)
    (gaps : List (List α)) (t : Nat) : Loose ε (LooseValue α) := do
  let hessian := Loose.addDiagonal hessian damping
  if feasible then return ⟨gradient, hessian⟩
  else return ⟨← Loose.add gradient (← Loose.mulVec hessian (← Loose.entry gaps t)), hessian⟩

/-- The value function of stage `t` under its policy. -/
def value (q : LooseActionValue α) (k : Table α) (damping : α) (feasible : Bool)
    (gaps : List (List α)) (t : Nat) : Loose ε (LooseValue α) := do
  let vx ← Loose.sub q.qx (← Loose.mulVec (Loose.transpose k) q.qu)
  let vxx ← Loose.subMat q.qxx (← Loose.mul q.qxu k)
  let vxx ← Loose.addMat vxx (Loose.transpose vxx)
  across vx (Loose.scaleMat vxx 0.5) damping feasible gaps t

theorem ofExpansion_toLoose (e : Expansion α ndx nu) (next : ValueModel α ndx) (damping : α) :
    (ofExpansion e.toLoose next.toLoose damping : Loose ε _) =
      .ok (ActionValue.ofExpansion e next damping).toLoose := by
  simp only [ofExpansion, Expansion.toLoose, ValueModel.toLoose, Loose.transpose_ofMat,
    Loose.mul_ofMat, Loose.addMat_ofMat, Loose.mulVec_ofMat, Loose.add_toList,
    Loose.addDiagonal_ofMat, Loose.ok_bind, Loose.pure_eq]
  rfl

theorem gains_toLoose (q : ActionValue α ndx nu) :
    (gains q.toLoose : Loose ε _) =
      .ok (q.gains?.map fun g => (g.feedforward.toList, .ofMat g.feedback)) := by
  have hquu : q.toLoose.quu = .ofMat q.quu := rfl
  unfold gains ActionValue.gains?
  rw [hquu, CholeskySolver.factorize_ofMat]
  by_cases hfinite : q.quu.isFinite = true
  · rw [if_pos hfinite, if_pos hfinite]
    cases cholesky q.quu with
    | error i => rfl
    | ok l =>
      show (solved (CholeskySolver.solveVec ⟨some ⟨nu, l⟩, nu⟩ q.qu.toList) >>= fun k =>
        solved (CholeskySolver.solve ⟨some ⟨nu, l⟩, nu⟩ (Loose.transpose (.ofMat q.qxu))) >>= fun K =>
          pure (some (k, K))) = _
      rw [CholeskySolver.solveVec_toList, Loose.transpose_ofMat, CholeskySolver.solve_ofMat]
      rfl
  · rw [if_neg hfinite, if_neg hfinite]
    rfl

theorem across_toLoose (gradient : Vec α ndx) (hessian : Mat α ndx ndx) (damping : α)
    (feasible : Bool) {gaps : List (List α)} {t : Nat} {gap : Vec α ndx}
    (h : (Loose.entry gaps t : Loose ε _) = .ok gap.toList) :
    (across gradient.toList (.ofMat hessian) damping feasible gaps t : Loose ε _) =
      .ok (ValueModel.across gradient hessian damping
        (if feasible then none else some gap)).toLoose := by
  unfold across
  cases feasible with
  | true => rw [if_pos rfl, if_pos rfl, Loose.addDiagonal_ofMat]; rfl
  | false =>
    simp only [Bool.false_eq_true, if_false, Loose.addDiagonal_ofMat, h, Loose.ok_bind,
      Loose.mulVec_ofMat, Loose.add_toList]
    rfl

theorem value_toLoose (q : ActionValue α ndx nu) (g : Gains α ndx nu) (damping : α)
    (feasible : Bool) {gaps : List (List α)} {t : Nat} {gap : Vec α ndx}
    (h : (Loose.entry gaps t : Loose ε _) = .ok gap.toList) :
    (value q.toLoose (.ofMat g.feedback) damping feasible gaps t : Loose ε _) =
      .ok (q.value g damping (if feasible then none else some gap)).toLoose := by
  simp only [value, ActionValue.toLoose, Loose.transpose_ofMat, Loose.mulVec_ofMat, Loose.sub_toList,
    Loose.mul_ofMat, Loose.subMat_ofMat, Loose.addMat_ofMat, Loose.scaleMat_ofMat, Loose.ok_bind,
    across_toLoose _ _ damping feasible h]
  rfl

end LooseActionValue

namespace LooseProblem

open LooseActionValue

/-- The start of a backward pass: there is no control at the end, only the cost and the gap. -/
def backwardTerminal (p : LooseProblem α) (damping : Damping α) (feasible : Bool)
    (gaps : List (List α)) (policy : LoosePolicy α) :
    Loose ε (LoosePolicy α × Option BackwardFailure) := do
  let e := p.terminalData.expansion
  let v ← across e.lx e.lxx damping.state feasible gaps p.horizon
  if v.gradient.all Scalar.isFinite then return (← policy.putValue p.horizon v, none)
  else return (policy, some .finalGradient)

/-- One step of a backward pass, at running stage `t`. -/
def backwardStage (p : LooseProblem α) (damping : Damping α) (feasible : Bool)
    (gaps : List (List α)) (policy : LoosePolicy α) (t : Nat) :
    Loose ε (LoosePolicy α × Option BackwardFailure) := do
  let d ← Loose.entry p.datas t
  let q ← ofExpansion d.expansion (← policy.value (t + 1)) damping.control
  let policy ← policy.putModel t q
  match ← gains q with
  | none => return (policy, some (.indefinite t))
  | some (k, K) =>
    let policy ← policy.putGains t k K
    let v ← value q K damping.state feasible gaps t
    if v.gradient.all Scalar.isFinite then return (← policy.putValue t v, none)
    else return (policy, some (.gradient t))

/-- A backward pass up to the last `n` running stages. -/
def backwardRounds (p : LooseProblem α) (damping : Damping α) (feasible : Bool)
    (gaps : List (List α)) (policy : LoosePolicy α) :
    (n : Nat) → Loose ε (LoosePolicy α × Option BackwardFailure)
  | 0 => p.backwardTerminal damping feasible gaps policy
  | n + 1 => do
    let (policy, failure) ← p.backwardRounds damping feasible gaps policy n
    match failure with
    | some failure => return (policy, some failure)
    | none => p.backwardStage damping feasible gaps policy (p.horizon - (n + 1))

/-- The backward pass over a whole problem. -/
def backward (p : LooseProblem α) (damping : Damping α) (feasible : Bool) (gaps : List (List α))
    (policy : LoosePolicy α) : Loose ε (LoosePolicy α × Option BackwardFailure) :=
  p.backwardRounds damping feasible gaps policy p.horizon

end LooseProblem

/-- The step of a backward pass at a running stage. -/
def StagePolicy.step (damping : Damping α) (feasible : Bool) (t : Nat) (st : Stage α s nu)
    (gap : Vec α s.ndx) (old : StagePolicy α s.ndx nu) (next : ValueModel α s.ndx) :
    StagePolicy α s.ndx nu × Option BackwardFailure :=
  let q := ActionValue.ofExpansion st.data.expansion next damping.control
  match q.gains? with
  | none => ({ old with q }, some (.indefinite t))
  | some gains =>
    let value := q.value gains damping.state (if feasible then none else some gap)
    if value.gradient.isFinite then (⟨q, gains, value⟩, none)
    else ({ old with q, gains }, some (.gradient t))

theorem backwardFrom_stage (damping : Damping α) (feasible : Bool) (t : Nat) (st : Stage α s nu)
    (rest : Stages α s nus) (gap : Vec α s.ndx) (gaps : Gaps α s nus)
    (old : StagePolicy α s.ndx nu) (olds : Policy α s.ndx nus) :
    backwardFrom damping feasible t (.stage st rest) (.stage gap gaps) (.stage old olds) =
      match backwardFrom damping feasible (t + 1) rest gaps olds with
      | (after, some failure) => (.stage old after, some failure)
      | (after, none) =>
        let found := StagePolicy.step damping feasible t st gap old after.head
        (.stage found.1 after, found.2) := by
  rw [backwardFrom]
  obtain ⟨after, failure⟩ := backwardFrom damping feasible (t + 1) rest gaps olds
  cases failure with
  | some failure => rfl
  | none =>
    unfold StagePolicy.step
    dsimp only
    cases (ActionValue.ofExpansion st.data.expansion after.head damping.control).gains? with
    | none => rfl
    | some gains =>
      dsimp only
      generalize ActionValue.value _ gains damping.state _ = value
      cases value.gradient.isFinite <;> rfl

namespace LooseProblem

open LooseActionValue

variable (p : LooseProblem α) (damping : Damping α) (feasible : Bool) {gaps : List (List α)}

theorem backwardStage_toLoose {pre rest : List (LooseStagePolicy α)} {last : LooseValue α}
    {st : Stage α s nu} {gap : Vec α s.ndx} {next : ValueModel α s.ndx} {t : Nat}
    (ht : pre.length = t)
    (hdata : (Loose.entry p.datas t : Loose ε _) = .ok st.data.toLoose)
    (hgap : (Loose.entry gaps t : Loose ε _) = .ok gap.toList)
    (old : StagePolicy α s.ndx nu)
    (hnext : ((LoosePolicy.ofStages (pre ++ old.toLoose :: rest) last).value (t + 1) :
      Loose ε _) = .ok next.toLoose) :
    (p.backwardStage damping feasible gaps
        (.ofStages (pre ++ old.toLoose :: rest) last) t : Loose ε _) =
      .ok (.ofStages (pre ++
          (StagePolicy.step damping feasible t st gap old next).1.toLoose :: rest) last,
        (StagePolicy.step damping feasible t st gap old next).2) := by
  have hexpansion : st.data.toLoose.expansion = st.data.expansion.toLoose := rfl
  unfold backwardStage StagePolicy.step
  rw [hdata, Loose.ok_bind, hnext, Loose.ok_bind, hexpansion, ofExpansion_toLoose, Loose.ok_bind,
    LoosePolicy.putModel_ofStages pre rest last ht, Loose.ok_bind, gains_toLoose, Loose.ok_bind]
  dsimp only
  generalize ActionValue.ofExpansion st.data.expansion next damping.control = q
  cases q.gains? with
  | none => rfl
  | some g =>
    rw [Option.map_some]
    dsimp only
    rw [LoosePolicy.putGains_ofStages pre rest last ht, Loose.ok_bind,
      value_toLoose q g damping.state feasible hgap, Loose.ok_bind]
    generalize q.value g damping.state _ = v
    have hfinite : v.toLoose.gradient.all Scalar.isFinite = v.gradient.isFinite :=
      v.gradient.all_toList
    rw [hfinite]
    by_cases hv : v.gradient.isFinite = true
    · rw [if_pos hv, if_pos hv, LoosePolicy.putValue_ofStages pre rest last ht]
      rfl
    · rw [if_neg hv, if_neg hv]
      rfl

omit [Scalar α] in
theorem first_looseStages (policy : Policy α ndx nus) (pre : List (LooseStagePolicy α)) :
    ((LoosePolicy.ofStages (pre ++ policy.looseStages) (Horizon.final policy).toLoose).value
      pre.length : Loose ε _) = .ok policy.head.toLoose := by
  cases policy with
  | last v =>
    show ((LoosePolicy.ofStages (pre ++ []) v.toLoose).value pre.length : Loose ε _) = _
    rw [List.append_nil]
    exact LoosePolicy.value_ofStages_last pre v.toLoose rfl
  | stage a rest => exact LoosePolicy.value_ofStages pre _ _ rfl a.toLoose

/-- The rounds of a backward pass over the stages behind those that `pre` belongs to. -/
theorem backwardRounds_toLoose : ∀ {nus : List Nat} (pre : List (LooseStagePolicy α))
    (stages : Stages α s nus) (fs : Gaps α s nus) (old : Policy α s.ndx nus),
    p.horizon = pre.length + nus.length →
    p.datas.drop pre.length = stages.toLoose.map LooseStage.data →
    p.terminalData = stages.final.data.toLoose →
    gaps.drop pre.length = fs.toLists →
    (p.backwardRounds damping feasible gaps
        (.ofStages (pre ++ old.looseStages) (Horizon.final old).toLoose) nus.length : Loose ε _) =
      .ok (.ofStages (pre ++
          (backwardFrom damping feasible pre.length stages fs old).1.looseStages)
          (Horizon.final (backwardFrom damping feasible pre.length stages fs old).1).toLoose,
        (backwardFrom damping feasible pre.length stages fs old).2)
  | _, pre, .last st, .last f, .last old, hlength, _, hterminal, hgaps => by
    have hhorizon : (pre ++ ([] : List (LooseStagePolicy α))).length = p.horizon := by
      rw [List.append_nil]
      exact hlength.symm
    have hgap : (Loose.entry gaps p.horizon : Loose ε _) = .ok f.toList := by
      rw [hlength]
      exact Loose.entry_of_drop hgaps
    have hfinite (v : ValueModel α s.ndx) :
        v.toLoose.gradient.all Scalar.isFinite = v.gradient.isFinite := v.gradient.all_toList
    rw [List.length_nil, backwardRounds, backwardTerminal, hterminal, backwardFrom]
    show (across st.data.expansion.lx.toList (.ofMat st.data.expansion.lxx) damping.state feasible
      gaps p.horizon >>= _) = _
    rw [across_toLoose _ _ damping.state feasible hgap, Loose.ok_bind, hfinite]
    generalize ValueModel.across _ _ damping.state _ = v
    by_cases hv : v.gradient.isFinite = true
    · rw [if_pos hv, if_pos hv]
      show (LoosePolicy.putValue (.ofStages (pre ++ []) old.toLoose) p.horizon v.toLoose >>= _) = _
      rw [LoosePolicy.putValue_ofStages_last _ _ hhorizon]
      rfl
    · rw [if_neg hv, if_neg hv]
      rfl
  | _ :: nus, pre, .stage st rest, .stage f fs, .stage old olds, hlength, hdatas, hterminal,
      hgaps => by
    have hrest := backwardRounds_toLoose (pre ++ [old.toLoose]) rest fs olds
      (by rw [hlength, List.length_append, List.length_cons, List.length_singleton]; omega)
      (by rw [List.length_append]; exact Loose.drop_succ hdatas) hterminal
      (by rw [List.length_append]; exact Loose.drop_succ hgaps)
    rw [← List.append_cons, List.length_append, List.length_singleton] at hrest
    have hindex : p.horizon - (nus.length + 1) = pre.length := by
      rw [hlength, List.length_cons]
      omega
    rw [List.length_cons, backwardRounds, Policy.looseStages_stage, backwardFrom_stage]
    refine (congrArg (· >>= _) hrest).trans ?_
    rw [Loose.ok_bind, hindex]
    generalize backwardFrom damping feasible (pre.length + 1) rest fs olds = found
    obtain ⟨after, failure⟩ := found
    rw [← List.append_cons]
    cases failure with
    | some failure => rfl
    | none =>
      have hnext := first_looseStages (ε := ε) after (pre ++ [old.toLoose])
      rw [← List.append_cons, List.length_append] at hnext
      exact p.backwardStage_toLoose damping feasible rfl (Loose.entry_of_drop hdatas)
        (Loose.entry_of_drop hgaps) old hnext

/-- **The backward pass in memory is the backward pass.** -/
theorem backward_toLoose (q : Problem α s nus) (fs : Gaps α s nus) (old : Policy α s.ndx nus) :
    (q.toLoose.backward damping feasible fs.toLists old.toLoose : Loose ε _) =
      .ok ((Shooting.backward damping feasible q.stages fs old).1.toLoose,
        (Shooting.backward damping feasible q.stages fs old).2) := by
  have h := backwardRounds_toLoose (ε := ε) q.toLoose damping feasible [] q.stages fs old
    (by rw [horizon_toLoose, List.length_nil, Nat.zero_add]) rfl rfl rfl
  unfold backward
  rw [horizon_toLoose]
  exact h

end LooseProblem

/-! ## What a policy promises -/

namespace LoosePolicy

/-- Adds the part of running stage `t`. -/
def addStage (p : LoosePolicy α) (e : ExpectedImprovement α) (t : Nat) :
    Loose ε (ExpectedImprovement α) := do
  let qu ← Loose.entry p.qu t
  let k ← Loose.entry p.feedforward t
  let quu ← Loose.entry p.quu t
  return {
    first := e.first + (← Loose.dot qu k)
    second := e.second - (← Loose.dot k (← Loose.mulVec quu k))
    stop := e.stop + Loose.normSq qu }

/-- Adds the part of the gap of stage `t`. -/
def addGap (p : LoosePolicy α) (gaps : List (List α)) (e : ExpectedImprovement α) (t : Nat) :
    Loose ε (ExpectedImprovement α) := do
  let v ← p.value t
  let f ← Loose.entry gaps t
  return { e with
    first := e.first - (← Loose.dot v.gradient f)
    second := e.second + (← Loose.dot f (← Loose.mulVec v.hessian f)) }

/-- What a policy promises, with the gaps unless the path is feasible. -/
def expected (p : LoosePolicy α) (gaps : List (List α)) (horizon : Nat) (feasible : Bool) :
    Loose ε (ExpectedImprovement α) := do
  let e ← (List.range horizon).foldlM p.addStage ⟨0, 0, 0⟩
  if feasible then return e else (List.range gaps.length).foldlM (p.addGap gaps) e

theorem addStage_ofStages (pre rest : List (LooseStagePolicy α)) (last : LooseValue α)
    (e : ExpectedImprovement α) (a : StagePolicy α ndx nu) :
    ((ofStages (pre ++ a.toLoose :: rest) last).addStage e pre.length : Loose ε _) =
      .ok (e.addStage a) := by
  simp [addStage, ofStages, StagePolicy.toLoose, ActionValue.toLoose, ExpectedImprovement.addStage]

/-- The sum over the stages behind those that `pre` belongs to. -/
theorem addStages_ofStages (last : LooseValue α) : ∀ {nus : List Nat}
    (pre : List (LooseStagePolicy α)) (policy : Policy α ndx nus) (e : ExpectedImprovement α),
    ((List.range' pre.length nus.length).foldlM
        (ofStages (pre ++ policy.looseStages) last).addStage e : Loose ε _) =
      .ok (Horizon.foldl ExpectedImprovement.addStage e policy)
  | _, _, .last _, _ => rfl
  | _, pre, .stage a rest, e => by
    have hrest := addStages_ofStages last (pre ++ [a.toLoose]) rest (e.addStage a)
    rw [← List.append_cons, List.length_append] at hrest
    rw [List.length_cons, List.range'_succ, List.foldlM_cons, Policy.looseStages_stage,
      addStage_ofStages, Loose.ok_bind]
    exact hrest

theorem addGap_eq {p : LoosePolicy α} {gaps : List (List α)} {t : Nat} {v : ValueModel α ndx}
    {f : Vec α ndx} (hvalue : (p.value t : Loose ε _) = .ok v.toLoose)
    (hgap : (Loose.entry gaps t : Loose ε _) = .ok f.toList) (e : ExpectedImprovement α) :
    (p.addGap gaps e t : Loose ε _) = .ok (e.addGap v f) := by
  unfold addGap
  rw [hvalue, hgap]
  simp only [ValueModel.toLoose, Loose.ok_bind, Loose.dot_toList, Loose.mulVec_ofMat]
  rfl

/-- The sum over the gaps from where `pre` ends. -/
theorem addGaps_ofStages {gaps : List (List α)} : ∀ {nus : List Nat}
    (pre : List (LooseStagePolicy α)) (policy : Policy α s.ndx nus) (fs : Gaps α s nus)
    (e : ExpectedImprovement α), gaps.drop pre.length = fs.toLists →
    ((List.range' pre.length (nus.length + 1)).foldlM
        ((ofStages (pre ++ policy.looseStages) (Horizon.final policy).toLoose).addGap gaps) e :
          Loose ε _) = .ok (e.addGaps policy fs)
  | _, pre, .last v, .last f, e, hgaps => by
    have hvalue := LooseProblem.first_looseStages (ε := ε) (.last v : Policy α s.ndx []) pre
    rw [List.length_nil, Nat.zero_add, List.range'_one, List.foldlM_cons,
      addGap_eq hvalue (Loose.entry_of_drop hgaps), Loose.ok_bind]
    rfl
  | _ :: nus, pre, .stage a rest, .stage f fs, e, hgaps => by
    have hvalue := LooseProblem.first_looseStages (ε := ε) (.stage a rest) pre
    have hrest := addGaps_ofStages (pre ++ [a.toLoose]) rest fs (e.addGap a.value f)
      (by rw [List.length_append]; exact Loose.drop_succ hgaps)
    rw [← List.append_cons, List.length_append] at hrest
    rw [List.length_cons, List.range'_succ, List.foldlM_cons,
      addGap_eq hvalue (Loose.entry_of_drop hgaps), Loose.ok_bind]
    exact hrest

/-- **The promise of a policy in memory is that of the policy.** -/
theorem expected_toLoose (policy : Policy α s.ndx nus) (fs : Gaps α s nus) (feasible : Bool) :
    (policy.toLoose.expected fs.toLists nus.length feasible : Loose ε _) =
      .ok (ExpectedImprovement.ofPolicy policy fs feasible) := by
  have hstages := addStages_ofStages (ε := ε) (Horizon.final policy).toLoose [] policy ⟨0, 0, 0⟩
  have hgaps := addGaps_ofStages (ε := ε) [] policy fs
    (Horizon.foldl ExpectedImprovement.addStage ⟨0, 0, 0⟩ policy) rfl
  have hlength : fs.toLists.length = nus.length + 1 := Horizon.length_toList _ _ fs
  unfold expected ExpectedImprovement.ofPolicy
  rw [hlength, List.range_eq_range', List.range_eq_range']
  refine (congrArg (· >>= _) hstages).trans ?_
  rw [Loose.ok_bind]
  cases feasible with
  | true => rfl
  | false => exact hgaps

end LoosePolicy

end Shooting
