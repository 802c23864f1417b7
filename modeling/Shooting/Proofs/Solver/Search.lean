import Shooting.Proofs.Double.Halving
import Shooting.Proofs.Solver.Finiteness
import Shooting.Proofs.Solver.Regularization

/-!
# Which step a line search takes

A line search tries candidates on the stages of the problem itself, and goes on from whatever the
last one has left there. Still it is no more than a search for the first number that passes a test:
`Workspace.candidate` is a function of the workspace and of what the problem asks, and so is
`Workspace.Qualifies`, which says that the candidate with a given number consists of ordinary
numbers and is good enough. `Workspace.Explores` says what a search comes to in these terms
(`explores_lineSearch`).

`Run.SearchedFirst` says what follows for an iteration: it accepts the first candidate that
qualifies, and takes path and cost, the flag and the regularization from that one alone; and if none
qualifies it leaves everything but the regularization as it was.

The test of the solver asks only whether the promise is not negative. That all other promises are
negative takes a law, and so does that no halving of a full step is a full one (`SearchScalar`). The
lengths of the candidates are such halvings as long as their numbers are below `2 ^ 31`.
-/

namespace Shooting

/-! ## Laws -/

/-- The laws that a line search rests on. -/
class SearchScalar (α : Type) [Scalar α] : Prop extends OrderedScalar α where
  isNaN_of_lt {a b : α} : a < b → Scalar.isNaN a = false
  isNaN_of_mul {a b : α} : Scalar.isNaN (a * b) = false → Scalar.isNaN b = false
  half_one : 0 ≤ (0.5 * 1 : α) ∧ (0.5 * 1 : α) < 1
  /-- Halving may lose bits, but not the sign. -/
  half_le {a : α} : 0 ≤ a → 0 ≤ 0.5 * a ∧ 0.5 * a ≤ a

instance : SearchScalar ℝ where
  isNaN_of_lt _ := rfl
  isNaN_of_mul _ := rfl
  half_one := by norm_num
  half_le ha := by constructor <;> linarith

namespace Double

open Float.Model (UnpackedFloat)

variable {a b : Float}

theorem isNaN_pack_notANumber : Float.isNaN ⟨.pack .notANumber⟩ = true := by decide +kernel

theorem mul_notANumber (u : UnpackedFloat) :
    UnpackedFloat.mul .binary64 u .notANumber = .notANumber := by
  cases u <;> rfl

theorem isNaN_of_mul (h : (a * b).isNaN = false) : b.isNaN = false := by
  rw [mul_eq] at h
  by_contra hnan
  have hunpack : b.toModel.unpack = .notANumber := by
    change ¬ b.toModel.unpack.isNaN = false at hnan
    generalize b.toModel.unpack = u at hnan
    cases u with
    | notANumber => rfl
    | _ => exact absurd rfl hnan
  rw [hunpack, mul_notANumber, isNaN_pack_notANumber] at h
  cases h

theorem half_le (h : 0 ≤ a) : 0 ≤ 0.5 * a ∧ 0.5 * a ≤ a := by
  obtain ⟨hzero, hnum, hrank⟩ := le_iff.mp h
  rw [le_iff, le_iff, rankOf_zero]
  rw [rankOf_zero] at hrank
  rcases hrank.lt_or_eq with hpos | hflat
  · obtain ⟨hnum', hlo, hhi, -⟩ := rankOf_half hnum hpos
    exact ⟨⟨hzero, hnum', by omega⟩, hnum', hnum, hhi⟩
  · obtain ⟨hnum', hflat'⟩ := half_of_zero hnum hflat.symm
    exact ⟨⟨hzero, hnum', hflat'.ge⟩, hnum', hnum, by omega⟩

end Double

instance : SearchScalar Float where
  isNaN_of_lt h := (Double.lt_iff.mp h).1
  isNaN_of_mul := Double.isNaN_of_mul
  half_one := by decide +kernel
  half_le h := by
    have hle := Double.half_le (Double.scalar_zero ▸ h)
    exact ⟨Double.scalar_zero ▸ hle.1, hle.2⟩

variable {α : Type} [Scalar α] {s : StateSpace} {nus : List Nat}

section

variable [SearchScalar α]

theorem SearchScalar.one_beq_one : ((1 : α) == 1) = true := by
  have hle := OrderedScalar.le_refl (isNaN_of_mul (isNaN_of_lt (@half_one α _ _).2))
  exact OrderedScalar.beq_iff.mpr ⟨hle, hle⟩

/-- After the first halving nothing rises again. -/
theorem halving_succ_le : ∀ i : Nat,
    0 ≤ (halving (i + 1) : α) ∧ (halving (i + 1) : α) ≤ halving 1
  | 0 => ⟨SearchScalar.half_one.1,
      OrderedScalar.le_refl (SearchScalar.isNaN_of_lt SearchScalar.half_one.2)⟩
  | i + 1 => by
    obtain ⟨hpos, hle⟩ := halving_succ_le i
    obtain ⟨hpos', hle'⟩ := SearchScalar.half_le hpos
    exact ⟨hpos', OrderedScalar.le_trans hle' hle⟩

/-- Halved at least once, one is no longer one. -/
theorem halving_beq_one_iff (i : Nat) : ((halving i : α) == 1) = true ↔ i = 0 := by
  refine ⟨?_, ?_⟩
  · intro hfull
    cases i with
    | zero => rfl
    | succ i =>
      have hone : 1 ≤ (halving 1 : α) :=
        OrderedScalar.le_trans (OrderedScalar.beq_iff.mp hfull).2 (halving_succ_le i).2
      exact absurd (OrderedScalar.lt_of_lt_of_le SearchScalar.half_one.2 hone)
        (OrderedScalar.lt_irrefl _)
  · rintro rfl
    exact SearchScalar.one_beq_one

/-- **The first candidate of a line search is the only full step**, as far as lengths are halved. -/
theorem stepLength_beq_one_iff {i : Nat} (h : i < 2 ^ 31) :
    ((stepLength i : α) == 1) = true ↔ i = 0 := by
  rw [stepLength_of_lt h]
  exact halving_beq_one_iff i

end

/-! ## The test -/

/-- A step is good enough if the promise is too small to matter, or if the actual reduction exceeds
what is asked of a promised reduction or of a promised increase. -/
def Config.Admits (c : Config α) (actual expected d1 : α) : Prop :=
  Scalar.abs d1 < c.gradientThreshold ∨
    (0 ≤ expected ∧ c.acceptanceRatio * expected < actual) ∨
    (expected < 0 ∧ c.negativeAcceptanceRatio * expected < actual)

/-- The test of the solver takes a promise that compares with nothing for an increase, and admits
nothing on that. -/
theorem Config.accepts_iff [SearchScalar α] {c : Config α} {actual expected d1 : α} :
    c.accepts actual expected d1 = true ↔ c.Admits actual expected d1 := by
  unfold accepts Admits
  split
  next hsmall => exact iff_of_true rfl (.inl hsmall)
  next hsmall =>
    rw [or_iff_right hsmall]
    split
    next hgain =>
      have hnot : ¬ expected < 0 := fun hlt =>
        OrderedScalar.lt_irrefl _ (OrderedScalar.lt_of_lt_of_le hlt hgain)
      rw [decide_eq_true_iff, or_iff_left fun h => hnot h.1, and_iff_right hgain]
    -- a promise that compares with nothing comes here, too
    next hgain =>
      have hneg (h : c.negativeAcceptanceRatio * expected < actual) : expected < 0 := by
        have hnum := SearchScalar.isNaN_of_mul (SearchScalar.isNaN_of_lt h)
        have hzero := OrderedScalar.isNaN_of_isFinite (@OrderedScalar.isFinite_zero α _ _)
        by_contra hge
        exact hgain (OrderedScalar.le_of_not_lt hnum hzero hge)
      rw [decide_eq_true_iff, or_iff_right fun h => hgain h.1, and_iff_right_of_imp hneg]

namespace Workspace

variable {c : Config α} {w : Workspace α s nus} {p q : Problem α s nus}

/-- Candidate number `i` consists of ordinary numbers, and so do costs and next states along it, and
it is good enough. -/
structure Qualifies (w : Workspace α s nus) (c : Config α) (p : Problem α s nus) (i : Nat) :
    Prop where
  finite : p.FiniteAlong (w.candidate p (stepLength i))
  admitted : c.Admits (w.cost - p.costAlong (w.candidate p (stepLength i)))
    (w.expected.reduction (stepLength i)) w.expected.first

/-- Of all candidates that qualify, number `i` comes first. -/
structure QualifiesFirst (w : Workspace α s nus) (c : Config α) (p : Problem α s nus) (i : Nat) :
    Prop extends w.Qualifies c p i where
  first : ∀ j < i, ¬ w.Qualifies c p j

theorem QualifiesFirst.unique {i j : Nat} (hi : w.QualifiesFirst c p i)
    (hj : w.QualifiesFirst c p j) : i = j := by
  rcases Nat.lt_trichotomy i j with hlt | heq | hgt
  · exact absurd hi.toQualifies (hj.first i hlt)
  · exact heq
  · exact absurd hj.toQualifies (hi.first j hgt)

/-! ## The search -/

/-- The step to candidate number `i`. -/
def stepTo (w : Workspace α s nus) (p : Problem α s nus) (i : Nat) : Found α s nus where
  length := stepLength i
  cost := p.costAlong (w.candidate p (stepLength i))
  path := w.candidate p (stepLength i)

/-- What a search among the candidates from number `i` on, `n` in all, comes to. -/
inductive Explores (w : Workspace α s nus) (c : Config α) (p : Problem α s nus) (i n : Nat)
    (search : LineSearch α s nus) : Prop where
  | found {j : Nat} (above : i ≤ j) (below : j < i + n) (qualifies : w.Qualifies c p j)
      (first : ∀ k, i ≤ k → k < j → ¬ w.Qualifies c p k) (htried : search.tried = j + 1)
      (hfound : search.found = some (w.stepTo p j))
  | exhausted (absent : ∀ k, i ≤ k → k < i + n → ¬ w.Qualifies c p k)
      (htried : search.tried = i + n) (hfound : search.found = none)

/-- A candidate that does not qualify makes no difference to the search after it. -/
theorem Explores.skip {i n : Nat} {search : LineSearch α s nus} (hnot : ¬ w.Qualifies c p i)
    (h : w.Explores c p (i + 1) n search) : w.Explores c p i (n + 1) search := by
  have skipped {m : Nat} (hlater : ∀ k, i + 1 ≤ k → k < m → ¬ w.Qualifies c p k) (k : Nat)
      (hle : i ≤ k) (hlt : k < m) : ¬ w.Qualifies c p k := by
    rcases hle.lt_or_eq with habove | rfl
    · exact hlater k habove hlt
    · exact hnot
  have hend : i + 1 + n = i + (n + 1) := by omega
  cases h with
  | found above below qualifies first htried hfound =>
    exact .found (Nat.le_of_succ_le above) (hend ▸ below) qualifies (skipped first) htried hfound
  | exhausted absent htried hfound =>
    exact .exhausted (skipped (hend ▸ absent)) (htried.trans hend) hfound

variable [SearchScalar α]

/-- The induction is on the number of candidates left. What the stages remember of earlier ones is
not asked for, since the problem is still the same. -/
theorem explores_lineSearchFrom (c : Config α) (w : Workspace α s nus) :
    ∀ (n i : Nat) (length : α) {q : Problem α s nus}, q.Same p →
      w.Explores c p i n (lineSearchFrom c w n i length q)
  | 0, i, length, q, _ => .exhausted (by omega) rfl rfl
  | n + 1, i, length, q, h => by
    have hsame := (w.tryStep_reevaluates q (stepLength i)).toSame.trans h
    unfold lineSearchFrom
    dsimp only
    split
    next q' cost path htry =>
      rw [htry] at hsame
      obtain ⟨rfl, rfl, hfinite⟩ := candidate_of_tryStep h htry
      split
      next hacc =>
        exact .found le_rfl (by omega) ⟨hfinite, Config.accepts_iff.mp hacc⟩ (by omega) rfl rfl
      next hacc =>
        have hnot : ¬ w.Qualifies c p i := fun hq => hacc (Config.accepts_iff.mpr hq.admitted)
        exact (explores_lineSearchFrom c w n (i + 1) _ hsame).skip hnot
    -- given up halfway, but the stages are still those of the same problem
    next q' htry =>
      rw [htry] at hsame
      have hnot : ¬ w.Qualifies c p i := fun hq => not_finiteAlong_of_tryStep h htry hq.finite
      exact (explores_lineSearchFrom c w n (i + 1) _ hsame).skip hnot

/-- **A line search is a search for the first candidate that qualifies.** -/
theorem explores_lineSearch (c : Config α) (w : Workspace α s nus) (h : q.Same p) :
    w.Explores c p 0 c.lineSearchSteps (lineSearch c w q) :=
  explores_lineSearchFrom c w _ _ _ h

end Workspace

/-! ## The iteration around it -/

/-- Both regularizations after a step of the given length: lowered if it was long and then raised if
it was short, each within its bound. -/
def Damping.afterStep (c : Config α) (length : α) (d : Damping α) : Damping α :=
  let d := if c.shrinkAbove < length then ⟨c.lower d.state, c.lower d.control⟩ else d
  if length ≤ c.growUpTo then ⟨c.raise d.state, c.raise d.control⟩ else d

namespace Run

variable {c : Config α} {p : Problem α s nus} {r r₁ r' q : Run α s nus} {i k : Nat}

/-- Iteration number `k` from the run `r` gets to its line search, and `q` is the run then: the
backward pass has succeeded, and there is no verdict. -/
inductive Searches (c : Config α) (r : Run α s nus) (k : Nat) : Run α s nus → Prop where
  | intro {r₁ : Run α s nus} {policy : Policy α s.ndx nus} (hprep : r.refresh k = .ok r₁)
      (hback : r₁.backward = (policy, none))
      (hgo : (r₁.planned policy).workspace.verdict c = none) : Searches c r k (r₁.planned policy)

/-- The run `r'` has taken candidate number `i` from `q`, and nothing of any other. -/
structure TakesCandidate (c : Config α) (p : Problem α s nus) (q : Run α s nus) (i : Nat)
    (r' : Run α s nus) : Prop where
  path : r'.workspace.path = q.workspace.candidate p (stepLength i)
  cost : r'.workspace.cost = p.costAlong (q.workspace.candidate p (stepLength i))
  /-- The stages remember that candidate alone. -/
  remembered : r'.problem.stages.storedEvaluations =
    p.stages.models.evaluations (q.workspace.candidate p (stepLength i))
  feasible : r'.workspace.feasible = true ↔
    q.workspace.feasible = true ∨ ((stepLength i : α) == 1) = true
  damping : r'.workspace.damping = q.workspace.damping.afterStep c (stepLength i)
  evaluations : r'.tally.evaluations = q.tally.evaluations + (i + 1)
  accepted : r'.tally.accepted = q.tally.accepted + 1
  stepLengths : r'.tally.stepLengths = q.tally.stepLengths ++ [stepLength i]

/-- The run `r'` has tried all candidates from `q` and taken none. -/
structure TakesNone (c : Config α) (q r' : Run α s nus) : Prop extends q.Stays r' where
  policy : r'.workspace.policy = q.workspace.policy
  gaps : r'.workspace.gaps = q.workspace.gaps
  damping : r'.workspace.damping =
    ⟨c.raise q.workspace.damping.state, c.raise q.workspace.damping.control⟩
  evaluations : r'.tally.evaluations = q.tally.evaluations + c.lineSearchSteps
  stepLengths : r'.tally.stepLengths = q.tally.stepLengths ++ [0]

/-- A run that took a candidate tells which one it was by the number of evaluations. -/
theorem TakesCandidate.unique {j : Nat} (hi : q.TakesCandidate c p i r')
    (hj : q.TakesCandidate c p j r') : i = j := by
  have heq := hi.evaluations.symm.trans hj.evaluations
  omega

theorem TakesNone.not_takesCandidate (h : q.TakesNone c r') : ¬ q.TakesCandidate c p i r' := by
  intro htakes
  have heq := h.accepted.symm.trans htakes.accepted
  omega

/-- A line search begins where its iteration does, with the same counts of evaluations and steps. -/
structure BeginsSearch (r q : Run α s nus) : Prop extends r.Stays q where
  damping : q.workspace.damping = r.workspace.damping
  evaluations : q.tally.evaluations = r.tally.evaluations
  stepLengths : q.tally.stepLengths = r.tally.stepLengths

theorem Searches.begins (h : r.Searches c k q) : r.BeginsSearch q := by
  obtain ⟨hprep, -, -⟩ := h
  have hp := prepares_refresh hprep
  refine ⟨(stays_refresh hprep).trans (keeps_planned _ _).toStays, hp.damping, ?_, hp.stepLengths⟩
  rcases refresh_ok hprep with ⟨-, rfl⟩ | ⟨-, rfl⟩ <;> rfl

theorem damping_afterStep (c : Config α) (r : Run α s nus) (k : Nat) (f : Found α s nus)
    (feasibility : α) :
    (r.afterStep c k f feasibility).run.workspace.damping =
      r.workspace.damping.afterStep c f.length := by
  unfold afterStep Damping.afterStep
  dsimp only [Step.run, report]
  split <;> split <;> rfl

omit [Scalar α] in
/-- A search that found nothing leaves the same run whether it ends the solve or not. -/
theorem run_ite (b : Bool) (r : Run α s nus) (status : Status) (n : Nat) :
    (if b then Step.stop r status n else .next r).run = r := by
  cases b <;> rfl

theorem takesNone_afterRejection {policy : Policy α s.ndx nus}
    (htried : ((r₁.planned policy).search c).tried = c.lineSearchSteps) (k : Nat)
    (length feasibility : α) :
    ∃ r', ((r₁.planned policy).searched c).afterRejection c k length feasibility =
        (if ((r₁.planned policy).searched c).workspace.isSaturated c
          then .stop r' .regularizationSaturated (k + 1) else .next r') ∧
      (r₁.planned policy).TakesNone c r' := by
  have hevaluations : ((r₁.planned policy).searched c).tally.evaluations =
      r₁.tally.evaluations + c.lineSearchSteps := congrArg (r₁.tally.evaluations + ·) htried
  rcases afterRejection_cases c ((r₁.planned policy).searched c) k length feasibility with
    ⟨hbound, heq⟩ | ⟨hshort, heq⟩
  · exact ⟨_, heq.trans (if_pos hbound).symm, ⟨rfl, rfl, rfl, rfl, rfl⟩, rfl, rfl, rfl,
      hevaluations, rfl⟩
  · exact ⟨_, heq.trans (if_neg (Bool.eq_false_iff.mp hshort)).symm, ⟨rfl, rfl, rfl, rfl, rfl⟩, rfl,
      rfl, rfl, hevaluations, rfl⟩

theorem takesCandidate_afterStep {policy : Policy α s.ndx nus} (hc : r₁.Consistent p)
    (htried : ((r₁.planned policy).search c).tried = i + 1)
    (hfound : ((r₁.planned policy).search c).found =
      some ((r₁.planned policy).workspace.stepTo p i)) (k : Nat) (feasibility : α) :
    (r₁.planned policy).TakesCandidate c p i
      (((r₁.planned policy).searched c).afterStep c k ((r₁.planned policy).workspace.stepTo p i)
        feasibility).run := by
  have htakes := takes_afterStep hfound k feasibility
  have hremembered := (htakes.consistent hc).evaluated htakes.stale
  rw [htakes.path] at hremembered
  refine ⟨htakes.path, htakes.cost, hremembered, ?_, damping_afterStep c _ k _ _, ?_,
    htakes.accepted, rfl⟩
  · rw [htakes.feasible, Bool.or_eq_true]
    rfl
  · exact congrArg (r₁.tally.evaluations + ·) htried

variable [SearchScalar α]

/-- **An iteration that gets to its line search accepts the first candidate that qualifies, or there
is none and it rejects all.** -/
theorem Searches.takes_first_or_none (h : r.Searches c k q) (hc : r.Consistent p) :
    (∃ i r', i < c.lineSearchSteps ∧ q.workspace.QualifiesFirst c p i ∧
        r.iterate c k = .next r' ∧ q.TakesCandidate c p i r') ∨
      ((∀ i < c.lineSearchSteps, ¬ q.workspace.Qualifies c p i) ∧
        ∃ r', r.iterate c k = (if q.workspace.isSaturated c
            then .stop r' .regularizationSaturated (k + 1) else .next r') ∧
          q.TakesNone c r') := by
  obtain ⟨hprep, hback, hgo⟩ := h
  rename_i r₁ policy
  obtain ⟨hc₁, -⟩ := refresh_consistent hc hprep
  cases (r₁.planned policy).workspace.explores_lineSearch c hc₁.same with
  | @found i above below qualifies first htried hfound =>
    rw [Nat.zero_add] at below
    exact .inl ⟨i, _, below, ⟨qualifies, fun j hj => first j (Nat.zero_le j) hj⟩,
      iterate_of_found hprep hback hgo hfound, takesCandidate_afterStep hc₁ htried hfound k _⟩
  | exhausted absent htried hfound =>
    rw [Nat.zero_add] at absent htried
    obtain ⟨r', hstep, hnone⟩ := takesNone_afterRejection htried k
      ((r₁.planned policy).search c).length (r₁.planned policy).workspace.feasibility
    exact .inr ⟨fun i hi => absent i (Nat.zero_le i) hi, r',
      (iterate_of_not_found hprep hback hgo hfound).trans hstep, hnone⟩

/-- What the line search `q` of iteration number `k` from the run `r` does to a solve of the problem
`p`. -/
structure SearchedFirst (c : Config α) (p : Problem α s nus) (r : Run α s nus) (k : Nat)
    (q : Run α s nus) : Prop where
  begins : r.BeginsSearch q
  cost : q.workspace.cost = p.costAlong q.workspace.path
  /-- The lengths that are tried are one, a half, a quarter and so on, and only the first of them
  is a full step. -/
  lengths : ∀ i < 2 ^ 31, (stepLength i : α) = halving i ∧
    (((stepLength i : α) == 1) = true ↔ i = 0)
  /-- The candidate that is accepted is the first one that qualifies. -/
  accepts : ∀ i < c.lineSearchSteps,
    (∃ r', r.iterate c k = .next r' ∧ q.TakesCandidate c p i r') ↔
      q.workspace.QualifiesFirst c p i
  /-- If none qualifies, the solve goes on unless it was out of regularization. -/
  rejects : (∀ i < c.lineSearchSteps, ¬ q.workspace.Qualifies c p i) →
    ∃ r', r.iterate c k = (if q.workspace.isSaturated c
        then .stop r' .regularizationSaturated (k + 1) else .next r') ∧
      q.TakesNone c r'

theorem Searches.searchedFirst (h : r.Searches c k q) (hc : r.Consistent p) :
    r.SearchedFirst c p k q := by
  have hbegins := h.begins
  refine ⟨hbegins, ?_, fun i hi => ⟨stepLength_of_lt hi, stepLength_beq_one_iff hi⟩, ?_, ?_⟩
  · rw [hbegins.cost, hbegins.path, hc.cost]
  · intro i hi
    rcases h.takes_first_or_none hc with
      ⟨j, r₂, -, hfirst, hnext, htakes⟩ | ⟨habsent, r₂, hstep, hnone⟩
    -- the iteration comes to one thing only, so another candidate would have to be the same
    · constructor
      · rintro ⟨r', hnext', htakes'⟩
        obtain rfl := Step.next.inj (hnext.symm.trans hnext')
        exact htakes'.unique htakes ▸ hfirst
      · intro hfirst'
        exact hfirst.unique hfirst' ▸ ⟨r₂, hnext, htakes⟩
    · refine iff_of_false ?_ fun hfirst => habsent i hi hfirst.toQualifies
      rintro ⟨r', hnext, htakes⟩
      rw [hstep] at hnext
      split at hnext
      next => cases hnext
      next =>
        obtain rfl := Step.next.inj hnext
        exact hnone.not_takesCandidate htakes
  · intro habsent
    rcases h.takes_first_or_none hc with ⟨j, r₂, hj, hfirst, -⟩ | ⟨-, hnone⟩
    · exact absurd hfirst.toQualifies (habsent j hj)
    · exact hnone

end Run

namespace Solver

variable [SearchScalar α] {sv : Solver α s nus} {p : Problem α s nus} {g : Guess α}
  {clock : Nat → Nat} {budget k : Nat} {r q : Run α s nus}

/-- **Every line search takes the first candidate that qualifies, or none.** What comes of it
depends on that one alone, although all were evaluated on the same stages and some may have been
given up halfway. -/
theorem line_search_takes_first (h : sv.Iterates p g clock budget k r)
    (hsearch : r.Searches sv.config k q) : r.SearchedFirst sv.config p k q := by
  obtain ⟨-, r₀, hbegin, hperf⟩ := h
  exact hsearch.searchedFirst (hbegin.consistent_of_reaches hperf.reached)

/-- A point at rest that the best push drives beyond all numbers, and half of it does not. -/
def overshoot : Problem Float (.euclidean 1) [1] :=
  let m : Model Float (.euclidean 1) 1 :=
    .lqr { Lqr.driftless (.identity 1) ((Mat.identity 1).scale 1e156) 0 (.identity 1) with
      lu := .replicate 1 2e152 }
  ⟨0, .stage ⟨m, .zero⟩ (.last ⟨0, .lqr (.terminal 0), .zero⟩)⟩

/-- The standard configuration with hardly any regularization to start from. -/
def hardlyRegularized : Config Float := { Config.standard with regularizationMin := 1e-320 }

set_option maxRecDepth 100000 in
/-- The full step is given up, and half of it is taken. -/
theorem line_search_takes_first_overshoot :
    ∃ r₀ q : Run Float (.euclidean 1) [1],
      (Solver.new hardlyRegularized .none).Iterates overshoot .none (fun _ => 0) 1 0 r₀ ∧
        r₀.Searches hardlyRegularized 0 q ∧ r₀.SearchedFirst hardlyRegularized overshoot 0 q ∧
        q.workspace.QualifiesFirst hardlyRegularized overshoot 1 := by
  have hcourse : (match (Solver.new hardlyRegularized .none).initialize? overshoot .none with
      | .ok (p', w) =>
        let r₀ := (Solver.new hardlyRegularized .none).firstRun p' w
        Scalar.isFinite (p'.evaluate w.path).totalCost &&
          match r₀.refresh 0 with
          | .ok r₁ =>
            match r₁.backward with
            | (policy, none) => ((r₁.planned policy).workspace.verdict hardlyRegularized).isNone &&
              decide ((r₀.iterate hardlyRegularized 0).run.tally.evaluations = 3)
            | _ => false
          | _ => false
      | .error _ => false) = true := by
    decide +kernel
  split at hcourse
  next p' w hinit =>
    obtain ⟨hfin, hcourse⟩ := Bool.and_eq_true_iff.mp hcourse
    split at hcourse
    next r₁ hprep =>
      split at hcourse
      next policy hback =>
        obtain ⟨hgo, hcount⟩ := Bool.and_eq_true_iff.mp hcourse
        have hcount := of_decide_eq_true hcount
        have hbegin := Begins.intro hinit hfin
        have hsearch := Run.Searches.intro hprep hback (Option.isNone_iff_eq_none.mp hgo)
        have hiterates : (Solver.new hardlyRegularized .none).Iterates overshoot .none
            (fun _ => 0) 1 0 _ := ⟨by decide, _, hbegin, .start, by decide, rfl⟩
        have hspec := line_search_takes_first hiterates hsearch
        have hone : (r₁.planned policy).tally.evaluations = 1 := hspec.begins.evaluations
        refine ⟨_, _, hiterates, hsearch, hspec, ?_⟩
        -- three evaluations are the first one and two candidates
        rcases hsearch.takes_first_or_none hbegin.consistent with
          ⟨i, r', -, hfirst, hnext, htakes⟩ | ⟨-, r', hstep, hnone⟩
        · rw [hnext] at hcount
          have htried := htakes.evaluations.symm.trans hcount
          obtain rfl : i = 1 := by omega
          exact hfirst
        · have hall : r'.tally.evaluations = 11 := hnone.evaluations.trans (congrArg (· + 10) hone)
          rw [hstep, Run.run_ite, hall] at hcount
          cases hcount
      next => cases hcourse
    next => cases hcourse
  next => cases hcourse

end Solver

end Shooting
