import Shooting.Proofs.Exact.Line
import Shooting.Proofs.Solver.Regularization

/-!
# Iterations of no avail come to an end

Every iteration that is of no avail, be it for a failed backward pass or for a line search without a
step, multiplies the regularization by the same factor, up to its bound (`Config.raised`). So a
number of such iterations one after the other is limited, and the limit can be told from the
regularization that they start from: with `n` the least number of factors that reach the bound,
number `n` of them, counted from zero, ends the solve if the others did not help
(`Solver.EndsStalling`). The factor that leads beyond the bound leaves one more attempt there.

If no backward pass gets through, that is all a solve does (`AlwaysFails.exists_ends`), unless its
iterations or its time run out first.
-/

namespace Shooting

variable {s : StateSpace} {nus : List ℕ}

/-! ## Regularizations -/

namespace Config

variable {c : Config ℝ} {r : ℝ} {j n : ℕ}

/-- The regularization `r` after it has been raised `j` times. -/
noncomputable def raised (c : Config ℝ) (r : ℝ) (j : ℕ) : ℝ :=
  min (r * c.regularizationIncrease ^ j) c.regularizationMax

theorem raise_real (c : Config ℝ) (r : ℝ) :
    c.raise r = min (r * c.regularizationIncrease) c.regularizationMax := by
  unfold raise Scalar.min
  rw [Scalar.isNaN_real, if_neg Bool.false_ne_true, Scalar.isNaN_real, if_neg Bool.false_ne_true]
  split
  next hlt => exact (min_eq_right hlt.le).symm
  next hle => exact (min_eq_left (not_lt.mp hle)).symm

theorem raised_zero (hr : c.Allows r) : c.raised r 0 = r := by
  unfold raised
  rw [pow_zero, mul_one]
  exact min_eq_left hr.upper

/-- What is at the bound stays there, however often it is raised. -/
theorem raise_raised (h : c.IsValid) (r : ℝ) (j : ℕ) :
    c.raise (c.raised r j) = c.raised r (j + 1) := by
  have hfactor : (1 : ℝ) < c.regularizationIncrease := h.factors.1
  have hmax : 0 < c.regularizationMax := (allows_max h).pos h
  have hstays : c.regularizationMax ≤ c.regularizationMax * c.regularizationIncrease :=
    le_mul_of_one_le_right hmax.le hfactor.le
  unfold raised
  rw [raise_real, min_mul_of_nonneg _ _ (zero_le_one.trans hfactor.le), min_assoc,
    min_eq_right hstays, pow_succ, mul_assoc]

theorem raised_eq_max_iff : c.raised r j = c.regularizationMax ↔
    c.regularizationMax ≤ r * c.regularizationIncrease ^ j :=
  min_eq_right_iff

/-- The number of raises that take the regularization `r` to its bound. -/
def IsReach (c : Config ℝ) (r : ℝ) (n : ℕ) : Prop :=
  IsLeast {j | c.regularizationMax ≤ r * c.regularizationIncrease ^ j} n

theorem exists_isReach (hr : c.Allows r) (h : c.IsValid) : ∃ n, c.IsReach r n := by
  have hfactor : (1 : ℝ) < c.regularizationIncrease := h.factors.1
  have hpos : 0 < r := hr.pos h
  have hsome : ∃ j, c.regularizationMax ≤ r * c.regularizationIncrease ^ j := by
    obtain ⟨j, hj⟩ := pow_unbounded_of_one_lt (c.regularizationMax / r) hfactor
    exact ⟨j, (div_le_iff₀' hpos).mp hj.le⟩
  classical
  exact ⟨Nat.find hsome, Nat.find_spec hsome, fun j hj => Nat.find_min' hsome hj⟩

/-- Before that many raises the bound is not reached, and from then on it is. -/
theorem IsReach.raised_eq_max_iff (h : c.IsReach r n) (hr : c.Allows r) (hvalid : c.IsValid) :
    c.raised r j = c.regularizationMax ↔ n ≤ j := by
  have hfactor : (1 : ℝ) < c.regularizationIncrease := hvalid.factors.1
  have hpos : 0 < r := hr.pos hvalid
  rw [Config.raised_eq_max_iff]
  refine ⟨fun hj => h.2 hj, fun hle => h.1.trans ?_⟩
  exact mul_le_mul_of_nonneg_left (pow_le_pow_right₀ hfactor.le hle) hpos.le

end Config

/-! ## Iterations one after the other -/

namespace Solver

variable {sv : Solver ℝ s nus} {p : Problem ℝ s nus} {g : Guess ℝ} {clock : ℕ → ℕ}
  {budget i j n : ℕ} {r₀ r r' : Run ℝ s nus}

/-- From iteration number `i` on, those before number `m` are of no avail. -/
def Stalls (sv : Solver ℝ s nus) (p : Problem ℝ s nus) (g : Guess ℝ) (clock : ℕ → ℕ)
    (budget i m : ℕ) : Prop :=
  ∀ k r, i ≤ k → k < m → sv.Iterates p g clock budget k r → r.IsVain sv.config k

/-- **Stalling multiplies the regularization by its factor**, once for every iteration. -/
theorem Stalls.damping (hroom : budget < Vec.sizeLimit) (hbegin : sv.Begins p g r₀)
    (hr : r₀.Reaches sv.config clock budget i r) : ∀ (j : ℕ) {r' : Run ℝ s nus},
    sv.Stalls p g clock budget i (i + j) → r₀.Reaches sv.config clock budget (i + j) r' →
      r'.workspace.damping = ⟨sv.config.raised r.workspace.damping.state j,
        sv.config.raised r.workspace.damping.state j⟩
  | 0, r', _, hr' => by
    obtain rfl := hr.unique hr'
    have hwithin := (hbegin.bounded_of_reaches hr).within
    rw [Config.raised_zero hwithin.allowed]
    exact congrArg (Damping.mk _) hwithin.equal
  | j + 1, r', hstalls, hr' => by
    have hvalid := Config.isValid_of_validate hbegin.validate
    cases hr' with
    | @next _ r₁ _ reached within inTime hnext =>
      have hperf : r₀.Performs sv.config clock budget (i + j) r₁ := ⟨reached, within, inTime⟩
      have hdamping := Stalls.damping hroom hbegin hr j
        (fun k r hik hkm => hstalls k r hik (by omega)) reached
      have hvain := hstalls (i + j) r₁ (by omega) (by omega) ⟨hroom, r₀, hbegin, hperf⟩
      have hwithin := (hbegin.bounded_of_reaches reached).within
      cases hsaturated : r₁.workspace.isSaturated sv.config with
      | true =>
        -- a solve that is at the bound would have ended
        obtain ⟨r₂, m, hstop, -⟩ := hvain.stop hvalid hwithin
          ((Workspace.isSaturated_iff hwithin hvalid).mp hsaturated)
        cases hnext.symm.trans hstop
      | false =>
        obtain ⟨r₂, hnext', hraised⟩ := hvain.next hsaturated
        obtain rfl := Step.next.inj (hnext.symm.trans hnext')
        rw [hraised, hdamping, Config.raise_raised hvalid]

/-- The regularization of an iteration that comes `j` iterations of no avail later. -/
theorem Iterates.damping_of_stalls (h : sv.Iterates p g clock budget i r)
    (h' : sv.Iterates p g clock budget (i + j) r')
    (hstalls : sv.Stalls p g clock budget i (i + j)) :
    r'.workspace.damping = ⟨sv.config.raised r.workspace.damping.state j,
      sv.config.raised r.workspace.damping.state j⟩ := by
  obtain ⟨hroom, r₀, hbegin, hperf⟩ := h
  obtain ⟨-, r₀', hbegin', hperf'⟩ := h'
  obtain rfl := hbegin.unique hbegin'
  exact Stalls.damping hroom hbegin hperf.reached j hstalls hperf'.reached

/-- A solve that does an iteration is within the bounds there, in a valid configuration. -/
theorem Iterates.isValid (h : sv.Iterates p g clock budget i r) : sv.config.IsValid := by
  obtain ⟨-, r₀, hbegin, -⟩ := h
  exact Config.isValid_of_validate hbegin.validate

/-- **Iterations that are of no avail end the solve after as many raises as reach the bound**, and
not before. -/
theorem Iterates.of_stalls (h : sv.Iterates p g clock budget i r)
    (hreach : sv.config.IsReach r.workspace.damping.state n)
    (h' : sv.Iterates p g clock budget (i + j) r')
    (hstalls : sv.Stalls p g clock budget i (i + j + 1)) :
    j ≤ n ∧ (j < n → ∃ r'', r'.iterate sv.config (i + j) = .next r'') ∧
      (j = n → ∃ res, (sv.solveWithin p g clock budget).outcome = .ok res ∧
        res.status = .regularizationSaturated) := by
  have hvalid := h.isValid
  have hallowed := h.within.1.allowed
  have hbound {k : ℕ} {r'' : Run ℝ s nus} (hk : sv.Iterates p g clock budget (i + k) r'')
      (hle : k ≤ j) : r''.workspace.damping.state = sv.config.regularizationMax ↔ n ≤ k := by
    rw [h.damping_of_stalls hk fun m r hm hlt => hstalls m r hm (by omega)]
    exact hreach.raised_eq_max_iff hallowed hvalid
  have hvain := hstalls (i + j) r' (by omega) (by omega) h'
  refine ⟨?_, ?_, ?_⟩
  · refine Nat.not_lt.mp ?_
    intro hlt
    -- the iteration at the bound was there before, and was the last
    obtain ⟨hroom, r₀, hbegin, hperf⟩ := h'
    obtain ⟨r₁, r₂, hperf₁, -⟩ := hperf.reached.performs_of_lt (i := i + n) (by omega)
    have hn : sv.Iterates p g clock budget (i + n) r₁ := ⟨hroom, r₀, hbegin, hperf₁⟩
    have hlast := (hn.saturates (hstalls _ _ (by omega) (by omega) hn)
      ((hbound hn hlt.le).mpr le_rfl)).1 (i + j) r' ⟨hroom, r₀, hbegin, hperf⟩
    omega
  · intro hlt
    have hleft : r'.workspace.isSaturated sv.config = false := by
      refine Bool.eq_false_iff.mpr ?_
      intro hsaturated
      have hmax := (Workspace.isSaturated_iff h'.within.1 hvalid).mp hsaturated
      exact absurd ((hbound h' le_rfl).mp hmax) (Nat.not_le.mpr hlt)
    obtain ⟨r'', hnext, -⟩ := hvain.next hleft
    exact ⟨r'', hnext⟩
  · rintro rfl
    obtain ⟨-, res, hout, hstatus, -⟩ := h'.saturates hvain ((hbound h' le_rfl).mpr le_rfl)
    exact ⟨res, hout, hstatus⟩

/-! ## Solves without a policy -/

/-- No backward pass of the solve gets through. -/
def AlwaysFails (sv : Solver ℝ s nus) (p : Problem ℝ s nus) (g : Guess ℝ) (clock : ℕ → ℕ)
    (budget : ℕ) : Prop :=
  ∀ k r, sv.Iterates p g clock budget k r → r.PassFails k

theorem AlwaysFails.stalls (h : sv.AlwaysFails p g clock budget) (i m : ℕ) :
    sv.Stalls p g clock budget i m :=
  fun k r _ _ hiterates => (h k r hiterates).isVain

/-- In the meantime a solve stays where it began. -/
theorem AlwaysFails.reaches (h : sv.AlwaysFails p g clock budget) (hroom : budget < Vec.sizeLimit)
    (hbegin : sv.Begins p g r₀) (hreach : sv.config.IsReach r₀.workspace.damping.state n) :
    ∀ k, k ≤ n → k ≤ budget → (∀ j < k, Run.isTimedOut sv.config clock j = false) →
      ∃ r, r₀.Reaches sv.config clock budget k r ∧ r₀.Stays r
  | 0, _, _, _ => ⟨r₀, .start, rfl, rfl, rfl, rfl, rfl⟩
  | k + 1, hn, hbudget, hinTime => by
    obtain ⟨r, hreached, hstays⟩ := AlwaysFails.reaches h hroom hbegin hreach k (by omega) (by omega)
      fun j hj => hinTime j (by omega)
    have hk : sv.Iterates p g clock budget k r :=
      ⟨hroom, r₀, hbegin, hreached, hbudget, hinTime k (by omega)⟩
    have hfirst : sv.Iterates p g clock budget 0 r₀ :=
      ⟨hroom, r₀, hbegin, .start, by omega, rfl⟩
    have hk' : sv.Iterates p g clock budget (0 + k) r := by rwa [Nat.zero_add]
    obtain ⟨-, hnext, -⟩ := hfirst.of_stalls hreach hk' (h.stalls _ _)
    obtain ⟨r', hr'⟩ := hnext hn
    rw [Nat.zero_add] at hr'
    have hgain := (h k r hk).isVain (c := sv.config) |>.stays
    rw [hr'] at hgain
    exact ⟨r', .next hreached hbudget (hinTime k (by omega)) hr', hstays.trans hgain⟩

/-- How a solve ends without a policy, if `n` raises lead to the bound: out of regularization after
`n` iterations, unless its iterations or its time run out before. -/
inductive Ending (c : Config ℝ) (clock : ℕ → ℕ) (budget n : ℕ) : Status → ℕ → Prop where
  | saturated (within : n < budget) (inTime : ∀ k ≤ n, Run.isTimedOut c clock k = false) :
      Ending c clock budget n .regularizationSaturated n
  | exhausted (hle : budget ≤ n) (inTime : ∀ k < budget, Run.isTimedOut c clock k = false) :
      Ending c clock budget n .maxIterationsReached budget
  | late {k : ℕ} (hle : k ≤ n) (within : k < budget)
      (inTime : ∀ j < k, Run.isTimedOut c clock j = false)
      (hlate : Run.isTimedOut c clock k = true) : Ending c clock budget n .timeout k

/-- Without a time limit, the budget decides. -/
theorem Ending.of_untimed {c : Config ℝ} {status : Status} {m : ℕ}
    (h : Ending c clock budget n status m) (htimeout : c.timeout = none) :
    (n < budget → status = .regularizationSaturated ∧ m = n) ∧
      (budget ≤ n → status = .maxIterationsReached ∧ m = budget) := by
  cases h with
  | saturated within => exact ⟨fun _ => ⟨rfl, rfl⟩, fun hle => absurd within (Nat.not_lt.mpr hle)⟩
  | exhausted hle => exact ⟨fun within => absurd within (Nat.not_lt.mpr hle), fun _ => ⟨rfl, rfl⟩⟩
  | late hle within inTime hlate =>
    rw [Run.isTimedOut_of_none htimeout] at hlate
    cases hlate

/-- Otherwise, the first iteration that is too late is not done, if it would have been. -/
theorem Ending.of_late {c : Config ℝ} {status : Status} {k m : ℕ}
    (h : Ending c clock budget n status m) (hle : k ≤ n) (within : k < budget)
    (inTime : ∀ j < k, Run.isTimedOut c clock j = false)
    (hlate : Run.isTimedOut c clock k = true) : status = .timeout ∧ m = k := by
  cases h with
  | saturated _ inTime' => cases (inTime' k hle).symm.trans hlate
  | exhausted _ inTime' => cases (inTime' k within).symm.trans hlate
  | late _ _ inTime' hlate' =>
    refine ⟨rfl, ?_⟩
    rcases Nat.lt_trichotomy m k with hlt | rfl | hlt
    · cases (inTime m hlt).symm.trans hlate'
    · rfl
    · cases (inTime' k hlt).symm.trans hlate

/-- **How a solve ends if no backward pass gets through.** -/
theorem AlwaysFails.exists_ends (h : sv.AlwaysFails p g clock budget)
    (hroom : budget < Vec.sizeLimit) (hbegin : sv.Begins p g r₀)
    (hreach : sv.config.IsReach r₀.workspace.damping.state n) :
    ∃ r status m, r₀.Ends sv.config clock budget r status m ∧ r₀.Stays r ∧
      Ending sv.config clock budget n status m := by
  have hreaches := h.reaches hroom hbegin hreach
  by_cases hlate : ∃ k, k ≤ n ∧ k < budget ∧ Run.isTimedOut sv.config clock k = true
  · -- the first time that is too late
    classical
    obtain ⟨hle, within, hlate'⟩ := Nat.find_spec hlate
    have hinTime : ∀ j < Nat.find hlate, Run.isTimedOut sv.config clock j = false := by
      intro j hj
      refine Bool.eq_false_iff.mpr ?_
      intro hj'
      exact Nat.find_min hlate hj ⟨by omega, by omega, hj'⟩
    obtain ⟨r, hreached, hstays⟩ := hreaches _ hle within.le hinTime
    exact ⟨r, _, _, .timeout hreached within hlate', hstays, .late hle within hinTime hlate'⟩
  · have hinTime (k : ℕ) (hle : k ≤ n) (within : k < budget) :
        Run.isTimedOut sv.config clock k = false :=
      Bool.eq_false_iff.mpr fun hk => hlate ⟨k, hle, within, hk⟩
    rcases Nat.lt_or_ge n budget with within | hle
    · have hall (k : ℕ) (hk : k ≤ n) := hinTime k hk (by omega)
      obtain ⟨r, hreached, hstays⟩ := hreaches n le_rfl within.le fun j hj => hall j hj.le
      have hperf : r₀.Performs sv.config clock budget n r := ⟨hreached, within, hall n le_rfl⟩
      have hfails := h n r ⟨hroom, r₀, hbegin, hperf⟩
      have hvalid := Config.isValid_of_validate hbegin.validate
      have hallowed := (hbegin.bounded).within.allowed
      have hbound : r.workspace.isSaturated sv.config = true := by
        have hdamping := Stalls.damping hroom hbegin .start n (h.stalls _ _)
          (by rwa [Nat.zero_add])
        refine (Workspace.isSaturated_iff (hbegin.bounded_of_reaches hreached).within hvalid).mpr ?_
        rw [hdamping]
        exact (hreach.raised_eq_max_iff hallowed hvalid).mpr le_rfl
      obtain ⟨r', hstop⟩ := hfails.stop hbound
      have hgain := (hfails.isVain (c := sv.config)).stays
      rw [hstop] at hgain
      exact ⟨r', _, _, .stop hperf hstop, hstays.trans hgain, .saturated within hall⟩
    · have hall (k : ℕ) (hk : k < budget) := hinTime k (by omega) hk
      obtain ⟨r, hreached, hstays⟩ := hreaches budget hle le_rfl hall
      exact ⟨r, _, _, .budget hreached, hstays, .exhausted hle hall⟩

/-- What a solve answers that began with the run `r₀` and never had a policy: why it ended, and that
it is where it began. -/
structure GivesUp (c : Config ℝ) (clock : ℕ → ℕ) (budget n : ℕ) (r₀ : Run ℝ s nus)
    (res : SolveResult ℝ) : Prop where
  ending : Ending c clock budget n res.status res.iterations
  trajectory : res.trajectory = r₀.workspace.path.toTrajectory
  initialCost : res.initialCost = r₀.initialCost
  finalCost : res.finalCost = res.initialCost

theorem AlwaysFails.givesUp (h : sv.AlwaysFails p g clock budget) (hroom : budget < Vec.sizeLimit)
    (hbegin : sv.Begins p g r₀) (hreach : sv.config.IsReach r₀.workspace.damping.state n) :
    ∃ res, (sv.solveWithin p g clock budget).outcome = .ok res ∧
      GivesUp sv.config clock budget n r₀ res := by
  obtain ⟨r, status, m, hend, hstays, hending⟩ := h.exists_ends hroom hbegin hreach
  have hsolve : sv.solveWithin p g clock budget = r.finish sv.config status m := by
    rw [solveWithin_of_begins hbegin hroom, hend.iterateFrom_eq]
  obtain ⟨res, hout⟩ : ∃ res, (r.finish sv.config status m).outcome = .ok res := ⟨_, rfl⟩
  have hanswers := Run.answers_of_finish hout
  obtain ⟨hdescribes, -⟩ := (hbegin.consistent_of_ends hend).describes hout
  have hinitial : res.initialCost = r₀.initialCost := hanswers.initialCost.trans hstays.initialCost
  refine ⟨res, by rw [hsolve, hout], ?_, ?_, hinitial, ?_⟩
  · rw [hanswers.status, hanswers.iterations]
    exact hending
  · rw [hdescribes.trajectory, hstays.path]
  · rw [hinitial, hdescribes.finalCost, hstays.path, hbegin.initialCost, hbegin.consistent.cost]

/-- What is promised of iterations that are of no avail. -/
structure EndsStalling (sv : Solver ℝ s nus) (p : Problem ℝ s nus) (g : Guess ℝ) (clock : ℕ → ℕ)
    (budget : ℕ) : Prop where
  /-- After `j` of them, one after the other, the regularization has been raised `j` times. -/
  damping : ∀ {i j r r'}, sv.Iterates p g clock budget i r →
    sv.Iterates p g clock budget (i + j) r' → sv.Stalls p g clock budget i (i + j) →
      r'.workspace.damping = ⟨sv.config.raised r.workspace.damping.state j,
        sv.config.raised r.workspace.damping.state j⟩
  /-- Some number of raises leads to the bound. -/
  reach : ∀ {i r}, sv.Iterates p g clock budget i r →
    ∃ n, sv.config.IsReach r.workspace.damping.state n
  /-- There are no more than one more of them, and this one ends the solve. -/
  length : ∀ {i j n r r'}, sv.Iterates p g clock budget i r →
    sv.config.IsReach r.workspace.damping.state n → sv.Iterates p g clock budget (i + j) r' →
      sv.Stalls p g clock budget i (i + j + 1) →
        j ≤ n ∧ (j < n → ∃ r'', r'.iterate sv.config (i + j) = .next r'') ∧
          (j = n → ∃ res, (sv.solveWithin p g clock budget).outcome = .ok res ∧
            res.status = .regularizationSaturated)
  /-- A solve without a policy ends like that, unless it has to end before, and it does not have to
  before its budget is used up if there is no time limit. -/
  failing : ∀ {r₀ n}, sv.Begins p g r₀ → budget < Vec.sizeLimit →
    sv.AlwaysFails p g clock budget → sv.config.IsReach r₀.workspace.damping.state n →
      ∃ res, (sv.solveWithin p g clock budget).outcome = .ok res ∧
        GivesUp sv.config clock budget n r₀ res ∧
        (sv.config.timeout = none →
          (n < budget → res.status = .regularizationSaturated ∧ res.iterations = n) ∧
            (budget ≤ n → res.status = .maxIterationsReached ∧ res.iterations = budget))

/-- **Iterations of no avail do not go on for ever.** Each of them multiplies the regularization by
its factor, up to the bound, and the first one at the bound ends the solve. -/
theorem stalling_ends (sv : Solver ℝ s nus) (p : Problem ℝ s nus) (g : Guess ℝ) (clock : ℕ → ℕ)
    (budget : ℕ) : sv.EndsStalling p g clock budget where
  damping h h' hstalls := h.damping_of_stalls h' hstalls
  reach h := Config.exists_isReach h.within.1.allowed h.isValid
  length h hreach h' hstalls := h.of_stalls hreach h' hstalls
  failing hbegin hroom hfails hreach := by
    obtain ⟨res, hout, hgives⟩ := hfails.givesUp hroom hbegin hreach
    exact ⟨res, hout, hgives, fun htimeout => hgives.ending.of_untimed htimeout⟩

/-! ## An example -/

/-- The weight of a push that pays more than the largest regularization takes back. -/
noncomputable def bounty : Mat ℝ 1 1 := (Mat.identity 1).scale (-1e10)

/-- No pass over such a push gets through. -/
theorem alwaysFails_bounty (c : Config ℝ) (hmax : c.regularizationMax = 1e9) (g : Guess ℝ)
    (clock : ℕ → ℕ) (budget : ℕ) :
    (Solver.new c .none).AlwaysFails (.pushFrom bounty 1) g clock budget := by
  intro k r hiterates
  obtain ⟨-, r₀, hbegin, hperf⟩ := hiterates
  obtain ⟨r₁, hprep⟩ := r.exists_refresh k
  obtain ⟨hc, hexp, hwithin⟩ := hbegin.prepared hperf.reached hprep
  have hstate : r₁.workspace.damping.state ≤ 1e9 := hmax ▸ hwithin.allowed.upper
  have hneg : bounty.get 0 0 + (1 + r₁.workspace.damping.state) +
      r₁.workspace.damping.control ≤ 0 := by
    have hbounty : bounty.get 0 0 = -1e10 := by norm_num [bounty]
    rw [hbounty, hwithin.equal]
    linarith
  cases hpolicy : r₁.workspace.policy with | stage stage ps =>
  cases ps with | last v =>
  obtain ⟨p', v', hback, -⟩ := Models.backward_line (hc.expanded hexp) hneg r₁.workspace.feasible
    r₁.workspace.gaps stage v
  refine ⟨r₁, .stage p' (.last v'), .indefinite 0, hprep, ?_⟩
  unfold Run.backward
  rw [hpolicy]
  exact hback

/-- From the lower bound of the standard configuration, eighteen raises lead to the upper one. -/
theorem isReach_standard : Config.IsReach .standard 1e-9 18 := by
  refine ⟨?_, ?_⟩
  · norm_num [Config.standard]
  · intro j hj
    refine Nat.not_lt.mp ?_
    intro hlt
    have hpow : (10 : ℝ) ^ j ≤ 10 ^ 17 := pow_le_pow_right₀ (by norm_num) (by omega)
    have hbound : (1e9 : ℝ) ≤ 1e-9 * (10.0 : ℝ) ^ j := hj
    norm_num at hpow hbound
    linarith

theorem begins_bounty (c : Config ℝ) (hvalid : c.IsValid) (hmin : c.regularizationMin = 1e-9) :
    ∃ r₀, (Solver.new c .none).Begins (.pushFrom bounty 1) .none r₀ ∧
      r₀.workspace.damping.state = 1e-9 := by
  obtain ⟨r₀, hbegin⟩ : ∃ r₀, (Solver.new c .none).Begins (.pushFrom bounty 1) .none r₀ :=
    exists_begins hvalid _
  refine ⟨r₀, hbegin, ?_⟩
  obtain ⟨hinit, -⟩ := hbegin
  obtain ⟨-, regularization, path, feasible, hreg, -, rfl⟩ := initialize?_ok hinit
  exact (Except.ok.inj hreg).symm.trans hmin

/-- A solve that is out of regularization after eighteen iterations. -/
theorem stalling_ends_bounty :
    ∃ res, ((Solver.new .standard .none).solveWithin (.pushFrom bounty 1) .none (fun _ => 0)
        100).outcome = .ok res ∧
      res.status = .regularizationSaturated ∧ res.iterations = 18 ∧
        res.finalCost = res.initialCost := by
  obtain ⟨r₀, hbegin, hstart⟩ := begins_bounty .standard Config.isValid_standard rfl
  obtain ⟨res, hout, hgives, huntimed⟩ := (stalling_ends (.new .standard .none)
    (.pushFrom bounty 1) .none (fun _ => 0) 100).failing hbegin (by norm_num [Vec.sizeLimit])
      (alwaysFails_bounty .standard rfl .none _ 100) (hstart ▸ isReach_standard)
  obtain ⟨hstatus, hiterations⟩ := (huntimed rfl).1 (by decide)
  exact ⟨res, hout, hstatus, hiterations, hgives.finalCost⟩

/-- The standard configuration with no time at all. -/
noncomputable def hurried : Config ℝ := { Config.standard with timeout := some 0 }

/-- **Time may run out before regularization and iterations do.** No pass gets through, eighteen
raises would lead to the bound, and three iterations are allowed, but only one is done. -/
theorem stalling_may_time_out :
    (Solver.new hurried .none).AlwaysFails (.pushFrom bounty 1) .none (fun _ => 0) 3 ∧
      hurried.IsReach 1e-9 18 ∧
      ∃ res, ((Solver.new hurried .none).solveWithin (.pushFrom bounty 1) .none (fun _ => 0)
          3).outcome = .ok res ∧ res.status = .timeout ∧ res.iterations = 1 := by
  have hvalid : hurried.IsValid :=
    have h := Config.isValid_standard
    ⟨h.lower, h.upper, h.factors, h.steps, h.ratio, h.negativeRatio⟩
  have hfails := alwaysFails_bounty hurried rfl .none (fun _ => 0) 3
  obtain ⟨r₀, hbegin, hstart⟩ := begins_bounty hurried hvalid rfl
  have hreach : hurried.IsReach 1e-9 18 := isReach_standard
  obtain ⟨res, hout, hgives⟩ := hfails.givesUp (by norm_num [Vec.sizeLimit]) hbegin
    (hstart ▸ hreach)
  -- the limit is looked at before the second iteration
  have hfirst (j : ℕ) (hj : j < 1) : Run.isTimedOut hurried (fun _ => 0) j = false := by
    obtain rfl := Nat.lt_one_iff.mp hj
    rfl
  obtain ⟨hstatus, hiterations⟩ :=
    hgives.ending.of_late (by decide) (by decide) hfirst rfl
  exact ⟨hfails, hreach, res, hout, hstatus, hiterations⟩

end Solver

end Shooting
