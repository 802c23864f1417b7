import Shooting.Proofs.Along
import Shooting.Solver.Policy

/-!
# What a backward pass finds

A backward pass that does not end early leaves nothing of the policy it was given. What it finds at
a stage depends on the expansion there, on the gap and on the value function after it, and on
nothing else: `Policy.Solves` says how, and `backward_solves` that it is so. All that is proved
about policies starts from there, so that the pass itself is not unfolded again. Conversely, the
pass does not end early where there is such a policy (`backward_of_solves`).

No law of arithmetic is used.
-/

namespace Shooting

variable {α : Type} [Scalar α] {s : StateSpace} {ndx nu : Nat} {nus : List Nat}

/-- The gap that counts: none along a feasible path. -/
def effectiveGap (feasible : Bool) (gap : Vec α ndx) : Option (Vec α ndx) :=
  if feasible then none else some gap

/-- What a backward pass finds at the end. -/
structure ValueModel.Solves (v : ValueModel α ndx) (d : Damping α) (feasible : Bool)
    (e : Expansion α ndx nu) (gap : Vec α ndx) : Prop where
  value : v = .across e.lx e.lxx d.state (effectiveGap feasible gap)
  finite : v.gradient.isFinite = true

/-- What a backward pass finds at a running stage whose successor has the value function `next`. -/
structure StagePolicy.Solves (p : StagePolicy α ndx nu) (d : Damping α) (feasible : Bool)
    (e : Expansion α ndx nu) (gap : Vec α ndx) (next : ValueModel α ndx) : Prop where
  q : p.q = .ofExpansion e next d.control
  gains : p.q.gains? = some p.gains
  value : p.value = p.q.value p.gains d.state (effectiveGap feasible gap)
  finite : p.value.gradient.isFinite = true

/-- The policy `ps` is what a backward pass finds for the expansions `es` and the gaps `fs`. -/
def Policy.Solves (d : Damping α) (feasible : Bool) : {nus : List Nat} → Policy α s.ndx nus →
    Expansions α s nus → Gaps α s nus → Prop
  | _, .last v, .last e, .last f => v.Solves d feasible e.2 f
  | _, .stage p ps, .stage e es, .stage f fs =>
    p.Solves d feasible e f (Policy.head ps) ∧ Solves d feasible ps es fs

theorem backwardFrom_solves {d : Damping α} {feasible : Bool} : ∀ {nus : List Nat} {t : Nat}
    {stages : Stages α s nus} {gaps : Gaps α s nus} {old policy : Policy α s.ndx nus},
    backwardFrom d feasible t stages gaps old = (policy, none) →
    policy.Solves d feasible stages.storedExpansions gaps
  | _, t, .last st, .last f, .last old, policy, h => by
    rw [backwardFrom] at h
    generalize hgap : (if feasible then none else some f) = gap at h
    split at h
    next hfin =>
      obtain ⟨rfl, -⟩ := Prod.mk.inj h
      subst hgap
      exact ⟨rfl, hfin⟩
    next => exact absurd (Prod.mk.inj h).2 nofun
  | _, t, .stage st rest, .stage f fs, .stage old olds, policy, h => by
    rw [backwardFrom] at h
    generalize hgap : (if feasible then none else some f) = gap at h
    split at h
    next => exact absurd (Prod.mk.inj h).2 nofun
    next after hrest =>
      have hafter := backwardFrom_solves hrest
      dsimp only at h
      split at h
      next => exact absurd (Prod.mk.inj h).2 nofun
      next gains hgains =>
        split at h
        next hfin =>
          obtain ⟨rfl, -⟩ := Prod.mk.inj h
          subst hgap
          exact ⟨⟨rfl, hgains, rfl, hfin⟩, hafter⟩
        next => exact absurd (Prod.mk.inj h).2 nofun

/-- **A backward pass that does not end early solves what is stored.** -/
theorem backward_solves {d : Damping α} {feasible : Bool} {stages : Stages α s nus}
    {gaps : Gaps α s nus} {old policy : Policy α s.ndx nus}
    (h : backward d feasible stages gaps old = (policy, none)) :
    policy.Solves d feasible stages.storedExpansions gaps :=
  backwardFrom_solves h

theorem backwardFrom_of_solves {d : Damping α} {feasible : Bool} : ∀ {nus : List Nat} {t : Nat}
    {stages : Stages α s nus} {gaps : Gaps α s nus} {policy : Policy α s.ndx nus}
    (old : Policy α s.ndx nus), policy.Solves d feasible stages.storedExpansions gaps →
    backwardFrom d feasible t stages gaps old = (policy, none)
  | _, t, .last st, .last f, .last v, .last old, h => by
    obtain ⟨hvalue, hfin⟩ := h
    subst hvalue
    rw [backwardFrom]
    exact if_pos hfin
  | _, t, .stage st rest, .stage f fs, .stage p ps, .stage old olds, h => by
    obtain ⟨⟨hq, hgains, hvalue, hfin⟩, hrest⟩ := h
    rw [backwardFrom, backwardFrom_of_solves olds hrest]
    obtain ⟨q, gains, value⟩ := p
    dsimp only at hq hgains hvalue hfin ⊢
    subst hq hvalue
    rw [hgains]
    exact if_pos hfin

/-- **A backward pass finds whatever policy there is**, from any policy it overwrites. -/
theorem backward_of_solves {d : Damping α} {feasible : Bool} {stages : Stages α s nus}
    {gaps : Gaps α s nus} {policy : Policy α s.ndx nus} (old : Policy α s.ndx nus)
    (h : policy.Solves d feasible stages.storedExpansions gaps) :
    backward d feasible stages gaps old = (policy, none) :=
  backwardFrom_of_solves old h

/-- A pass that ends where `Quu` has no Cholesky factor has overwritten what comes after, and the
model there, but no gains. -/
theorem backwardFrom_indefinite {d : Damping α} {feasible : Bool} (t : Nat) {st : Stage α s nu}
    {rest : Stages α s nus} (f : Vec α s.ndx) {fs : Gaps α s nus} (old : StagePolicy α s.ndx nu)
    (olds : Policy α s.ndx nus) {after : Policy α s.ndx nus}
    (hafter : after.Solves d feasible rest.storedExpansions fs)
    (hnone : (ActionValue.ofExpansion st.data.expansion after.head d.control).gains? = none) :
    backwardFrom d feasible t (.stage st rest) (.stage f fs) (.stage old olds) =
      (.stage { old with q := .ofExpansion st.data.expansion after.head d.control } after,
        some (.indefinite t)) := by
  rw [backwardFrom, backwardFrom_of_solves olds hafter]
  dsimp only
  rw [hnone]

end Shooting
