import Shooting.Model.Basic
import Shooting.Proofs.StrictScalar

/-!
# Models show what is not finite

Cost and next state of a stage pass a check for ordinary numbers only if the state and the control
do that they were found at (`Model.isFinite_of_evaluate`). Weights of zero hide nothing: zero times
infinity is not a number. It is the formulas that have to mention every entry somewhere:

* a linear-quadratic stage charges all of them in its linear terms;
* a unicycle charges the lengths of both vectors;
* a pendulum charges the torque, and the next state is made of all parts of the state; these also
  stand above fraction lines, but not below.

An integrator does not charge its control, and over a space without dimensions no next state shows
it either. Of models from outside nothing is known.
-/

namespace Shooting

variable {α : Type} [Scalar α]

theorem Evaluation.isFinite_iff {nx : Nat} {e : Evaluation α nx} :
    e.isFinite = true ↔ Scalar.isFinite e.cost = true ∧ e.next.isFinite = true :=
  Bool.and_eq_true_iff

/-- Whether a model is part of the library, with finite differences around it or not. Integrators
are for trying things out. -/
def Model.ofLibrary : {s : StateSpace} → {nu : Nat} → Model α s nu → Bool
  | _, _, integrator _ | _, _, custom _ => false
  | _, _, differenced _ inner => inner.ofLibrary
  | _, _, _ => true

variable [StrictScalar α]

open StrictScalar

namespace Lqr

variable {nx nu : Nat} {p : Lqr α nx nu} {x : Vec α nx}

theorem isFinite_of_stateCost (h : Scalar.isFinite (p.stateCost x) = true) : x.isFinite = true :=
  (Vec.isFinite_of_dot (isFinite_of_add h).2).2

theorem isFinite_of_evaluate : ∀ {u : Option (Vec α nu)},
    (p.evaluate x u).isFinite = true → x.isFinite = true ∧ ∀ v ∈ u, v.isFinite = true
  | none, h => ⟨isFinite_of_stateCost (Evaluation.isFinite_iff.mp h).1, nofun⟩
  | some u, h => by
    obtain ⟨hcost, -⟩ := Evaluation.isFinite_iff.mp h
    obtain ⟨hquadratic, hlinear⟩ := isFinite_of_add hcost
    obtain ⟨hweighted, -⟩ := isFinite_of_add hquadratic
    obtain ⟨hstate, -⟩ := isFinite_of_add hweighted
    refine ⟨isFinite_of_stateCost hstate, ?_⟩
    rintro v ⟨⟩
    exact (Vec.isFinite_of_dot hlinear).2

end Lqr

/-- A weighted length shows the entries whatever the weight is. -/
theorem Vec.isFinite_of_mul_normSq {n : Nat} {a : α} {v : Vec α n}
    (h : Scalar.isFinite (a * v.normSq) = true) : v.isFinite = true :=
  (isFinite_of_dot (isFinite_of_mul h).2).1

theorem Unicycle.isFinite_of_evaluate {p : Unicycle α} {x : Vec α 3} : ∀ {u : Option (Vec α 2)},
    (p.evaluate x u).isFinite = true → x.isFinite = true ∧ ∀ v ∈ u, v.isFinite = true
  | none, h => ⟨(Evaluation.isFinite_iff.mp h).2, nofun⟩
  | some u, h => by
    obtain ⟨hcost, -⟩ := Evaluation.isFinite_iff.mp h
    obtain ⟨hstate, hcontrol⟩ := isFinite_of_add hcost
    refine ⟨Vec.isFinite_of_mul_normSq hstate, ?_⟩
    rintro v ⟨⟩
    exact Vec.isFinite_of_mul_normSq hcontrol

/-- A state that is turned and accelerated shows all it consists of. -/
theorem Revolute.isFinite_of_integrate {x : Vec α 3} {dx : Vec α 2}
    (h : (integrate x dx).isFinite = true) : x.isFinite = true := by
  have hentries := Vec.isFinite_iff.mp h
  have hre : Scalar.isFinite (rotation x * Rotation.ofAngle (dx.entry 0)).re = true := hentries 0
  have hvelocity : Scalar.isFinite (velocity x + dx.entry 1) = true := hentries 2
  obtain ⟨hcos, hsin⟩ := isFinite_of_sub hre
  have hx₀ : Scalar.isFinite (x.entry 0) = true := isFinite_of_div (isFinite_of_mul hcos).1
  have hx₁ : Scalar.isFinite (x.entry 1) = true := isFinite_of_div (isFinite_of_mul hsin).1
  have hx₂ : Scalar.isFinite (x.entry 2) = true := (isFinite_of_add hvelocity).1
  refine Vec.isFinite_iff.mpr ?_
  intro i
  match i with
  | 0 => exact hx₀
  | 1 => exact hx₁
  | 2 => exact hx₂

theorem Pendulum.isFinite_of_evaluate {p : Pendulum α} {x : Vec α 3} : ∀ {u : Option (Vec α 1)},
    (p.evaluate x u).isFinite = true → x.isFinite = true ∧ ∀ v ∈ u, v.isFinite = true
  | none, h => ⟨(Evaluation.isFinite_iff.mp h).2, nofun⟩
  | some u, h => by
    obtain ⟨hcost, hnext⟩ := Evaluation.isFinite_iff.mp h
    refine ⟨Revolute.isFinite_of_integrate hnext, ?_⟩
    rintro v ⟨⟩
    have htorque : Scalar.isFinite (u.entry 0) = true :=
      (isFinite_of_mul (isFinite_of_add hcost).2).2
    refine Vec.isFinite_iff.mpr ?_
    intro i
    match i with
    | 0 => exact htorque

/-- **An evaluation of ordinary numbers was made at ordinary numbers.** -/
theorem Model.isFinite_of_evaluate : ∀ {s : StateSpace} {nu : Nat} {m : Model α s nu}
    {x : Vec α s.nx} {u : Option (Vec α nu)}, m.ofLibrary = true →
    (m.evaluate x u).isFinite = true → x.isFinite = true ∧ ∀ v ∈ u, v.isFinite = true
  | _, _, lqr _, _, _, _, h => Lqr.isFinite_of_evaluate h
  | _, _, unicycle _, _, _, _, h => Unicycle.isFinite_of_evaluate h
  | _, _, pendulum _, _, _, _, h => Pendulum.isFinite_of_evaluate h
  | _, _, integrator _, _, _, hlib, _ => nomatch hlib
  | _, _, custom _, _, _, hlib, _ => nomatch hlib
  | _, _, differenced _ inner, _, _, hlib, h => isFinite_of_evaluate (m := inner) hlib h

end Shooting
