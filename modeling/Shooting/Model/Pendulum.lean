import Shooting.StateSpace.Revolute
import Shooting.StageData

/-!
# Torque-driven pendulum

A damped pendulum with a motor at its pivot. The angle is measured from the hanging position and
stored on the circle. One symplectic Euler step of length `dt` uses the new velocity:

    a  = (τ - m g l sin θ - b ω) / (m l²)
    ω' = ω + a dt
    θ' = θ ⊕ ω' dt

The cost `½ w_θ (θ ⊖ θ_goal)² + ½ w_ω ω² + ½ w_τ τ²` charges the angle to a goal, the velocity and
the torque. Without a control the state stays and the torque is not charged.
-/

namespace Shooting

/-- Physics, step length, goal and cost weights of a pendulum. -/
structure Pendulum (α : Type) where
  mass : α
  length : α
  gravity : α
  damping : α
  dt : α
  goal : Rotation α
  angleWeight : α
  velocityWeight : α
  torqueWeight : α
  deriving DecidableEq, Repr

namespace Pendulum

variable {α : Type} [Scalar α]

/-- Unit mass and length, light damping, short steps, and the upright position as the goal. -/
def standard : Pendulum α where
  mass := 1
  length := 1
  gravity := 9.81
  damping := 0.1
  dt := 0.02
  goal := .ofAngle Scalar.pi
  angleWeight := 1
  velocityWeight := 0.1
  torqueWeight := 1e-3

/-- The moment of inertia about the pivot. -/
def inertia (p : Pendulum α) : α := p.mass * p.length * p.length

/-- The angular acceleration. -/
def acceleration (p : Pendulum α) (sinθ ω τ : α) : α :=
  (τ - p.mass * p.gravity * p.length * sinθ - p.damping * ω) / p.inertia

/-- The angle from the goal to a state. -/
def angleError (p : Pendulum α) (x : Vec α 3) : α := (p.goal.inverse * Revolute.rotation x).angle

/-- The part of the cost that does not depend on the torque. -/
def stateCost (p : Pendulum α) (x : Vec α 3) : α :=
  let e := p.angleError x
  let ω := Revolute.velocity x
  0.5 * p.angleWeight * e * e + 0.5 * p.velocityWeight * ω * ω

/-- Next state and cost. -/
def evaluate (p : Pendulum α) (x : Vec α 3) : Option (Vec α 1) → Evaluation α 3
  | some u =>
    let τ := u.entry 0
    let ω := Revolute.velocity x
    let a := p.acceleration (Revolute.rotation x).im ω τ
    { cost := p.stateCost x + 0.5 * p.torqueWeight * τ * τ
      next := Revolute.integrate x ⟨#v[(ω + a * p.dt) * p.dt, a * p.dt]⟩ }
  | none => { cost := p.stateCost x, next := x }

/-- Derivatives at a state and a control. -/
def expand (p : Pendulum α) (x : Vec α 3) (u : Option (Vec α 1)) : Expansion α 2 1 :=
  let lx : Vec α 2 := ⟨#v[p.angleWeight * p.angleError x, p.velocityWeight * Revolute.velocity x]⟩
  let lxx : Mat α 2 2 := .diagonal ⟨#v[p.angleWeight, p.velocityWeight]⟩
  match u with
  | some u =>
    let dt := p.dt
    -- derivatives of the acceleration; the new velocity enters the angle once more times `dt`
    let daθ := -p.gravity * (Revolute.rotation x).re / p.length
    let daω := -p.damping / p.inertia
    let daτ := 1 / p.inertia
    { fx := ⟨⟨#v[⟨#v[1 + daθ * dt * dt, dt + daω * dt * dt]⟩, ⟨#v[daθ * dt, 1 + daω * dt]⟩]⟩⟩
      fu := ⟨⟨#v[⟨#v[daτ * dt * dt]⟩, ⟨#v[daτ * dt]⟩]⟩⟩
      lx
      lu := ⟨#v[p.torqueWeight * u.entry 0]⟩
      lxx
      luu := ⟨⟨#v[⟨#v[p.torqueWeight]⟩]⟩⟩
      lxu := 0 }
  | none => { fx := .identity 2, fu := 0, lx, lu := 0, lxx, luu := 0, lxu := 0 }

end Pendulum

end Shooting
