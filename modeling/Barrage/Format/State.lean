import Barrage.Json.Decode
import Barrage.Routine.Basic
import Barrage.Actor.Status

/-!
# JSON form of parts of a state

The movement of an enemy, and the lives and energy of the player.
-/

namespace Barrage

variable {K : Type} [Scalar K]

namespace Movement

/-- A movement from JSON. -/
def ofJson? (j : Json K) : Option (Movement K) := do
  let f ← j.record? 5
  let ax ← f.required 0 "x_acceleration" Json.scalar?
  let ay ← f.required 1 "y_acceleration" Json.scalar?
  let vx ← f.required 2 "x_velo" Json.scalar?
  let vy ← f.required 3 "y_velo" Json.scalar?
  return ⟨⟨vx, vy⟩, ⟨ax, ay⟩, ← f.required 4 "can_leave" Json.bool?⟩

/-- A movement in JSON. -/
def toJson (m : Movement K) : Json K :=
  .obj [("x_acceleration", .ofScalar m.acceleration.x),
    ("y_acceleration", .ofScalar m.acceleration.y), ("x_velo", .ofScalar m.velocity.x),
    ("y_velo", .ofScalar m.velocity.y), ("can_leave", .bool m.mayLeave)]

end Movement

/-- Lives and energy in JSON. -/
def Status.toJson (s : Status) : Json K :=
  .obj [("cur_lives", .int s.lives), ("max_lives", .int s.maxLives),
    ("special", .obj [("name", .str s.special), ("energy", .ofNat s.energy),
      ("energy_required", .ofNat s.energyRequired)])]

end Barrage
