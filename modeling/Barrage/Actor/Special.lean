import Barrage.World.Confinement
import Barrage.Actor.Player
import Barrage.Warning

/-!
# Specials

A special is used when the energy is full and its key is active, and it spends all energy. The one
special with an effect is the blink: a jump over a fixed distance in the direction of the active
keys, up to the border of the playfield. Any other name spends the energy and does nothing.
-/

namespace Barrage

/-- The special that jumps. -/
def blinkName : String := "blink"

variable {K : Type} [Scalar K]

/-- The angle of a jump. Opposite keys cancel, and without a direction the jump goes up. -/
def blinkDegrees (keys : ActionSet) : K :=
  let left := keys.only .left .right
  let right := keys.only .right .left
  Scalar.whole <|
    if keys.only .up .down then if left then 225 else if right then 135 else 180
    else if keys.only .down .up then if left then 315 else if right then 45 else 0
    else if left then 270 else if right then 90 else 180

/-- Jumps with a body, within the playfield. -/
def World.blink (w : World K) (body : BodyId) (keys : ActionSet) (playfield : Limits K)
    (distance : K) : World K :=
  w.modify body fun b =>
    (b.moveWithin playfield (.polar distance (blinkDegrees keys)) .teleport).2

/-- What the special leaves behind. -/
structure SpecialFrame (K : Type) where
  /-- Name of the special that was used, if one was. -/
  used : Option String
  status : Status
  world : World K
  warnings : List Warning

/-- Uses the special if its energy is full and its key is active. -/
def useSpecial (keys : ActionSet) (status : Status) (world : World K) (body : BodyId)
    (playfield : Limits K) (distance : K) : SpecialFrame K :=
  if status.isReady && keys.has .special then
    let known := status.special == blinkName
    { used := some status.special
      status := status.clearEnergy
      world := if known then world.blink body keys playfield distance else world
      warnings := if known then [] else [.unknownSpecial status.special] }
  else { used := none, status, world, warnings := [] }

end Barrage
