import Barrage.World.Overlap
import Barrage.Actor.Enemy
import Barrage.Actor.Player

/-!
# Collisions

What overlaps in a world and what follows from it. A hit of the player costs a life and starts a
window without further harm; a hit of an enemy uses the bullet up. A bullet that is off the screen
by its whole size is removed.
-/

namespace Barrage

variable {K : Type} [Scalar K]

/-- Number of overlaps of a body with the members of some groups. -/
def World.hitsOf (w : World K) (body : BodyId) (groups : List GroupId) : Nat :=
  (groups.flatMap (w.overlapping body)).length

/-- The player met something hostile. The hit counts unless a window without harm is running; the
result is nothing if it does not count. -/
def hitPlayer (player : Player K) (status : Status) (timers : TimerQueue TimerAction) :
    Except Fault (Option (Player K × Status × TimerQueue TimerAction)) :=
  if player.invincible then .ok none
  else (player.startWindow timers).map fun (player, timers) =>
    some (player, status.addLives (-1), timers)

/-- A bullet met an enemy. The bullet is used up and its damage is dealt, or the default if it says
none; nothing happens if the bullet is gone. -/
def hitEnemy (world : World K) (bullet : BodyId) (enemy : Enemy K) (default : Nat) :
    Option (Nat × Enemy K × World K) :=
  if world.bodies.contains bullet then
    let amount := world.damage[bullet]?.getD default
    some (amount, enemy.damage amount, world.destroy bullet)
  else none

/-- Whether a body is off the screen by its whole size. -/
def Body.isOutside (b : Body K) (viewport : Size K) : Bool :=
  decide (b.position.x + b.width < 0) || decide (viewport.width < b.position.x - b.width) ||
    decide (b.position.y + b.height < 0) || decide (viewport.height < b.position.y - b.height)

/-- The members of a group that are off the screen. -/
@[specialize]
def World.outside (w : World K) (group : GroupId) (viewport : Size K) : List BodyId :=
  (w.members group).filter fun id => w.bodies[id]?.any (·.isOutside viewport)

/-- Removes the members of a group that are off the screen. -/
def World.sweep (w : World K) (group : GroupId) (viewport : Size K) : World K :=
  (w.outside group viewport).foldl destroy w

end Barrage
