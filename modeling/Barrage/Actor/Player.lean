import Barrage.Script.Settings
import Barrage.World.Volley
import Barrage.Input.Action
import Barrage.Fight.Event
import Barrage.Actor.Status
import Barrage.TimerQueue

/-!
# The player

A body that is steered by keys, a weapon with a cooldown, and a window after each hit in which no
further hit counts.
-/

namespace Barrage

/-- A weapon in use. -/
structure Weapon (K : Type) where
  /-- Frames between two volleys. -/
  fireRate : Nat
  shots : List (Shot K)
  /-- Frames until the next volley. -/
  cooldown : Nat
  deriving DecidableEq

/-- The player in a world. -/
structure Player (K : Type) where
  folder : String
  body : BodyId
  weapon : Weapon K
  speeds : Speeds K
  /-- Frames without harm after a hit. -/
  window : Nat
  /-- Whether such a window is running. -/
  invincible : Bool
  deriving DecidableEq

/-- Key of the player's image. -/
def playerSprite : String := "player_sprite"

namespace Player

variable {K : Type} [Scalar K]

/-- The player of a sheet, with a body that exists. -/
def ofSheet (sheet : PlayerSheet K) (body : BodyId) : Player K where
  folder := sheet.folder
  body := body
  weapon := ⟨sheet.weapon.fireRate, sheet.weapon.shots, 0⟩
  speeds := sheet.speeds
  window := sheet.invincibility
  invincible := false

/-- Puts the player into the world and into a group. The body is kept inside the world. -/
def spawn (sheet : PlayerSheet K) (world : World K) (group : GroupId) (settings : Settings K)
    (size : Size K) : Player K × World K :=
  let point :=
    settings.playerPlace.onScreen settings.viewport.width settings.viewport.height
  let (body, world) := world.create playerSprite point size
  let world := world.modify body fun b => { b with bounded := true }
  (ofSheet sheet body, world.join group body)

/-- The velocity for the keys that are active. Opposite keys cancel, and two keys across add up. -/
def velocity (p : Player K) (keys : ActionSet) : Vec K :=
  let speed := if keys.has .slow then p.speeds.slowed else p.speeds.normal
  let y : K := if keys.has .up then 0 - speed else 0
  let y := if keys.has .down then y + speed else y
  let x : K := if keys.has .left then 0 - speed else 0
  let x := if keys.has .right then x + speed else x
  ⟨x, y⟩

/-- Fires a volley if the key is active and the weapon is ready; otherwise the weapon cools down. -/
def fire (p : Player K) (keys : ActionSet) (world : World K) (group : GroupId)
    (sizeOf : String → Size K) : Nat × Player K × World K :=
  if keys.has .fire && p.weapon.cooldown == 0 then
    let (ids, world) := world.spawnShots p.weapon.shots p.body group sizeOf
    (ids.length, { p with weapon := { p.weapon with cooldown := p.weapon.fireRate } }, world)
  else
    (0, { p with weapon := { p.weapon with cooldown := p.weapon.cooldown - 1 } }, world)

/-- One frame of the player, with the number of shots fired. -/
def update (p : Player K) (keys : ActionSet) (world : World K) (group : GroupId)
    (sizeOf : String → Size K) : Nat × Player K × World K :=
  p.fire keys (world.setVelocity p.body (p.velocity keys)) group sizeOf

/-- Starts the window without harm, and sets the timer that ends it. -/
def startWindow (p : Player K) (timers : TimerQueue TimerAction) :
    Except Fault (Player K × TimerQueue TimerAction) :=
  (timers.once p.window .endInvincibility).map fun (_, timers) =>
    ({ p with invincible := true }, timers)

/-- Ends the window without harm. -/
def endWindow (p : Player K) : Player K := { p with invincible := false }

end Player

end Barrage
