import Barrage.Script.Shot
import Barrage.World.Basic

/-!
# Firing shots

A shot that is fired from a body becomes a body of its own, at a place relative to the first one. It
joins a group before it gets its velocity, since a group sets the velocity of what joins it.
-/

namespace Barrage

variable {K : Type} [Scalar K]

namespace World

/-- Fires a shot from a body: a new body joins the group, and then it gets the velocity of the shot.
Nothing is fired from a body that is gone. -/
def spawnShot (w : World K) (shot : Shot K) (source : BodyId) (group : GroupId) (size : Size K) :
    Option (BodyId × World K) :=
  w.bodies[source]?.map fun b =>
    let (id, w) := w.create shot.image (shot.spawnPoint b.position b.half) size
    let w := match shot.damage with
      | some damage => w.tagDamage id damage
      | none => w
    (id, (w.join group id).setVelocity id shot.velocity.toVec)

/-- Fires shots in order; `sizeOf` gives the size for the key of an image. -/
def spawnShots (w : World K) (shots : List (Shot K)) (source : BodyId) (group : GroupId)
    (sizeOf : String → Size K) : List BodyId × World K :=
  match shots with
  | [] => ([], w)
  | shot :: rest =>
    match w.spawnShot shot source group (sizeOf shot.image) with
    | none => w.spawnShots rest source group sizeOf
    | some (id, w) =>
      let (ids, w) := w.spawnShots rest source group sizeOf
      (id :: ids, w)

end World

end Barrage
