import Barrage.World.Confinement
import Barrage.World.Volley
import Barrage.Routine.Sequence
import Barrage.Assets

/-!
# Enemies

An enemy ties a sequence of routines to a body. On a frame it first moves to the next routine if the
current one is over, then takes up the movement of its routine, then fires the shots of its routine,
and last moves the routine's frame counter on. Unless the movement lets it leave, the enemy stays
inside its limits: a movement that would cross a border is stopped along that axis.
-/

namespace Barrage

/-- An enemy in a world. -/
structure Enemy (K : Type) where
  kind : EnemyKind
  image : String
  body : BodyId
  sequence : Sequence K
  /-- The borders it keeps to. -/
  limits : Limits K
  deriving DecidableEq

/-- What an enemy did on a frame. -/
inductive EnemyReport where
  /-- It acted, and fired so many shots. -/
  | active (shots : Nat)
  /-- No routine is left. -/
  | finished
  deriving DecidableEq, Repr

/-- What the update of an enemy leaves behind. -/
structure EnemyFrame (K : Type) where
  report : EnemyReport
  enemy : Enemy K
  world : World K
  rng : Prng

namespace Enemy

variable {K : Type} [Scalar K]

/-- The limits of an enemy of some kind. -/
def limitsOf (settings : Settings K) : EnemyKind → Limits K
  | .boss => settings.bossLimits.onScreen settings.viewport.width settings.viewport.height
  | .ordinary => .unbounded

/-- The routines of an enemy, as they are written. -/
def scripts (sheet : EnemySheet) (assets : Assets K) :
    Except AssetError (List (RoutineScript K)) :=
  sheet.routines.mapM assets.routine

/-- Puts an enemy into the world and into a group. The routines are read before, so that an error
leaves the world as it is. -/
def spawn (sheet : EnemySheet) (assets : Assets K) (world : World K) (group : GroupId)
    (settings : Settings K) (size : Size K) : Except AssetError (Enemy K × World K) :=
  (scripts sheet assets).map fun scripts =>
    let point :=
      settings.enemyPlace.onScreen settings.viewport.width settings.viewport.height
    let (body, world) := world.create sheet.image point size
    let enemy : Enemy K :=
      { kind := sheet.kind, image := sheet.image, body
        sequence := .new (scripts.map Routine.ofScript)
        limits := limitsOf settings sheet.kind }
    (enemy, world.join group body)

/-- What has to be said when an enemy is put into the world: what is left out of its routines, up to
the first one that cannot be read. -/
def spawnWarnings (sheet : EnemySheet) (assets : Assets K) : List Warning :=
  ((sheet.routines.map assets.routine).takeWhile Except.isOk).flatMap fun script =>
    (script.toOption.map RoutineScript.warnings).getD []

/-- Takes hit points from the current routine. -/
def damage (e : Enemy K) (amount : Nat) : Enemy K :=
  { e with sequence := e.sequence.damage amount }

/-- Health of the current routine between zero and one, if it has hit points. -/
def health (e : Enemy K) : Option K := e.sequence.current?.bind Routine.healthFraction

/-- The enemy at the routine of this frame, if one is left. -/
def transition? (e : Enemy K) : Option (Enemy K) :=
  if !e.sequence.isFinished then some e
  else if e.sequence.hasNext then some { e with sequence := e.sequence.toNext }
  else none

/-- Gives a movement to the enemy's body. A body that may not leave is first moved flush against the
borders that the movement would cross, and the movement stops along these axes. -/
def applyMovement (e : Enemy K) (world : World K) (movement : Movement K) (dt : K) :
    Enemy K × World K :=
  match world.bodies[e.body]? with
  | none => (e, world)
  | some b =>
    if movement.mayLeave then
      (e, world.modify e.body fun b =>
        { b with velocity := movement.velocity, acceleration := movement.acceleration })
    else
      let (fits, b) := b.moveWithin e.limits (movement.displacement dt) .velocity
      let sequence := if fits.x then e.sequence else e.sequence.haltX
      let sequence := if fits.y then sequence else sequence.haltY
      let movement := if fits.x then movement else movement.haltX
      let movement := if fits.y then movement else movement.haltY
      ({ e with sequence }, world.modify e.body fun _ =>
        { b with velocity := movement.velocity, acceleration := movement.acceleration })

/-- Takes up the movement of the current routine. -/
def move (e : Enemy K) (world : World K) (rng : Prng) (dt : K) : Enemy K × World K × Prng :=
  let (movement, sequence, rng) := e.sequence.currentMovement rng
  let (e, world) := { e with sequence }.applyMovement world movement dt
  (e, world, rng)

/-- Fires the shots of the current routine into a group, and counts them. -/
def fire (e : Enemy K) (world : World K) (group : GroupId) (sizeOf : String → Size K) :
    Nat × World K :=
  match e.sequence.currentShots with
  | none => (0, world)
  | some shots =>
    let (ids, world) := world.spawnShots shots e.body group sizeOf
    (ids.length, world)

/-- One frame of an enemy. -/
def update (e : Enemy K) (world : World K) (rng : Prng) (group : GroupId) (dt : K)
    (sizeOf : String → Size K) : EnemyFrame K :=
  match e.transition? with
  | none => { report := .finished, enemy := e, world, rng }
  | some e =>
    let (e, world, rng) := e.move world rng dt
    let (shots, world) := e.fire world group sizeOf
    { report := .active shots
      enemy := { e with sequence := e.sequence.advance }, world, rng }

end Enemy

end Barrage
