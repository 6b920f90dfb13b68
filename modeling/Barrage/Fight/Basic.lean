import Barrage.Actor.Harm
import Barrage.Input.Keyboard
import Barrage.Level
import Barrage.Actor.Special

/-!
# Fights

A fight owns the world, the player, the enemies, lives and energy, the timers, the timeline and the
random numbers, and moves all of them on by one frame per `tick`. A tick is told which keys are
held. The same assets, settings and keys give the same fight: nothing else enters.

A frame runs through phases. Each of them takes a fight to a fight and gives the events that
happened in it; a tick hands out all events of its frame, sorted. Counters have a fixed width, and
a frame after which one of them would not fit is a fault.
-/

namespace Barrage

/-- Group of the player. -/
def playerGroup : GroupId := 0

/-- Group of the player's bullets. -/
def playerBullets : GroupId := 1

/-- Group of the enemies. -/
def enemyGroup : GroupId := 2

/-- Group of the enemies' bullets. -/
def enemyBullets : GroupId := 3

/-- A fight. -/
structure Fight (K : Type) where
  settings : Settings K
  /-- The assets that enemies are made from. -/
  assets : Assets K
  sizes : SizeTable K
  /-- The enemies to come. -/
  arrivals : List Arrival
  world : World K
  /-- The borders of the screen. -/
  playfield : Limits K
  player : Player K
  /-- The enemies in the fight, in the order of their arrival. -/
  enemies : List (Enemy K)
  /-- Lives and energy. -/
  status : Status
  timers : TimerQueue TimerAction
  keys : Keyboard
  rng : Prng
  /-- Frames simulated so far. -/
  frame : Nat
  ended : Bool
  /-- What had to be said so far. -/
  log : List Warning

/-- What a tick tells its caller. -/
structure TickReport where
  /-- The events of the frame, in their order. -/
  events : List Event
  /-- The pause key went down, and nothing was simulated. -/
  pauseRequested : Bool
  ended : Bool
  deriving DecidableEq

namespace Fight

variable {K : Type} [Scalar K]

/-! ## Setting up -/

/-- A world with the four groups of a fight. -/
def emptyWorld (bounds : Rect K) : World K :=
  { World.empty bounds with
    groups := List.replicate 4 { defaults := ⟨.zero, .zero⟩, members := [] } }

/-- The timers of a fight before its first frame: energy is gained again and again. The first due
frame is the interval itself, which fits. -/
def startTimers (interval : Nat) : TimerQueue TimerAction :=
  (TimerQueue.empty.arm (max interval 1)
    { action := .gainEnergy, interval := some (.ofNat interval) }).2

/-- The fight of a level before its first frame. -/
def ofLevel (assets : Assets K) (settings : Settings K) (level : Level K) : Fight K :=
  let bounds := Rect.ofCorner 0 0 settings.viewport.width settings.viewport.height
  let size := level.sizes.sizeOf settings.spriteSize playerSprite
  let (player, world) :=
    Player.spawn level.player (emptyWorld bounds) playerGroup settings size
  { settings, assets, world, player
    sizes := level.sizes
    arrivals := level.arrivals
    playfield := .ofRect bounds
    enemies := []
    status := .new level.player.lives settings.maxLives level.player.special
    timers := startTimers settings.energyInterval
    keys := .idle
    rng := .seeded (UInt64.ofNat settings.seed)
    frame := 0
    ended := false
    log := Level.warnings assets }

/-- Sets up a fight. All assets it will need are read here. -/
def start (assets : Assets K) (settings : Settings K) : Except AssetError (Fight K) :=
  (Level.load assets).map (ofLevel assets settings)

/-! ## Views -/

/-- The size of a sprite. -/
def sizeOf (f : Fight K) (key : String) : Size K := f.sizes.sizeOf f.settings.spriteSize key

/-- Numbers of the player's and of the enemies' bullets. -/
def bulletCounts (f : Fight K) : Nat × Nat :=
  ((f.world.members playerBullets).length, (f.world.members enemyBullets).length)

/-- Health of the first boss in the fight, if its routine has hit points. -/
def bossHealth (f : Fight K) : Option K :=
  (f.enemies.find? (·.kind == .boss)).bind Enemy.health

/-! ## Phases of a frame -/

/-- Carries out what a timer delivers. -/
def applyTimer (f : Fight K) : TimerAction → Fight K × List Event
  | .endInvincibility =>
    ({ f with player := f.player.endWindow }, [.on f.frame .invincibilityEnded])
  | .gainEnergy =>
    ({ f with status := f.status.addEnergy f.settings.energyGain }, [])

/-- Carries out several deliveries in order. -/
def applyTimers (f : Fight K) : List TimerAction → Fight K × List Event
  | [] => (f, [])
  | action :: rest =>
    let (f, events) := f.applyTimer action
    let (f, later) := f.applyTimers rest
    (f, events ++ later)

/-- Moves the timers on and carries out what they deliver. -/
def runTimers (f : Fight K) : Fight K × List Event :=
  let (actions, timers) := f.timers.advance
  { f with timers }.applyTimers actions

/-- Moves the bodies on. -/
def moveBodies (f : Fight K) : Fight K := { f with world := f.world.step f.settings.dt }

/-- Hits the player a number of times. -/
def takeHits (f : Fight K) : Nat → Except Fault (Fight K × List Event)
  | 0 => .ok (f, [])
  | count + 1 => do
    match ← hitPlayer f.player f.status f.timers with
    | none => f.takeHits count
    | some (player, status, timers) =>
      let (f, events) ← { f with player, status, timers }.takeHits count
      return (f, .on f.frame (.playerHit status.lives) :: events)

/-- Hits the player once for each enemy and each enemy bullet that overlaps it. -/
def hitPlayerPhase (f : Fight K) : Except Fault (Fight K × List Event) :=
  f.takeHits (f.world.hitsOf f.player.body [enemyGroup, enemyBullets])

/-- A bullet of the player meets an enemy. -/
def hitEnemyBy (f : Fight K) (bullet enemy : BodyId) : Fight K × List Event :=
  match f.enemies.findIdx? (·.body == enemy) with
  | none => (f, [])
  | some i =>
    match f.enemies[i]? with
    | none => (f, [])
    | some e =>
      match hitEnemy f.world bullet e f.settings.shotDamage with
      | none => (f, [])
      | some (amount, e, world) =>
        ({ f with world, enemies := f.enemies.set i e }, [.on f.frame (.enemyHit enemy amount)])

/-- Bullets of the player meet enemies, in order. -/
def hitEnemies (f : Fight K) : List (BodyId × BodyId) → Fight K × List Event
  | [] => (f, [])
  | (bullet, enemy) :: rest =>
    let (f, events) := f.hitEnemyBy bullet enemy
    let (f, later) := f.hitEnemies rest
    (f, events ++ later)

/-- Hits enemies with all bullets that overlap them. -/
def hitEnemyPhase (f : Fight K) : Fight K × List Event :=
  f.hitEnemies (f.world.overlapPairs playerBullets enemyGroup)

/-- Steers the player, fires its weapon and uses its special. -/
def playerPhase (f : Fight K) (keys : ActionSet) : Fight K × List Event :=
  let (_, player, world) := f.player.update keys f.world playerBullets f.sizeOf
  let s := useSpecial keys f.status world player.body f.playfield f.settings.blinkDistance
  ({ f with player, status := s.status, world := s.world, log := f.log ++ s.warnings },
    (s.used.map fun name => Event.on f.frame (.specialExecuted name)).toList)

/-- Brings an enemy into the fight. -/
def bringIn (f : Fight K) (a : Arrival) : Fight K × List Event :=
  let log := f.log ++ Enemy.spawnWarnings a.sheet f.assets
  match Enemy.spawn a.sheet f.assets f.world enemyGroup f.settings (f.sizeOf a.sheet.image) with
  | .ok (enemy, world) =>
    ({ f with world, log, enemies := f.enemies ++ [enemy] },
      [.on f.frame (.enemySpawned enemy.body enemy.image)])
  | .error error => ({ f with log := log ++ [.spawnFailed a.key error] }, [])

/-- Brings enemies into the fight, in order. -/
def bringInAll (f : Fight K) : List Arrival → Fight K × List Event
  | [] => (f, [])
  | a :: rest =>
    let (f, events) := f.bringIn a
    let (f, later) := f.bringInAll rest
    (f, events ++ later)

/-- Brings in the enemies whose frame has come. -/
def arrivalPhase (f : Fight K) : Fight K × List Event :=
  f.bringInAll (f.arrivals.filter (·.time == f.frame))

/-- The event of an enemy's change to another routine, if there was one. -/
def changeEvents (frame : Nat) (before after : Enemy K) : List Event :=
  if after.sequence.cursor == before.sequence.cursor then []
  else match after.sequence.current? with
    | none => []
    | some r => [.on frame (.routineChanged after.body r.name)]

/-- What the updates of several enemies leave behind. -/
structure EnemiesFrame (K : Type) where
  /-- The enemies, those included that are done. -/
  enemies : List (Enemy K)
  /-- Bodies of the enemies that are done. -/
  finished : List BodyId
  events : List Event
  world : World K
  rng : Prng

/-- Updates enemies in order; each one sees the world as the one before left it. -/
def updateEnemies (f : Fight K) (world : World K) (rng : Prng) :
    List (Enemy K) → EnemiesFrame K
  | [] => { enemies := [], finished := [], events := [], world, rng }
  | e :: rest =>
    let u := e.update world rng enemyBullets f.settings.dt f.sizeOf
    let later := f.updateEnemies u.world u.rng rest
    match u.report with
    | .finished =>
      { later with enemies := u.enemy :: later.enemies, finished := e.body :: later.finished }
    | .active _ =>
      { later with
        enemies := u.enemy :: later.enemies
        events := changeEvents f.frame e u.enemy ++ later.events }

/-- Updates the enemies, and removes those that are done. -/
def enemyPhase (f : Fight K) : Fight K × List Event :=
  let u := f.updateEnemies f.world f.rng f.enemies
  ({ f with
      world := u.finished.foldl World.destroy u.world
      rng := u.rng
      enemies := u.enemies.filter fun e => !u.finished.contains e.body },
    u.events ++ u.finished.map fun body => .on f.frame (.enemyExhausted body))

/-- Removes the bullets that are off the screen. -/
def sweepPhase (f : Fight K) : Fight K :=
  let world := f.world.sweep playerBullets f.settings.viewport
  { f with world := world.sweep enemyBullets f.settings.viewport }

/-- Counts the frame, and ends the fight if no lives are left. -/
def countFrame (f : Fight K) : Fight K × List Event :=
  let frame := f.frame + 1
  if f.status.isOver then
    ({ f with frame, ended := true }, [.on frame (.gameOver frame)])
  else ({ f with frame }, [])

/-- Whether the counters of frames and bodies fit their width. -/
def fits (f : Fight K) : Bool :=
  decide (f.frame < counterCapacity) && decide (f.world.nextBody < counterCapacity)

/-- One frame with the actions that are active. The events are in the order in which they
happened. -/
def simulate (f : Fight K) (keys : ActionSet) : Except Fault (Fight K × List Event) := do
  let (f, timerEvents) := f.runTimers
  let (f, playerHits) ← f.moveBodies.hitPlayerPhase
  let (f, enemyHits) := f.hitEnemyPhase
  let (f, specials) := f.playerPhase keys
  let (f, spawned) := f.arrivalPhase
  let (f, changes) := f.enemyPhase
  let (f, ends) := f.sweepPhase.countFrame
  if f.fits then
    return (f, timerEvents ++ playerHits ++ enemyHits ++ specials ++ spawned ++ changes ++ ends)
  else throw .counterOverflow

/-! ## Running a fight -/

/-- One frame with the keys that are held. A fight that is over does not change any more. When the
pause key goes down, the caller is asked to pause and nothing is simulated. -/
def tick (f : Fight K) (raw : ActionSet) : Except Fault (Fight K × TickReport) :=
  if f.ended then .ok (f, { events := [], pauseRequested := false, ended := true })
  else
    let f := { f with keys := f.keys.update raw }
    if f.keys.active.has .pause then
      .ok (f, { events := [], pauseRequested := true, ended := false })
    else
      (f.simulate f.keys.active).map fun (f, events) =>
        (f, { events := Event.sort events, pauseRequested := false, ended := f.ended })

/-- Goes on after a pause: no key is blocked any more. -/
def resume (f : Fight K) : Fight K := { f with keys := f.keys.releaseAll }

end Fight

end Barrage
