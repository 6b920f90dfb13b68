import Barrage.Digest
import Barrage.Fight.Basic

/-!
# Fingerprint of a fight

The bytes that stand for the state of a fight between two frames: the frame and the seed, the state
of the random numbers, lives and energy, the player, the enemies in order, and the numbers of
bullets. A body that is gone leaves no bytes, nor does a routine when none is current.
-/

namespace Barrage

variable {K : Type} [Scalar K]

open Encoding

/-- A routine in progress. -/
def Routine.encoding (r : Routine K) : List UInt8 :=
  text r.name ++ word32 r.time ++ word32 ((r.hitPoints.map HitPoints.current).getD 0)

/-- A body that moves by its velocity. -/
def Body.encoding (b : Body K) : List UInt8 := vec b.position ++ vec b.velocity

/-- An enemy in a world. -/
def Enemy.encoding (w : World K) (e : Enemy K) : List UInt8 :=
  word32 e.body ++ text e.image ++
    ((w.bodies[e.body]?.map fun b => b.encoding ++ vec b.acceleration).getD []) ++
    word32 e.sequence.cursor ++ ((e.sequence.current?.map Routine.encoding).getD [])

namespace Fight

/-- The state of a fight, behind frame and seed. -/
def stateEncoding (f : Fight K) : List UInt8 :=
  word64 f.rng.s0.toNat ++ word64 f.rng.s1.toNat ++
    int32 f.status.lives ++ word32 f.status.energy ++
    ((f.world.bodies[f.player.body]?.map Body.encoding).getD []) ++
    flag f.player.invincible ++ word32 f.player.weapon.cooldown ++
    word32 f.enemies.length ++ f.enemies.flatMap (Enemy.encoding f.world) ++
    word32 f.bulletCounts.1 ++ word32 f.bulletCounts.2

/-- The bytes that are hashed. -/
def encoding (f : Fight K) : List UInt8 :=
  fightHeader f.frame f.settings.seed ++ f.stateEncoding

/-- The fingerprint of a fight. -/
def fingerprint (f : Fight K) : List UInt8 := Sha256.hash f.encoding

end Fight

end Barrage
