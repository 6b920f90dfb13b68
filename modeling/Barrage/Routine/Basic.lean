import Barrage.Script.Sheet
import Barrage.Routine.Movement
import Barrage.Routine.Cue

/-!
# Routines

A routine is one phase of an enemy: a frame counter and two tables by time, one of maneuvers and one
of shots. On each frame its owner first reads what is current and only then moves the counter on, so
that nothing scheduled for a frame is skipped.
-/

namespace Barrage

/-- Hit points of a routine. -/
structure HitPoints where
  max : Nat
  current : Nat
  deriving DecidableEq

/-- One phase of an enemy. -/
structure Routine (K : Type) where
  name : String
  /-- Whether it starts again after its last frame. -/
  loops : Bool
  /-- The last frame. -/
  duration : Nat
  hitPoints : Option HitPoints
  time : Nat
  moves : MoveTable K
  shots : ShotTable K
  /-- The movement that lasts until the next maneuver. -/
  ongoing : Movement K
  deriving DecidableEq

namespace Routine

variable {K : Type} [Scalar K]

/-- A routine without moves and shots. -/
def new (name : String) (loops : Bool) (duration : Nat) (hitPoints : Option Nat) : Routine K where
  name := name
  loops := loops
  duration := duration
  hitPoints := hitPoints.map fun hp => ⟨hp, hp⟩
  time := 0
  moves := ∅
  shots := ∅
  ongoing := .still

/-- The routine with a movement entry more. -/
def addMove (r : Routine K) (entry : MoveScript K) : Routine K :=
  { r with moves := r.moves.add entry }

/-- The routine with a shot pattern more. -/
def addPattern (r : Routine K) (pattern : PatternScript K) : Routine K :=
  { r with shots := r.shots.addAll (pattern.cues r.duration) }

/-- The routine of a script. -/
def ofScript (s : RoutineScript K) : Routine K :=
  s.patterns.foldl addPattern
    (s.moves.foldl addMove (new s.name s.loops s.duration s.hitPoints))

/-- Hit points left over hit points at the start, if the routine has some. -/
def healthFraction (r : Routine K) : Option K :=
  r.hitPoints.map fun hp =>
    if hp.max = 0 then 0 else Scalar.whole hp.current / Scalar.whole hp.max

/-- Moves the frame counter on. A routine that loops starts again after its last frame. -/
def advance (r : Routine K) : Routine K :=
  let time := addTime r.time 1
  { r with time := if r.loops && r.duration < time then 0 else time }

/-- Past its last frame, or out of hit points. -/
def isFinished (r : Routine K) : Bool :=
  decide (r.duration < r.time) || r.hitPoints.any (·.current == 0)

/-- Takes hit points away, down to none. -/
def damage (r : Routine K) (amount : Nat) : Routine K :=
  { r with hitPoints := r.hitPoints.map fun hp => { hp with current := hp.current - amount } }

/-- The movement on the current frame, which lasts from then on. A maneuver draws its numbers on the
frame on which it becomes current, and not again. -/
def currentMovement (r : Routine K) (g : Prng) : Movement K × Routine K × Prng :=
  match r.moves[r.time]? with
  | none => (r.ongoing, r, g)
  | some maneuver =>
    let (movement, g) := maneuver.resolve g
    (movement, { r with ongoing := movement }, g)

/-- Stops the ongoing movement along the first axis. -/
def haltX (r : Routine K) : Routine K := { r with ongoing := r.ongoing.haltX }

/-- Stops the ongoing movement along the second axis. -/
def haltY (r : Routine K) : Routine K := { r with ongoing := r.ongoing.haltY }

/-- The shots of the current frame, if it has some. -/
def currentShots (r : Routine K) : Option (List (Shot K)) := r.shots[r.time]?

end Routine

namespace MoveScript

/-- What has to be said about a movement entry when its routine is built. -/
def warnings {K : Type} (routine : String) : MoveScript K → List Warning
  | unknown => [.unknownMove routine]
  | _ => []

end MoveScript

/-- What has to be said when the routine of a script is built. -/
def RoutineScript.warnings {K : Type} [Scalar K] (s : RoutineScript K) : List Warning :=
  s.moves.flatMap (MoveScript.warnings s.name) ++
    s.patterns.flatMap (PatternScript.warnings s.name)

end Barrage
