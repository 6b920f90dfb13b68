import Barrage.Input.Action
import Barrage.Fight.Event
import Barrage.Json.Decode

/-!
# JSON form of events

An event is a record. What happened is an object whose one member is named for it and holds an
object of its details; the end of the window without harm has no details and is written as its
name.
-/

namespace Barrage

variable {K : Type} [Scalar K]

namespace Action

/-- The name of an action. -/
def name : Action → String
  | up => "Up"
  | down => "Down"
  | left => "Left"
  | right => "Right"
  | slow => "Slow"
  | fire => "Fire"
  | special => "Special"
  | pause => "Pause"
  | enter => "Enter"

/-- The action of a name. -/
def ofName? (name : String) : Option Action := all.find? (·.name == name)

/-- An action from JSON. -/
def ofJson? (j : Json K) : Option Action := j.name?.bind ofName?

end Action

namespace TimerAction

/-- The name of what a timer delivers. -/
def name : TimerAction → String
  | endInvincibility => "EndInvincibility"
  | gainEnergy => "AccrueEnergy"

/-- What a timer delivers, from JSON. -/
def ofJson? (j : Json K) : Option TimerAction :=
  j.name?.bind fun n => [endInvincibility, gainEnergy].find? (·.name == n)

end TimerAction

namespace Priority

/-- Every priority in order. -/
def all : List Priority := [playerHit, enemyHit, special, lifecycle, other]

/-- The name of a priority. -/
def name : Priority → String
  | playerHit => "PlayerHit"
  | enemyHit => "EnemyHit"
  | special => "Special"
  | lifecycle => "EnemyLifecycle"
  | other => "Other"

/-- A priority from JSON. -/
def ofJson? (j : Json K) : Option Priority := j.name?.bind fun n => all.find? (·.name == n)

end Priority

namespace EventData

/-- What happened, from its name and the object of its details. -/
def ofMember? (name : String) (details : Json K) : Option EventData := do
  let f ← details.object?
  match name with
  | "EnemySpawned" =>
    return .enemySpawned (← f.required 0 "enemy" Json.nat32?) (← f.required 1 "sprite_id" Json.str?)
  | "RoutineChanged" =>
    return .routineChanged (← f.required 0 "enemy" Json.nat32?) (← f.required 1 "routine" Json.str?)
  | "EnemyExhausted" => return .enemyExhausted (← f.required 0 "enemy" Json.nat32?)
  | "PlayerHit" => return .playerHit (← f.required 0 "lives_left" Json.int32?)
  | "EnemyHit" =>
    return .enemyHit (← f.required 0 "enemy" Json.nat32?) (← f.required 1 "damage" Json.nat32?)
  | "SpecialExecuted" => return .specialExecuted (← f.required 0 "name" Json.str?)
  | "GameOver" => return .gameOver (← f.required 0 "duration_frames" Json.nat32?)
  | _ => none

/-- What happened, from JSON. -/
def ofJson? (j : Json K) : Option EventData :=
  if j.name? = some "InvincibilityEnded" then some .invincibilityEnded
  else match j with
    | .obj [(name, details)] => ofMember? name details
    | _ => none

/-- What happened in JSON. -/
def toJson : EventData → Json K
  | enemySpawned enemy sprite => details "EnemySpawned"
      [("enemy", .ofNat enemy), ("sprite_id", .str sprite)]
  | routineChanged enemy routine => details "RoutineChanged"
      [("enemy", .ofNat enemy), ("routine", .str routine)]
  | enemyExhausted enemy => details "EnemyExhausted" [("enemy", .ofNat enemy)]
  | playerHit livesLeft => details "PlayerHit" [("lives_left", .int livesLeft)]
  | enemyHit enemy damage => details "EnemyHit"
      [("enemy", .ofNat enemy), ("damage", .ofNat damage)]
  | specialExecuted name => details "SpecialExecuted" [("name", .str name)]
  | invincibilityEnded => .str "InvincibilityEnded"
  | gameOver frames => details "GameOver" [("duration_frames", .ofNat frames)]
where
  /-- An object with one member. -/
  details (name : String) (members : List (String × Json K)) : Json K :=
    .obj [(name, .obj members)]

end EventData

namespace Event

/-- An event from JSON. -/
def ofJson? (j : Json K) : Option Event := do
  let f ← j.record? 4
  return {
    frame := ← f.required 0 "frame" Json.nat32?
    priority := ← f.required 1 "priority" Priority.ofJson?
    subject := ← f.optional 2 "subject" Json.nat32?
    data := ← f.required 3 "data" EventData.ofJson? }

/-- An event in JSON. -/
def toJson (e : Event) : Json K :=
  .obj [("frame", .ofNat e.frame), ("priority", .str e.priority.name),
    ("subject", .ofOption Json.ofNat e.subject), ("data", e.data.toJson)]

end Event

end Barrage
