import Barrage.World.Basic

/-!
# Events of a fight

What happened in a fight, for logs, displays and comparisons. Events are ordered by frame, then by
the priority of their kind, then by the body they are about, where an event about no body comes
first. Two events can be of one rank without being equal, so the order is a total preorder, and a
stable sort keeps events of one rank in the order in which they happened.
-/

namespace Barrage

/-- What the timers of a fight deliver. -/
inductive TimerAction where
  | endInvincibility
  | gainEnergy
  deriving DecidableEq, Repr

/-- The order of kinds of events within a frame. -/
inductive Priority where
  | playerHit
  | enemyHit
  | special
  /-- An enemy came, changed or went. -/
  | lifecycle
  | other
  deriving DecidableEq, Repr

/-- The place of a priority in their order. -/
def Priority.rank : Priority → Nat
  | playerHit => 0
  | enemyHit => 1
  | special => 2
  | lifecycle => 3
  | other => 4

/-- What happened. -/
inductive EventData where
  | enemySpawned (enemy : BodyId) (sprite : String)
  /-- An enemy moved to its next routine. -/
  | routineChanged (enemy : BodyId) (routine : String)
  /-- An enemy ran out of routines and left the fight. -/
  | enemyExhausted (enemy : BodyId)
  /-- The player was hit and has so many lives left. -/
  | playerHit (livesLeft : Int)
  | enemyHit (enemy : BodyId) (damage : Nat)
  | specialExecuted (name : String)
  | invincibilityEnded
  /-- No lives are left, after so many frames. -/
  | gameOver (frames : Nat)
  deriving DecidableEq, Repr

namespace EventData

/-- The body that it happened to, if there is one. -/
def subject : EventData → Option BodyId
  | enemySpawned enemy _ => some enemy
  | routineChanged enemy _ => some enemy
  | enemyExhausted enemy => some enemy
  | enemyHit enemy _ => some enemy
  | playerHit _ => none
  | specialExecuted _ => none
  | invincibilityEnded => none
  | gameOver _ => none

/-- The priority of what happened. -/
def priority : EventData → Priority
  | enemySpawned _ _ => .lifecycle
  | routineChanged _ _ => .lifecycle
  | enemyExhausted _ => .lifecycle
  | playerHit _ => .playerHit
  | enemyHit _ _ => .enemyHit
  | specialExecuted _ => .special
  | invincibilityEnded => .other
  | gameOver _ => .other

end EventData

/-- An event. -/
structure Event where
  frame : Nat
  priority : Priority
  /-- The body it is about, if there is one. -/
  subject : Option BodyId
  data : EventData
  deriving DecidableEq, Repr

namespace Event

/-- The event of something that happened on a frame. -/
def on (frame : Nat) (data : EventData) : Event :=
  { frame, priority := data.priority, subject := data.subject, data }

/-- The place of a subject in the order: none before all bodies. -/
def subjectRank : Option BodyId → Nat
  | none => 0
  | some id => id + 1

/-- The order of events. -/
def cmp (a b : Event) : Ordering :=
  (compare a.frame b.frame).then
    ((compare a.priority.rank b.priority.rank).then
      (compare (subjectRank a.subject) (subjectRank b.subject)))

/-- Whether two events are of one rank; what happened is not looked at. -/
def sameRank (a b : Event) : Bool :=
  a.frame == b.frame && a.priority == b.priority && a.subject == b.subject

/-- Events in their order; those of one rank stay as they are. -/
def sort (events : List Event) : List Event := events.mergeSort fun a b => (cmp a b).isLE

end Event

end Barrage
