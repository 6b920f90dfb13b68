import Barrage.Routine.Basic

/-!
# Sequences of routines

The routines of one enemy and a cursor that only moves forward. When no routine is left after the
current one, the enemy is done.
-/

namespace Barrage

/-- Routines in the order of play, one of them current. -/
structure Sequence (K : Type) where
  routines : List (Routine K)
  /-- The place of the current one. -/
  cursor : Nat
  deriving DecidableEq

namespace Sequence

variable {K : Type} [Scalar K]

/-- A sequence at its first routine. -/
def new (routines : List (Routine K)) : Sequence K := ⟨routines, 0⟩

/-- The current routine. A sequence without routines has none. -/
def current? (s : Sequence K) : Option (Routine K) := s.routines[s.cursor]?

/-- Changes the current routine. -/
def modifyCurrent (s : Sequence K) (change : Routine K → Routine K) : Sequence K :=
  { s with routines := s.routines.modify s.cursor change }

/-- Whether the current routine is over; so it is when there is none. -/
def isFinished (s : Sequence K) : Bool := s.current?.all Routine.isFinished

/-- Whether a routine follows the current one. -/
def hasNext (s : Sequence K) : Bool := decide (s.cursor + 1 < s.routines.length)

/-- Moves to the next routine, if there is one. -/
def toNext (s : Sequence K) : Sequence K :=
  if s.hasNext then { s with cursor := s.cursor + 1 } else s

/-- The movement of the current routine. Without one there is no motion. -/
def currentMovement (s : Sequence K) (g : Prng) : Movement K × Sequence K × Prng :=
  match s.current? with
  | none => (.still, s, g)
  | some r =>
    let (movement, r, g) := r.currentMovement g
    (movement, s.modifyCurrent fun _ => r, g)

/-- The shots of the current routine on this frame, if there are some. -/
def currentShots (s : Sequence K) : Option (List (Shot K)) :=
  s.current?.bind Routine.currentShots

/-- Takes hit points from the current routine. -/
def damage (s : Sequence K) (amount : Nat) : Sequence K :=
  s.modifyCurrent fun r => r.damage amount

/-- Stops the ongoing movement along the first axis. -/
def haltX (s : Sequence K) : Sequence K := s.modifyCurrent Routine.haltX

/-- Stops the ongoing movement along the second axis. -/
def haltY (s : Sequence K) : Sequence K := s.modifyCurrent Routine.haltY

/-- Moves the frame counter of the current routine on. -/
def advance (s : Sequence K) : Sequence K := s.modifyCurrent Routine.advance

end Sequence

end Barrage
