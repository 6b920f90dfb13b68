import Barrage.Input.Action

/-!
# Recordings of held keys

A recording stores the keys held on each frame of a fight by the frames on which they change, beside
the seed of the fight's random numbers and the last frame. `Recording.heldAt` looks one frame up by
binary search; `Recording.frames` plays all frames back in order.
-/

namespace Barrage

/-- From this frame on, these keys are held. -/
structure Change where
  frame : Nat
  /-- The keys held from then on. -/
  input : ActionSet
  deriving DecidableEq

/-- The keys held on each frame of a fight. -/
structure Recording where
  seed : Nat
  /-- The last recorded frame. -/
  endFrame : Nat
  /-- The changes, in the order of recording. -/
  changes : List Change
  /-- The keys held on the last recorded frame. They are not stored with the recording. -/
  last : ActionSet
  deriving DecidableEq

namespace Recording

/-- Nothing is recorded yet. -/
def new (seed : Nat) : Recording := { seed, endFrame := 0, changes := [], last := .empty }

/-- Records the keys held on a frame. The first frame is always a change. -/
def record (r : Recording) (frame : Nat) (input : ActionSet) : Recording :=
  if input ≠ r.last ∨ r.changes = [] then
    { r with endFrame := frame, changes := r.changes ++ [⟨frame, input⟩], last := input }
  else { r with endFrame := frame }

/-- How many changes are stored. -/
def count (r : Recording) : Nat := r.changes.length

/-- Rough size of the stored recording in bytes. -/
def size (r : Recording) : Nat := 12 + r.count * 6

/-- Where a test turns false in the `size` positions from `base` on, if it holds exactly up to some
position. Each round halves what is left. -/
def bisect (holds : Nat → Bool) (base size : Nat) : Nat :=
  if 1 < size then
    let half := size / 2
    bisect holds (if holds (base + half) then base + half else base) (size - half)
  else if size = 1 ∧ holds base then base + 1
  else base
termination_by size

/-- How many changes lie at or before a frame, when they are in order. -/
def changesUntil (r : Recording) (frame : Nat) : Nat :=
  bisect (fun i => r.changes[i]?.any (·.frame ≤ frame)) 0 r.changes.length

/-- The keys held on a frame: those of the last change that is not after it. -/
def heldAt (r : Recording) (frame : Nat) : ActionSet :=
  match r.changesUntil frame with
  | 0 => .empty
  | i + 1 => (r.changes[i]?.map Change.input).getD .empty

/-- Plays `count` frames from `frame` on, when `input` is held before and `changes` are to come. -/
def playFrom : (count frame : Nat) → (input : ActionSet) → (changes : List Change) →
    List (Nat × ActionSet)
  | 0, _, _, _ => []
  | count + 1, frame, input, changes =>
    let due := changes.takeWhile (·.frame ≤ frame)
    let input := (due.getLast?.map Change.input).getD input
    (frame, input) :: playFrom count (frame + 1) input (changes.drop due.length)

/-- The first frames of a recording, at most `count` of them. An empty recording has no frames. -/
def firstFrames (r : Recording) (count : Nat) : List (Nat × ActionSet) :=
  if r.changes = [] then [] else playFrom (min count (r.endFrame + 1)) 0 .empty r.changes

/-- Every frame of a recording, with the keys held on it. -/
def frames (r : Recording) : List (Nat × ActionSet) := r.firstFrames (r.endFrame + 1)

end Recording

end Barrage
