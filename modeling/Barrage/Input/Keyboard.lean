import Barrage.Input.Action
import Barrage.TimerQueue

/-!
# From held keys to active actions

A keyboard is told once a frame which keys are held. A held key makes its action active unless the
key is blocked. The pause key is active only on the frame on which it goes down. A debounced key is
blocked until its timer fires or the key is let go, whichever comes first.
-/

namespace Barrage

/-- What is known of the keys after a frame. -/
structure Keyboard where
  active : ActionSet
  /-- Keys that are held. -/
  pressed : ActionSet
  /-- Keys that went down on the last frame. -/
  first : ActionSet
  /-- Keys whose actions cannot become active. -/
  blocked : ActionSet
  /-- The pause key was held and not blocked on the last frame. -/
  pauseHeld : Bool
  /-- The timers that lift blocks. -/
  debounce : TimerQueue Action
  /-- For each key that has some, its pending timers in the order of setting. -/
  timers : Std.ExtTreeMap Action (List Nat)

namespace Keyboard

/-- Nothing is held, and nothing is blocked. -/
def idle : Keyboard where
  active := .empty
  pressed := .empty
  first := .empty
  blocked := .empty
  pauseHeld := false
  debounce := .empty
  timers := ∅

/-- Blocks a key. -/
def block (k : Keyboard) (a : Action) : Keyboard := { k with blocked := k.blocked.insert a }

/-- Lifts the block of a key. -/
def unblock (k : Keyboard) (a : Action) : Keyboard := { k with blocked := k.blocked.erase a }

/-- Lifts every block. -/
def unblockAll (k : Keyboard) : Keyboard := { k with blocked := .empty }

/-- Blocks a key for a number of frames. -/
def debounceKey (k : Keyboard) (a : Action) (delay : Nat) : Except Fault Keyboard :=
  (k.debounce.once delay a).map fun (id, debounce) =>
    { k.block a with debounce, timers := k.timers.alter a fun ids => some (ids.getD [] ++ [id]) }

/-- Drops the pending timers of a key and lifts its block. -/
def clearDebounce (k : Keyboard) (a : Action) : Keyboard :=
  { k.unblock a with
    debounce := (k.timers[a]?.getD []).foldl (fun q id => (q.cancel id).2) k.debounce
    timers := k.timers.erase a }

/-- Drops all timers and all blocks. -/
def releaseAll (k : Keyboard) : Keyboard := (k.timers.keys.foldl clearDebounce k).unblockAll

/-- Lifts the blocks whose timers fire on this frame, and forgets these timers. -/
def expire (k : Keyboard) : Keyboard :=
  let (fired, debounce) := k.debounce.advance
  let timers := k.timers.filterMap fun _ ids =>
    match ids.filter debounce.isPending with
    | [] => none
    | pending => some pending
  { fired.foldl unblock k with debounce, timers }

/-- Clears the debounced keys among those that are held no more. -/
def letGo (k : Keyboard) (raw : ActionSet) : Keyboard :=
  let released := Action.all.filter fun a =>
    k.pressed.has a && !raw.has a && k.timers.contains a
  released.foldl clearDebounce k

/-- Takes the keys that are held now, once the blocks are settled. -/
def press (k : Keyboard) (raw : ActionSet) : Keyboard :=
  let held := raw.restrict
  let free := held.diff k.blocked
  let pause := free.has .pause
  { k with
    active := free.set .pause (pause && !k.pauseHeld)
    pressed := held
    first := held.diff k.pressed
    pauseHeld := pause }

/-- One frame with the keys that are held. -/
def update (k : Keyboard) (raw : ActionSet) : Keyboard := (k.expire.letGo raw).press raw

end Keyboard

end Barrage
