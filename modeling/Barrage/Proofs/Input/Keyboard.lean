import Barrage.Input.Keyboard
import Barrage.Proofs.TimerQueue.Firing

/-!
# Keys that are never blocked

A keyboard on which no key was ever blocked or debounced has nothing to settle: taking the keys of a
frame comes down to `Keyboard.press`, and there is nothing to release (`Keyboard.Calm`). All that it
carries from one frame to the next is whether the pause key was held.
-/

namespace Barrage

/-- An action was put in or taken out, and the others are as before. -/
theorem ActionSet.has_set (s : ActionSet) (a b : Action) (active : Bool) :
    (s.set a active).has b = if a = b then active else s.has b := by
  rw [ActionSet.set]
  cases active with
  | false => rw [if_neg Bool.false_ne_true, has_erase]; split <;> simp [*]
  | true => rw [if_pos rfl, has_insert]; split <;> simp [*]

namespace Keyboard

/-- Nothing is blocked, no timer is set, and the pause key was held on the last frame or not. -/
structure Calm (k : Keyboard) (pauseHeld : Bool) : Prop where
  blocked_eq : k.blocked = .empty
  timers_eq : k.timers = ∅
  queue_eq : k.debounce.queue = ∅
  pauseHeld_eq : k.pauseHeld = pauseHeld

/-- A new keyboard has neither blocks nor timers. -/
theorem calm_idle : idle.Calm false := ⟨rfl, rfl, rfl, rfl⟩

section
variable {k : Keyboard} {pauseHeld : Bool}

/-- No timer fires, so only the frame moves on. -/
theorem Calm.expire_eq (h : k.Calm pauseHeld) :
    k.expire = { k with debounce := { k.debounce with frame := k.debounce.frame + 1 } } := by
  have hadvance : k.debounce.advance = ([], { k.debounce with frame := k.debounce.frame + 1 }) :=
    TimerQueue.fire_of_first?_none (TimerQueue.first?_eq_none_iff.2 h.queue_eq)
  obtain ⟨-, htimers, -, -⟩ := h
  cases k
  subst htimers
  rw [Keyboard.expire, hadvance]
  rfl

/-- Without timers a frame of the timers leaves a keyboard calm. -/
theorem Calm.expire (h : k.Calm pauseHeld) : k.expire.Calm pauseHeld := by
  rw [h.expire_eq]
  exact ⟨h.blocked_eq, h.timers_eq, h.queue_eq, h.pauseHeld_eq⟩

/-- No key is debounced, so none has to be cleared. -/
theorem Calm.letGo_eq (h : k.Calm pauseHeld) (raw : ActionSet) : k.letGo raw = k := by
  have hnone : (Action.all.filter fun a => k.pressed.has a && !raw.has a && k.timers.contains a) =
      [] := by
    rw [h.timers_eq]
    simp
  rw [letGo, hnone]
  rfl

/-- There is no block to lift. -/
theorem Calm.releaseAll_eq (h : k.Calm pauseHeld) : k.releaseAll = k := by
  have hkeys : k.timers.keys = [] := by rw [h.timers_eq]; rfl
  rw [releaseAll, hkeys, List.foldl_nil, unblockAll, ← h.blocked_eq]

/-- A frame leaves such a keyboard calm. -/
theorem Calm.update (h : k.Calm pauseHeld) (raw : ActionSet) :
    (k.update raw).Calm (raw.has .pause) := by
  have hexpire := h.expire
  rw [Keyboard.update, hexpire.letGo_eq]
  refine ⟨hexpire.blocked_eq, hexpire.timers_eq, hexpire.queue_eq, ?_⟩
  simp [press, hexpire.blocked_eq]

/-- The timers of the keyboard count the frames. -/
theorem Calm.frame_update (h : k.Calm pauseHeld) (raw : ActionSet) :
    (k.update raw).debounce.frame = k.debounce.frame + 1 := by
  rw [Keyboard.update, h.expire.letGo_eq, h.expire_eq]
  rfl

/-- The keys that are held make their actions active, except that the pause key does so only on the
frame on which it goes down. -/
theorem Calm.has_active_update (h : k.Calm pauseHeld) (raw : ActionSet) (a : Action) :
    (k.update raw).active.has a =
      if a = .pause then raw.has .pause && !pauseHeld else raw.has a := by
  have hexpire := h.expire
  rw [Keyboard.update, hexpire.letGo_eq]
  simp only [press, ActionSet.has_set, ActionSet.has_diff, ActionSet.has_restrict,
    hexpire.blocked_eq, hexpire.pauseHeld_eq, ActionSet.has_empty, Bool.not_false, Bool.and_true,
    eq_comm (a := Action.pause)]

end

end Keyboard

end Barrage
