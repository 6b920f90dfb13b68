import Barrage.Proofs.Input.Keyboard
import Barrage.Proofs.TimerQueue.Single

/-!
# Debounced keys

A keyboard keeps the timers of its debounced keys twice: in the queue, which fires them, and in a
table, which finds those of a key. The two go together (`Keyboard.Tracks`): the table has an entry
for each key with pending timers, and lists them in the order of setting. They leave on three ways,
by firing, by letting the key go and by being dropped, and each of them leaves on both sides.

For the blocks it does not matter which timers are pending, but only for which key and for how many
more frames (`Keyboard.Pends`). What an operation makes of the blocks follows from that, and so does
what it leaves pending (`Tracks.pends_update` and the lemmas before it).
-/

namespace Barrage

namespace Keyboard

/-! ## Operations -/

/-- What can be done with a keyboard. -/
inductive Op where
  | update (raw : ActionSet)
  | block (a : Action)
  | unblock (a : Action)
  | unblockAll
  | debounce (a : Action) (delay : Nat)
  | clearDebounce (a : Action)
  | releaseAll

/-- The key that an operation debounces, if it debounces one. -/
def Op.debounced? : Op → Option Action
  | .debounce a _ => some a
  | _ => none

/-- The keys that operations debounce. The timer of the first one gets the number 0, and so on. -/
def debounced (ops : List Op) : List Action := ops.filterMap Op.debounced?

/-- Carries out an operation. -/
def apply (k : Keyboard) : Op → Except Fault Keyboard
  | .update raw => .ok (k.update raw)
  | .block a => .ok (k.block a)
  | .unblock a => .ok (k.unblock a)
  | .unblockAll => .ok k.unblockAll
  | .debounce a delay => k.debounceKey a delay
  | .clearDebounce a => .ok (k.clearDebounce a)
  | .releaseAll => .ok k.releaseAll

/-- Carries out operations in order. -/
def run (k : Keyboard) : List Op → Except Fault Keyboard
  | [] => .ok k
  | op :: rest => do
    let k ← k.apply op
    k.run rest

/-! ## Timers and their table -/

/-- A timer that was set for a key will fire a number of frames from now. -/
def Pends (k : Keyboard) (keys : List Action) (a : Action) (frames : Nat) : Prop :=
  ∃ id : Nat, keys[id]? = some a ∧ k.debounce.dueById[id]? = some (k.debounce.frame + frames)

/-- The pending timers of a key, in the order of setting. -/
def pendingTimers (k : Keyboard) (keys : List Action) (a : Action) : List Nat :=
  (List.range keys.length).filter fun id => keys[id]? == some a && k.debounce.isPending id

/-- What a table has for a key with some timers. -/
def listed? (ids : List Nat) : Option (List Nat) := if ids.isEmpty then none else some ids

/-- The table of a keyboard has the timers that are pending, each with the key that it was set
for. -/
structure Tracks (k : Keyboard) (keys : List Action) : Prop where
  delivers : k.debounce.Delivers keys
  timers_eq : ∀ a, k.timers[a]? = listed? (k.pendingTimers keys a)

/-- The entry of a key lists its timers, and a missing entry none. -/
theorem getD_listed? (ids : List Nat) : (listed? ids).getD [] = ids := by
  rw [listed?]
  cases ids <;> rfl

/-- The table of a new keyboard is right. -/
theorem tracks_idle : idle.Tracks [] := by
  refine ⟨TimerQueue.delivers_empty, fun a => ?_⟩
  exact Std.ExtTreeMap.getElem?_empty

section
variable {k k' : Keyboard} {keys : List Action} {a b : Action} {raw : ActionSet}

/-- A timer of a key is pending as long as the queue knows when it is due. -/
theorem Tracks.mem_pendingTimers (h : k.Tracks keys) {id : Nat} :
    id ∈ k.pendingTimers keys a ↔ keys[id]? = some a ∧ k.debounce.dueById[id]?.isSome = true := by
  rw [pendingTimers, List.mem_filter, List.mem_range, Bool.and_eq_true, beq_iff_eq,
    TimerQueue.isPending_eq_isSome]
  refine and_iff_right_of_imp fun ⟨_, hpending⟩ => ?_
  obtain ⟨due, hdue⟩ := Option.isSome_iff_exists.1 hpending
  exact h.delivers.lt_length hdue

/-- A timer that the queue knows will fire. -/
theorem Tracks.pends_of_dueById (h : k.Tracks keys) {id due : Nat} (hkey : keys[id]? = some a)
    (hdue : k.debounce.dueById[id]? = some due) : k.Pends keys a (due - k.debounce.frame) := by
  refine ⟨id, hkey, ?_⟩
  rw [hdue, Nat.add_sub_cancel' (Nat.le_of_lt (h.delivers.lt_due hdue))]

/-- A key without pending timers has none that will fire. -/
theorem Tracks.pendingTimers_eq_nil_iff (h : k.Tracks keys) :
    k.pendingTimers keys a = [] ↔ ∀ frames, ¬ k.Pends keys a frames := by
  rw [List.eq_nil_iff_forall_not_mem]
  constructor
  · rintro hnone frames ⟨id, hkey, hdue⟩
    exact hnone id (h.mem_pendingTimers.2 ⟨hkey, by rw [hdue]; rfl⟩)
  · intro hnone id hid
    obtain ⟨hkey, hpending⟩ := h.mem_pendingTimers.1 hid
    obtain ⟨due, hdue⟩ := Option.isSome_iff_exists.1 hpending
    exact hnone _ (h.pends_of_dueById hkey hdue)

/-- The others have an entry. -/
theorem Tracks.contains_timers_iff (h : k.Tracks keys) :
    k.timers.contains a = true ↔ ∃ frames, k.Pends keys a frames := by
  rw [← Classical.not_forall_not, ← h.pendingTimers_eq_nil_iff,
    Std.ExtTreeMap.contains_eq_isSome_getElem?, h.timers_eq, listed?]
  cases k.pendingTimers keys a with
  | nil => simp
  | cons id rest => simp

/-- When fewer timers of a key are pending, those that are left are in the same order. -/
theorem pendingTimers_eq_filter (p : Nat → Bool) (h : ∀ id : Nat, keys[id]? = some a →
    k'.debounce.isPending id = (k.debounce.isPending id && p id)) :
    k'.pendingTimers keys a = (k.pendingTimers keys a).filter p := by
  rw [pendingTimers, pendingTimers, List.filter_filter]
  refine List.filter_congr fun id _ => ?_
  by_cases hkey : keys[id]? = some a
  · rw [h id hkey, ← Bool.and_assoc, Bool.and_comm]
  · rw [beq_eq_false_iff_ne.2 hkey, Bool.false_and, Bool.false_and, Bool.and_false]

/-! ## Dropping the timers of a key -/

/-- The timers of the key are dropped, and the others are as before. -/
theorem Tracks.dueById_clearDebounce (h : k.Tracks keys) (a : Action) (id : Nat) :
    (k.clearDebounce a).debounce.dueById[id]? =
      if keys[id]? = some a then none else k.debounce.dueById[id]? := by
  have hdropped : k.timers[a]?.getD [] = k.pendingTimers keys a := by
    rw [h.timers_eq, getD_listed?]
  refine (k.debounce.getElem?_dueById_cancelAll _ id).trans ?_
  simp only [hdropped, h.mem_pendingTimers]
  by_cases hkey : keys[id]? = some a
  · cases hdue : k.debounce.dueById[id]? <;> simp [hkey]
  · simp [hkey]

/-- To drop timers takes no frame. -/
theorem frame_clearDebounce (k : Keyboard) (a : Action) :
    (k.clearDebounce a).debounce.frame = k.debounce.frame :=
  k.debounce.frame_cancelAll _

/-- The table stays right when the timers of a key are dropped. -/
theorem Tracks.clearDebounce (h : k.Tracks keys) (a : Action) :
    (k.clearDebounce a).Tracks keys := by
  refine ⟨h.delivers.cancelAll _, fun b => ?_⟩
  have hpending : (k.clearDebounce a).pendingTimers keys b =
      (k.pendingTimers keys b).filter fun _ => decide (a ≠ b) := by
    refine pendingTimers_eq_filter _ fun id hkey => ?_
    rw [TimerQueue.isPending_eq_isSome, TimerQueue.isPending_eq_isSome, h.dueById_clearDebounce]
    by_cases hab : a = b
    · simp [hkey, hab]
    · simp [hkey, hab, Ne.symm hab]
  rw [hpending, Keyboard.clearDebounce, Std.ExtTreeMap.getElem?_erase]
  simp only [Std.LawfulEqOrd.compare_eq_iff_eq]
  by_cases hab : a = b
  · simp [hab, listed?]
  · rw [if_neg hab, h.timers_eq, List.filter_eq_self.2 fun _ _ => decide_eq_true hab]

/-- The timers of the other keys are as before. -/
theorem Tracks.pends_clearDebounce (h : k.Tracks keys) {frames : Nat} :
    (k.clearDebounce a).Pends keys b frames ↔ k.Pends keys b frames ∧ a ≠ b := by
  rw [Pends, Pends, frame_clearDebounce, ← exists_and_right]
  refine exists_congr fun id => ?_
  rw [h.dueById_clearDebounce, and_assoc]
  refine and_congr_right fun hkey => ?_
  by_cases hab : a = b
  · simp [hkey, hab]
  · simp [hkey, hab, Ne.symm hab]

/-- To drop the timers of a key unblocks that key alone. -/
theorem has_blocked_clearDebounce :
    (k.clearDebounce a).blocked.has b = (k.blocked.has b && !decide (a = b)) :=
  ActionSet.has_erase k.blocked a b

/-- What dropping the timers of several keys makes of a keyboard. -/
structure Cleared (k : Keyboard) (keys dropped : List Action) (k' : Keyboard) : Prop where
  tracks : k'.Tracks keys
  has_blocked : ∀ a, k'.blocked.has a = true ↔ k.blocked.has a = true ∧ a ∉ dropped
  pends_iff : ∀ {a frames}, k'.Pends keys a frames ↔ k.Pends keys a frames ∧ a ∉ dropped
  frame_eq : k'.debounce.frame = k.debounce.frame
  eq : k' = { k with blocked := k'.blocked, debounce := k'.debounce, timers := k'.timers }

/-- Keys are unblocked whose timers are dropped, and nothing else changes. -/
theorem Tracks.cleared (h : k.Tracks keys) (dropped : List Action) :
    Cleared k keys dropped (dropped.foldl Keyboard.clearDebounce k) := by
  induction dropped generalizing k with
  | nil => exact ⟨h, fun a => (and_iff_left List.not_mem_nil).symm,
      (and_iff_left List.not_mem_nil).symm, rfl, rfl⟩
  | cons first rest ih =>
    obtain ⟨htracks, hblocked, hpends, hframe, heq⟩ := ih (h.clearDebounce first)
    refine ⟨htracks, fun a => ?_, ?_, hframe.trans (k.frame_clearDebounce first), heq⟩
    · rw [List.foldl_cons, hblocked, has_blocked_clearDebounce]
      simp [and_assoc, eq_comm (a := first)]
    · intro a frames
      rw [List.foldl_cons, hpends, h.pends_clearDebounce]
      simp [and_assoc, eq_comm (a := first)]

/-! ## A frame of the timers -/

/-- To unblock keys one after the other changes the blocks only. -/
theorem foldl_unblock (k : Keyboard) (fired : List Action) :
    fired.foldl unblock k = { k with blocked := fired.foldl ActionSet.erase k.blocked } := by
  induction fired generalizing k with
  | nil => rfl
  | cons a rest ih => exact ih (k.unblock a)

/-- Keys that were erased are gone, and the others stay. -/
theorem has_foldl_erase (s : ActionSet) (fired : List Action) :
    (fired.foldl ActionSet.erase s).has a = true ↔ s.has a = true ∧ a ∉ fired := by
  induction fired generalizing s with
  | nil => simp
  | cons first rest ih =>
    rw [List.foldl_cons, ih, ActionSet.has_erase]
    simp [and_assoc, eq_comm (a := first)]

/-- A frame of the timers changes the blocks, the queue and the table. -/
theorem expire_eq (k : Keyboard) : k.expire = { k with
    blocked := k.debounce.advance.1.foldl ActionSet.erase k.blocked
    debounce := k.debounce.advance.2
    timers := k.expire.timers } :=
  congrArg (fun k' : Keyboard => { k' with
    debounce := k.debounce.advance.2, timers := k.expire.timers })
    (k.foldl_unblock k.debounce.advance.1)

/-- The table keeps the timers that are still pending, and drops a key without any. -/
theorem getElem?_timers_expire (k : Keyboard) (a : Action) : k.expire.timers[a]? =
    k.timers[a]?.bind fun ids => listed? (ids.filter k.debounce.advance.2.isPending) := by
  refine Std.ExtTreeMap.getElem?_filterMap'.trans ?_
  refine congrArg k.timers[a]?.bind (funext fun ids => ?_)
  split
  · next hnone => exact (congrArg listed? hnone).symm
  · next pending hsome => exact (if_neg (mt List.isEmpty_iff.1 hsome)).symm

/-- The timers that fire leave the table. -/
theorem Tracks.expire (h : k.Tracks keys) : k.expire.Tracks keys := by
  refine ⟨(congrArg debounce k.expire_eq :) ▸ h.delivers.advance, fun a => ?_⟩
  have hpending : k.expire.pendingTimers keys a =
      (k.pendingTimers keys a).filter k.debounce.advance.2.isPending := by
    refine pendingTimers_eq_filter _ fun id _ => ?_
    rw [k.expire_eq, TimerQueue.isPending_eq_isSome, TimerQueue.isPending_eq_isSome]
    cases hdue : k.debounce.advance.2.dueById[id]? with
    | none => rw [Option.isSome_none, Bool.and_false]
    | some due => rw [(h.delivers.dueById_advance.1 hdue).1]; rfl
  rw [hpending, getElem?_timers_expire, h.timers_eq, listed?]
  cases k.pendingTimers keys a <;> rfl

/-- A frame of the timers is counted. -/
theorem frame_expire (k : Keyboard) : k.expire.debounce.frame = k.debounce.frame + 1 := by
  rw [k.expire_eq]
  exact TimerQueue.frame_fire _

/-- The other ones fire a frame sooner from then on. -/
theorem Tracks.pends_expire (h : k.Tracks keys) {frames : Nat} :
    k.expire.Pends keys a frames ↔ k.Pends keys a (frames + 1) ∧ 0 < frames := by
  rw [Pends, Pends, k.frame_expire, k.expire_eq, ← exists_and_right]
  refine exists_congr fun id => ?_
  rw [h.delivers.dueById_advance, and_assoc, Nat.add_assoc, Nat.add_comm 1]
  refine and_congr_right fun _ => and_congr_right fun _ => ?_
  omega

/-- The keys are unblocked whose timers fire. -/
theorem Tracks.has_blocked_expire (h : k.Tracks keys) :
    k.expire.blocked.has a = true ↔ k.blocked.has a = true ∧ ¬ k.Pends keys a 1 := by
  rw [k.expire_eq, has_foldl_erase, h.delivers.mem_advance_fst, Pends]

/-! ## A frame of the keyboard -/

/-- The debounced keys among those that are held no more. -/
def released (k : Keyboard) (raw : ActionSet) : List Action :=
  Action.all.filter fun a => k.pressed.has a && !raw.has a && k.timers.contains a

/-- A key is let go when a timer for it is pending that does not fire on this frame. -/
theorem Tracks.mem_released_expire (h : k.Tracks keys) :
    a ∈ k.expire.released raw ↔ (k.pressed.has a = true ∧ raw.has a = false) ∧
      ∃ frames, 1 < frames ∧ k.Pends keys a frames := by
  have hpressed : k.expire.pressed = k.pressed := by rw [k.expire_eq]
  rw [released, List.mem_filter, and_iff_right a.mem_all, Bool.and_eq_true, Bool.and_eq_true,
    Bool.not_eq_true', h.expire.contains_timers_iff, hpressed]
  refine and_congr_right fun _ => ?_
  simp only [h.pends_expire]
  constructor
  · rintro ⟨frames, hpends, hpos⟩
    exact ⟨frames + 1, Nat.succ_lt_succ hpos, hpends⟩
  · rintro ⟨frames, hlt, hpends⟩
    exact ⟨frames - 1, by rwa [Nat.sub_add_cancel (Nat.le_of_lt hlt)], Nat.sub_pos_of_lt hlt⟩

/-- Keys are unblocked that are let go while a timer is pending. -/
theorem Tracks.cleared_letGo (h : k.Tracks keys) (raw : ActionSet) :
    Cleared k.expire keys (k.expire.released raw) (k.expire.letGo raw) := h.expire.cleared _

/-- The table is right after a frame of the keyboard. -/
theorem Tracks.update (h : k.Tracks keys) (raw : ActionSet) : (k.update raw).Tracks keys :=
  ⟨(h.cleared_letGo raw).tracks.delivers, (h.cleared_letGo raw).tracks.timers_eq⟩

/-- A frame of the keyboard is one frame of its timers. -/
theorem Tracks.frame_update (h : k.Tracks keys) (raw : ActionSet) :
    (k.update raw).debounce.frame = k.debounce.frame + 1 :=
  (h.cleared_letGo raw).frame_eq.trans k.frame_expire

/-- A block is lifted by a timer that fires, and by letting the key go while one is pending. -/
theorem Tracks.has_blocked_update (h : k.Tracks keys) :
    (k.update raw).blocked.has a = true ↔ k.blocked.has a = true ∧ ¬ k.Pends keys a 1 ∧
      ¬ ((k.pressed.has a = true ∧ raw.has a = false) ∧ ∃ frames, 1 < frames ∧
        k.Pends keys a frames) := by
  have hblocked := (h.cleared_letGo raw).has_blocked a
  rwa [h.mem_released_expire, h.has_blocked_expire, and_assoc] at hblocked

/-- The timers that are due later are pending, except those of a key that is let go. -/
theorem Tracks.pends_update (h : k.Tracks keys) {frames : Nat} :
    (k.update raw).Pends keys a frames ↔ k.Pends keys a (frames + 1) ∧ 0 < frames ∧
      ¬ (k.pressed.has a = true ∧ raw.has a = false) := by
  refine (h.cleared_letGo raw).pends_iff.trans ?_
  rw [h.mem_released_expire, h.pends_expire, and_assoc]
  refine and_congr_right fun hpends => and_congr_right fun hpos => not_congr ?_
  exact and_iff_left ⟨frames + 1, Nat.succ_lt_succ hpos, hpends⟩

/-- Settling the blocks leaves what is known of the keys of the last frame alone. -/
theorem Tracks.letGo_eq (h : k.Tracks keys) (raw : ActionSet) : ∃ blocked debounce timers,
    k.expire.letGo raw = { k with blocked, debounce, timers } :=
  ⟨_, _, _, (h.cleared_letGo raw).eq.trans (by rw [k.expire_eq])⟩

/-- What a frame says of the keys follows from the blocks and from the last frame. -/
theorem Tracks.update_eq (h : k.Tracks keys) (raw : ActionSet) : k.update raw = { k.update raw with
    active := (raw.restrict.diff (k.update raw).blocked).set .pause
      (raw.has .pause && !(k.update raw).blocked.has .pause && !k.pauseHeld)
    pressed := raw.restrict
    first := raw.restrict.diff k.pressed
    pauseHeld := raw.has .pause && !(k.update raw).blocked.has .pause } := by
  obtain ⟨blocked, debounce, timers, hsettled⟩ := h.letGo_eq raw
  rw [Keyboard.update, hsettled, press, ActionSet.has_diff, ActionSet.has_restrict]

/-! ## Setting and dropping timers -/

/-- A key is debounced when the due frame of its timer can be expressed. -/
theorem debounceKey_eq_ok_iff {delay : Nat} : k.debounceKey a delay = .ok k' ↔
    k.debounce.frame + max delay 1 < timerCapacity ∧ k' = { k.block a with
      debounce := (k.debounce.arm delay { action := a, interval := none }).2
      timers := k.timers.alter a fun ids => some (ids.getD [] ++ [k.debounce.nextId]) } := by
  rw [debounceKey, TimerQueue.once, TimerQueue.insert]
  split
  · next hfits =>
    rw [and_iff_right hfits]
    exact ⟨fun h => (Except.ok.inj h).symm, fun h => congrArg Except.ok h.symm⟩
  · next hfits =>
    refine iff_of_false (fun hset => ?_) fun h => hfits h.1
    cases hset

section
variable {delay : Nat} (h : k.Tracks keys) (hset : k.debounceKey a delay = .ok k')
include h hset

/-- The new timer gets the next number, and the others are as before. -/
theorem Tracks.dueById_debounceKey (id : Nat) : k'.debounce.dueById[id]? =
    if keys.length = id then some (k.debounce.frame + max delay 1)
    else k.debounce.dueById[id]? := by
  obtain ⟨-, rfl⟩ := debounceKey_eq_ok_iff.1 hset
  rw [← h.delivers.nextId_eq]
  exact k.debounce.getElem?_dueById_arm delay _ id

/-- A new timer is the last one of its key. -/
theorem Tracks.pendingTimers_debounceKey (b : Action) : k'.pendingTimers (keys ++ [a]) b =
    k.pendingTimers keys b ++ if a = b then [keys.length] else [] := by
  rw [pendingTimers, List.length_append, List.length_singleton, List.range_succ,
    List.filter_append]
  congr 1
  · refine List.filter_congr fun id hid => ?_
    have hlt := List.mem_range.1 hid
    rw [List.getElem?_append_left hlt, TimerQueue.isPending_eq_isSome,
      TimerQueue.isPending_eq_isSome, h.dueById_debounceKey hset, if_neg (Nat.ne_of_gt hlt)]
  · have hnew : k'.debounce.isPending keys.length = true := by
      rw [TimerQueue.isPending_eq_isSome, h.dueById_debounceKey hset, if_pos rfl]
      rfl
    by_cases hab : a = b
    · simp [hab, hnew]
    · simp [hab]

/-- The table is right when a key has been debounced. -/
theorem Tracks.debounceKey : k'.Tracks (keys ++ [a]) := by
  constructor
  · obtain ⟨-, rfl⟩ := debounceKey_eq_ok_iff.1 hset
    exact h.delivers.arm delay a
  · intro b
    rw [h.pendingTimers_debounceKey hset]
    obtain ⟨-, rfl⟩ := debounceKey_eq_ok_iff.1 hset
    dsimp only
    rw [Std.ExtTreeMap.getElem?_alter, h.timers_eq, h.timers_eq, getD_listed?,
      h.delivers.nextId_eq]
    simp only [Std.LawfulEqOrd.compare_eq_iff_eq]
    by_cases hab : a = b
    · subst hab
      simp [listed?]
    · simp [hab]

/-- A timer more is pending for the key. -/
theorem Tracks.pends_debounceKey {frames : Nat} : k'.Pends (keys ++ [a]) b frames ↔
    k.Pends keys b frames ∨ a = b ∧ frames = max delay 1 := by
  have hframe : k'.debounce.frame = k.debounce.frame := by
    obtain ⟨-, rfl⟩ := debounceKey_eq_ok_iff.1 hset
    rfl
  simp only [Pends, hframe, h.dueById_debounceKey hset]
  constructor
  · rintro ⟨id, hkey, hdue⟩
    by_cases hid : keys.length = id
    · subst hid
      rw [if_pos rfl] at hdue
      rw [List.getElem?_concat_length] at hkey
      have hsum := Option.some.inj hdue
      exact .inr ⟨Option.some.inj hkey, by omega⟩
    · rw [if_neg hid] at hdue
      rw [List.getElem?_append_left (h.delivers.lt_length hdue)] at hkey
      exact .inl ⟨id, hkey, hdue⟩
  · rintro (⟨id, hkey, hdue⟩ | ⟨rfl, rfl⟩)
    · have hlt := h.delivers.lt_length hdue
      exact ⟨id, by rwa [List.getElem?_append_left hlt], by rwa [if_neg (Nat.ne_of_gt hlt)]⟩
    · exact ⟨keys.length, List.getElem?_concat_length, if_pos rfl⟩

end

/-- When all is released, nothing is blocked and the keys are as before. -/
theorem Tracks.releaseAll_eq (h : k.Tracks keys) : ∃ debounce timers,
    k.releaseAll = { k with blocked := .empty, debounce, timers } := by
  rw [releaseAll, (h.cleared k.timers.keys).eq]
  exact ⟨_, _, rfl⟩

/-- And no timer is pending. -/
theorem Tracks.releaseAll (h : k.Tracks keys) : k.releaseAll.Tracks keys ∧
    k.releaseAll.debounce.frame = k.debounce.frame ∧
    ∀ {a frames}, ¬ k.releaseAll.Pends keys a frames := by
  have hcleared := h.cleared k.timers.keys
  refine ⟨⟨hcleared.tracks.delivers, hcleared.tracks.timers_eq⟩, hcleared.frame_eq,
    fun {a frames} hpends => ?_⟩
  obtain ⟨hpends, hnot⟩ := hcleared.pends_iff.1 hpends
  refine hnot (Std.ExtTreeMap.mem_keys.2 (Std.ExtTreeMap.contains_iff_mem.1 ?_))
  exact h.contains_timers_iff.2 ⟨frames, hpends⟩

/-! ## Operations in order -/

/-- The keys that are debounced when an operation follows those that debounced some. -/
def Op.keysAfter (keys : List Action) : Op → List Action
  | .debounce a _ => keys ++ [a]
  | _ => keys

/-- The keys that an operation debounces stand between those before and those after it. -/
theorem keysAfter_append_debounced (keys : List Action) (op : Op) (rest : List Op) :
    op.keysAfter keys ++ debounced rest = keys ++ debounced (op :: rest) := by
  cases op with
  | debounce a delay => exact List.append_assoc keys [a] (debounced rest)
  | _ => rfl

/-- A run is the run of its first operations and then that of the others. -/
theorem run_append_eq_ok_iff {ops later : List Op} :
    k.run (ops ++ later) = .ok k' ↔ ∃ m, k.run ops = .ok m ∧ m.run later = .ok k' := by
  induction ops generalizing k with
  | nil => exact ⟨fun h => ⟨k, rfl, h⟩, by rintro ⟨m, h, hlater⟩; cases h; exact hlater⟩
  | cons op rest ih =>
    rw [List.cons_append, run, run, bind_eq_ok_iff]
    constructor
    · rintro ⟨next, hop, hrest⟩
      obtain ⟨m, hrest, hlater⟩ := ih.1 hrest
      exact ⟨m, bind_eq_ok_iff.2 ⟨next, hop, hrest⟩, hlater⟩
    · rintro ⟨m, hrun, hlater⟩
      obtain ⟨next, hop, hrest⟩ := bind_eq_ok_iff.1 hrun
      exact ⟨next, hop, ih.2 ⟨m, hrest, hlater⟩⟩

/-- Every operation keeps the table. -/
theorem Tracks.apply (h : k.Tracks keys) {op : Op} (happly : k.apply op = .ok k') :
    k'.Tracks (op.keysAfter keys) := by
  cases op with
  | update raw =>
    cases happly
    exact h.update raw
  | debounce a delay => exact h.debounceKey happly
  | clearDebounce a =>
    cases happly
    exact h.clearDebounce a
  | releaseAll =>
    cases happly
    exact h.releaseAll.1
  | block | unblock | unblockAll =>
    cases happly
    exact ⟨h.delivers, h.timers_eq⟩

/-- The table is right after every run. -/
theorem Tracks.run (h : k.Tracks keys) {ops : List Op} (hrun : k.run ops = .ok k') :
    k'.Tracks (keys ++ debounced ops) := by
  induction ops generalizing k keys with
  | nil =>
    cases hrun
    rwa [debounced, List.filterMap_nil, List.append_nil]
  | cons op rest ih =>
    obtain ⟨next, hop, hrest⟩ := bind_eq_ok_iff.1 hrun
    rw [← keysAfter_append_debounced]
    exact ih (h.apply hop) hrest

end

end Keyboard

end Barrage
