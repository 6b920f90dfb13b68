import Std.Data.ExtTreeMap
import Barrage.Fault

/-!
# Frame timers

Actions to be delivered a number of frames from now, once or again and again. A timer carries a
plain value, which `advance` hands to the owner when its frame comes; so a timer never runs inside
the part of the simulation that set it.

Pending timers stand in a queue, in the order in which they will fire: by due frame, and for one
frame by the order in which they were set. A second table gives the due frame of each pending
timer, so that a timer is found by its number. `advance` fires the timer in front until the one in
front is due later. A repeating timer that fires goes back into the queue behind the frame, since an
interval is one frame at least; so every frame comes to an end (`TimerQueue.dueCount_rearm_lt`).
-/

namespace Barrage

/-- The distance between two firings of a timer, one frame at least. -/
abbrev Interval := { n : Nat // 0 < n }

/-- An interval of a number of frames; none at all counts as one. -/
def Interval.ofNat (n : Nat) : Interval := ⟨max n 1, by omega⟩

/-- A timer. -/
structure Timer (α : Type) where
  action : α
  /-- The distance of its firings, if it repeats. -/
  interval : Option Interval
  deriving DecidableEq

/-- The place of a pending timer in its queue. -/
structure Slot where
  /-- The frame on which it fires. -/
  due : Nat
  /-- Its number in the order of setting. -/
  id : Nat
  deriving DecidableEq

namespace Slot

/-- Slots are ordered by frame, and then by number. -/
instance : Ord Slot := ⟨compareLex (compareOn due) (compareOn id)⟩

instance : Std.TransOrd Slot := inferInstanceAs (Std.TransCmp (compareLex _ _))

instance : Std.LawfulEqOrd Slot where
  eq_of_compare {a b} h := by
    obtain ⟨hdue, hid⟩ := compareLex_eq_eq.1 h
    cases a; cases b
    cases Std.LawfulEqOrd.eq_of_compare hdue
    cases Std.LawfulEqOrd.eq_of_compare hid
    rfl

/-- One slot is not behind another one if its frame is earlier, or if it is the same frame and its
number is not larger. -/
theorem isLE_compare {a b : Slot} :
    (compare a b).isLE ↔ a.due < b.due ∨ a.due = b.due ∧ a.id ≤ b.id := by
  have hcmp : compare a b = (compare a.due b.due).then (compare a.id b.id) := rfl
  rw [hcmp, Ordering.isLE_then_iff_or, Nat.compare_eq_lt, Nat.compare_eq_eq, Nat.isLE_compare]

end Slot

/-- A queue of frame timers. -/
structure TimerQueue (α : Type) where
  /-- Frames advanced so far. -/
  frame : Nat
  /-- Number of the next timer. -/
  nextId : Nat
  /-- Timers that have not fired for the last time, by their slots. -/
  queue : Std.ExtTreeMap Slot (Timer α)
  /-- The due frame of each pending timer, by its number. -/
  dueById : Std.ExtTreeMap Nat Nat
  deriving DecidableEq

namespace TimerQueue

variable {α : Type}

/-- A queue without timers. -/
def empty : TimerQueue α := { frame := 0, nextId := 0, queue := ∅, dueById := ∅ }

/-- Puts a timer into a slot. -/
def put (q : TimerQueue α) (slot : Slot) (timer : Timer α) : TimerQueue α :=
  { q with queue := q.queue.insert slot timer, dueById := q.dueById.insert slot.id slot.due }

/-- Takes the timer out of a slot. -/
def take (q : TimerQueue α) (slot : Slot) : TimerQueue α :=
  { q with queue := q.queue.erase slot, dueById := q.dueById.erase slot.id }

/-- Sets a timer at least one frame from now, whatever the size of its due frame. -/
def arm (q : TimerQueue α) (delay : Nat) (timer : Timer α) : Nat × TimerQueue α :=
  (q.nextId, { q with nextId := q.nextId + 1 }.put ⟨q.frame + max delay 1, q.nextId⟩ timer)

/-- Sets a timer whose due frame has to be a number that the queue can express. -/
def insert (q : TimerQueue α) (delay : Nat) (timer : Timer α) :
    Except Fault (Nat × TimerQueue α) :=
  if q.frame + max delay 1 < timerCapacity then .ok (q.arm delay timer)
  else .error .counterOverflow

/-- Sets a timer that fires once, `delay` frames from now. -/
def once (q : TimerQueue α) (delay : Nat) (action : α) : Except Fault (Nat × TimerQueue α) :=
  q.insert delay { action, interval := none }

/-- Sets a timer that fires every `interval` frames. -/
def repeating (q : TimerQueue α) (interval : Nat) (action : α) :
    Except Fault (Nat × TimerQueue α) :=
  q.insert (max interval 1) { action, interval := some (.ofNat interval) }

/-- Whether a timer will fire, or fire again. -/
def isPending (q : TimerQueue α) (id : Nat) : Bool := q.dueById.contains id

/-- Removes a timer, and says whether it was there to be removed. -/
def cancel (q : TimerQueue α) (id : Nat) : Bool × TimerQueue α :=
  match q.dueById[id]? with
  | none => (false, q)
  | some due => (q.queue.contains ⟨due, id⟩, q.take ⟨due, id⟩)

/-- Number of pending timers. -/
def count (q : TimerQueue α) : Nat := q.queue.size

/-- The timer in front, with its slot. -/
def first? (q : TimerQueue α) : Option (Slot × Timer α) := q.queue.toList.head?

/-- Takes a timer that fires out of its slot, and puts it back if it repeats. -/
def rearm (q : TimerQueue α) (slot : Slot) (timer : Timer α) : TimerQueue α :=
  match timer.interval with
  | none => q.take slot
  | some interval => (q.take slot).put ⟨q.frame + interval, slot.id⟩ timer

/-- The timers that are due by now. -/
def dueNow (q : TimerQueue α) : Std.ExtTreeMap Slot (Timer α) :=
  q.queue.filter fun slot _ => slot.due ≤ q.frame

/-- How many timers are due by now. -/
def dueCount (q : TimerQueue α) : Nat := q.dueNow.size

/-- The timer in front is in its slot, and no slot comes before it. -/
theorem first?_eq_some_iff {q : TimerQueue α} {slot : Slot} {timer : Timer α} :
    q.first? = some (slot, timer) ↔
      q.queue[slot]? = some timer ∧ ∀ other ∈ q.queue, (compare slot other).isLE := by
  have hkey : q.queue.minKey? = q.first?.map (·.1) := by
    rw [Std.ExtTreeMap.minKey?_eq_head?_keys, ← Std.ExtTreeMap.map_fst_toList_eq_keys,
      List.head?_map, first?]
  constructor
  · intro h
    rw [h, Option.map_some, Std.ExtTreeMap.minKey?_eq_some_iff_mem_and_forall] at hkey
    exact ⟨Std.ExtTreeMap.mem_toList_iff_getElem?_eq_some.1 (List.mem_of_head? h), hkey.2⟩
  · rintro ⟨htimer, hmin⟩
    have hmem : slot ∈ q.queue := by
      rw [Std.ExtTreeMap.mem_iff_isSome_getElem?, htimer]
      rfl
    rw [Std.ExtTreeMap.minKey?_eq_some_iff_mem_and_forall.2 ⟨hmem, hmin⟩] at hkey
    obtain ⟨⟨_, t⟩, hfirst, rfl⟩ := Option.map_eq_some_iff.1 hkey.symm
    have ht := Std.ExtTreeMap.mem_toList_iff_getElem?_eq_some.1 (List.mem_of_head? hfirst)
    rw [htimer, Option.some.injEq] at ht
    rw [hfirst, ht]

/-- No timer is in front of an empty queue only. -/
theorem first?_eq_none_iff {q : TimerQueue α} : q.first? = none ↔ q.queue = ∅ := by
  rw [first?, List.head?_eq_none_iff, Std.ExtTreeMap.toList_eq_nil_iff]

/-- A timer was put into a slot, and the other slots are as before. -/
theorem getElem?_queue_put (q : TimerQueue α) (slot other : Slot) (timer : Timer α) :
    (q.put slot timer).queue[other]? = if slot = other then some timer else q.queue[other]? := by
  simp only [put, Std.ExtTreeMap.getElem?_insert, Std.LawfulEqOrd.compare_eq_iff_eq]

/-- A slot was emptied, and the other slots are as before. -/
theorem getElem?_queue_take (q : TimerQueue α) (slot other : Slot) :
    (q.take slot).queue[other]? = if slot = other then none else q.queue[other]? := by
  simp only [take, Std.ExtTreeMap.getElem?_erase, Std.LawfulEqOrd.compare_eq_iff_eq]

/-- To set a timer again takes no frame. -/
@[simp] theorem frame_rearm (q : TimerQueue α) (slot : Slot) (timer : Timer α) :
    (q.rearm slot timer).frame = q.frame := by
  rw [rearm]
  split <;> rfl

/-- A slot that is due by now holds what it held before, unless its timer has just fired: what fires
again does so behind the frame. -/
theorem getElem?_queue_rearm (q : TimerQueue α) (slot : Slot) (timer : Timer α) {other : Slot}
    (h : other.due ≤ q.frame) :
    (q.rearm slot timer).queue[other]? = if slot = other then none else q.queue[other]? := by
  rw [rearm]
  split
  · exact getElem?_queue_take q slot other
  · next i _ =>
    have hne : (⟨q.frame + i, slot.id⟩ : Slot) ≠ other := by
      rintro rfl
      have := i.property
      simp only at h
      omega
    rw [getElem?_queue_put, if_neg hne, getElem?_queue_take]

/-- What is in a slot and due by now. -/
theorem getElem?_dueNow (q : TimerQueue α) (slot : Slot) :
    q.dueNow[slot]? = if slot.due ≤ q.frame then q.queue[slot]? else none := by
  rw [dueNow, Std.ExtTreeMap.getElem?_filter']
  cases q.queue[slot]? with
  | none => simp
  | some timer => simp [Option.filter]

/-- A timer that fires is due no more: it went away, or behind the frame. -/
theorem dueNow_rearm (q : TimerQueue α) (slot : Slot) (timer : Timer α) :
    (q.rearm slot timer).dueNow = q.dueNow.erase slot := by
  ext1 other
  simp only [getElem?_dueNow, Std.ExtTreeMap.getElem?_erase, Std.LawfulEqOrd.compare_eq_iff_eq,
    frame_rearm]
  by_cases hdue : other.due ≤ q.frame
  · simp only [hdue, if_true, getElem?_queue_rearm q slot timer hdue]
  · simp only [hdue, if_false, ite_self]

/-- Each firing leaves fewer timers due. -/
theorem dueCount_rearm_lt {q : TimerQueue α} {slot : Slot} {timer : Timer α}
    (htimer : q.queue[slot]? = some timer) (hdue : slot.due ≤ q.frame) :
    (q.rearm slot timer).dueCount < q.dueCount := by
  have hmem : slot ∈ q.dueNow := by
    rw [Std.ExtTreeMap.mem_iff_isSome_getElem?, getElem?_dueNow, if_pos hdue, htimer]
    rfl
  have hpos : q.dueNow.size ≠ 0 := by
    rw [Ne, ← Std.ExtTreeMap.eq_empty_iff_size_eq_zero]
    rintro hempty
    rw [hempty] at hmem
    exact Std.ExtTreeMap.not_mem_empty hmem
  rw [dueCount, dueCount, dueNow_rearm, Std.ExtTreeMap.size_erase,
    if_pos (Std.ExtTreeMap.contains_iff_mem.2 hmem)]
  omega

/-- Fires the timer in front, again and again, until the one in front is due later. The actions come
in firing order. -/
def fire (q : TimerQueue α) : List α × TimerQueue α :=
  match h : q.first? with
  | none => ([], q)
  | some (slot, timer) =>
    if hdue : q.frame < slot.due then ([], q)
    else
      have := dueCount_rearm_lt (first?_eq_some_iff.1 h).1 (Nat.le_of_not_lt hdue)
      let (later, q) := (q.rearm slot timer).fire
      (timer.action :: later, q)
termination_by q.dueCount

/-- Moves on by one frame, and gives the actions that became due in firing order. Nothing is checked
here: a timer that goes back into the queue has counted its interval out before, so its next due
frame can be expressed for the first `2 ^ 63` frames. -/
def advance (q : TimerQueue α) : List α × TimerQueue α := { q with frame := q.frame + 1 }.fire

end TimerQueue

end Barrage
