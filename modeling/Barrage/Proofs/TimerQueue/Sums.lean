import Barrage.Proofs.TimerQueue.Following

/-!
# The sums of a timer queue

A timer queue adds frames in three places. Setting a timer is checked. `advance` counts the frame
on, and adds an interval to it for each repeating timer that fires; it checks neither.
`TimerQueue.advanceChecked` is `advance` with both sums checked.

The checks find nothing where a queue follows a timetable. A repeating timer is due no sooner than
one interval after frame 0 (`Plan.le_next`), so when it fires the sum is at most twice the frame,
and fits for `2 ^ 63` frames (`Follows.advanceChecked_eq`).
-/

namespace Barrage

/-- A repeating timer is not due before its first interval is over. -/
theorem Plan.le_next {plan : Plan} {i : Interval} (h : plan.interval = some i)
    (start frame : Nat) : (i : Nat) ≤ plan.next start frame := by
  cases plan with
  | once delay => cases h
  | every n =>
    cases h
    show max n 1 ≤ start + ((frame - start) / max n 1 + 1) * max n 1
    have hone : 0 < (frame - start) / max n 1 + 1 := Nat.succ_pos _
    exact Nat.le_trans (Nat.le_mul_of_pos_left _ hone) (Nat.le_add_left _ _)

/-- Whether a timer that fires on a frame can go back into its queue: if it repeats, its next due
frame is a number that the queue can express. -/
def Timer.fitsAt {α : Type} (timer : Timer α) (frame : Nat) : Bool :=
  timer.interval.all fun i : Interval => decide (frame + i < timerCapacity)

namespace TimerQueue

variable {α : Type} {q : TimerQueue α} {slot : Slot} {timer : Timer α}

/-! ## Setting a timer -/

/-- A timer cannot be set when its due frame is not a number that the queue can express. -/
theorem once_eq_error_iff (q : TimerQueue α) (delay : Nat) (action : α) :
    q.once delay action = .error .counterOverflow ↔ timerCapacity ≤ q.frame + max delay 1 := by
  rw [once, insert]
  split
  · next hlt =>
    refine iff_of_false ?_ (Nat.not_le.2 hlt)
    rintro ⟨⟩
  · next hnot => exact iff_of_true rfl (Nat.not_lt.1 hnot)

/-- In an empty queue every interval can be set. -/
theorem repeating_empty {interval : Nat} (h : interval < timerCapacity) (action : α) :
    TimerQueue.empty.repeating interval action =
      .ok (TimerQueue.empty.arm (max interval 1)
        { action, interval := some (.ofNat interval) }) := by
  refine if_pos ?_
  show 0 + max (max interval 1) 1 < timerCapacity
  have hone : 1 < timerCapacity := by decide
  omega

/-! ## Moving on -/

/-- Fires as `fire` does, and checks the next due frame of each timer that goes back. -/
def fireChecked (q : TimerQueue α) : Except Fault (List α × TimerQueue α) :=
  match h : q.first? with
  | none => .ok ([], q)
  | some (slot, timer) =>
    if hdue : q.frame < slot.due then .ok ([], q)
    else
      have := dueCount_rearm_lt (first?_eq_some_iff.1 h).1 (Nat.le_of_not_lt hdue)
      if timer.fitsAt q.frame then
        (q.rearm slot timer).fireChecked.map fun r => (timer.action :: r.1, r.2)
      else .error .counterOverflow
termination_by q.dueCount

/-- Moves on by one frame as `advance` does, and checks every sum. -/
def advanceChecked (q : TimerQueue α) : Except Fault (List α × TimerQueue α) :=
  if q.frame + 1 < timerCapacity then { q with frame := q.frame + 1 }.fireChecked
  else .error .counterOverflow

/-- The checks find nothing when all timers that are due can go back. -/
theorem fireChecked_eq
    (h : ∀ {slot : Slot} {timer : Timer α}, q.queue[slot]? = some timer → slot.due ≤ q.frame →
      timer.fitsAt q.frame = true) :
    q.fireChecked = .ok q.fire := by
  induction q using TimerQueue.fire.induct with
  | case1 q hfirst =>
    rw [fire_of_first?_none hfirst, fireChecked]
    split
    · rfl
    · next h' => rw [hfirst] at h'; cases h'
  | case2 q slot timer hfirst hdue =>
    rw [fire_of_lt hfirst hdue, fireChecked]
    split
    · rfl
    · next h' =>
      rw [hfirst] at h'
      cases h'
      rw [dif_pos hdue]
  | case3 q slot timer hfirst hdue _ _ _ _ ih =>
    have hle := Nat.le_of_not_lt hdue
    have hfits := h (first?_eq_some_iff.1 hfirst).1 hle
    have hrest : (q.rearm slot timer).fireChecked = .ok (q.rearm slot timer).fire := by
      refine ih fun {other t} hother hle' => ?_
      -- what is due now has been in its slot before, so the assumption speaks of it as well
      rw [frame_rearm] at hle' ⊢
      rw [getElem?_queue_rearm q slot timer hle'] at hother
      split at hother
      · cases hother
      · exact h hother hle'
    rw [fire_of_le hfirst hle, fireChecked]
    split
    · next h' => rw [hfirst] at h'; cases h'
    · next h' =>
      rw [hfirst] at h'
      cases h'
      rw [dif_neg hdue, if_pos hfits, hrest]
      rfl

/-- The checks of a queue that follows a timetable succeed for the first `2 ^ 63` frames. -/
theorem Follows.advanceChecked_eq {t : Timetable α} (h : q.Follows t)
    (hframe : 2 * (q.frame + 1) < timerCapacity) : q.advanceChecked = .ok q.advance := by
  refine (if_pos (by omega)).trans (fireChecked_eq fun {slot timer} hs hdue => ?_)
  obtain ⟨a, -, -, hnext, rfl⟩ := h.getElem?_queue.1 hs
  refine (Option.all_eq_true _ _).2 fun i hi => decide_eq_true ?_
  have hle := Plan.le_next hi a.start t.frame
  rw [← hnext] at hle
  show q.frame + 1 + i < timerCapacity
  have hdue : slot.due ≤ q.frame + 1 := hdue
  omega

/-- The checks of a queue without timers succeed as long as its frames can be counted. -/
theorem advanceChecked_eq_of_queue_eq (hempty : q.queue = ∅)
    (hframe : q.frame + 1 < timerCapacity) : q.advanceChecked = .ok q.advance := by
  refine (if_pos hframe).trans (fireChecked_eq fun {slot timer} hs => ?_)
  have hs : q.queue[slot]? = some timer := hs
  rw [hempty, Std.ExtTreeMap.getElem?_empty] at hs
  cases hs

end TimerQueue

end Barrage
