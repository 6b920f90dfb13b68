import Barrage.TimerQueue

/-!
# Timetables

A timetable writes down for each timer when it was set, what for, and whether it was cancelled.
Nothing in it moves: on which frames a timer is due follows from its entry by arithmetic
(`Plan.Due`), and so does whether it is still pending (`Appointment.isPending`).

What one frame makes of a plan is what a queue has to reproduce. A timer that is not due on the next
frame stays as it is (`Plan.succ_of_not_due`); one that is due has fired for the last time, or is
due again one interval later (`Plan.succ_of_due`).
-/

namespace Barrage

/-- When a timer is to fire: once, a number of frames after it was set, or every so many frames. -/
inductive Plan where
  | once (delay : Nat)
  | every (interval : Nat)

namespace Plan

/-- Whether a timer that was set on frame `start` is due on a frame: it is due once, or on every
multiple of its interval, and no sooner than one frame after it was set. -/
def Due (start : Nat) : Plan → Nat → Prop
  | .once delay, frame => frame = start + max delay 1
  | .every interval, frame => ∃ k, 1 ≤ k ∧ frame = start + k * max interval 1

/-- Whether a timer that was set on frame `start` has yet to fire after a frame. -/
def isOpen (start : Nat) : Plan → Nat → Bool
  | .once delay, frame => decide (frame < start + max delay 1)
  | .every _, _ => true

/-- The first frame behind a frame on which a timer that was set on frame `start` is due. -/
def next (start : Nat) : Plan → Nat → Nat
  | .once delay, _ => start + max delay 1
  | .every interval, frame => start + ((frame - start) / max interval 1 + 1) * max interval 1

/-- The distance of the firings, if there are several. -/
def interval : Plan → Option Interval
  | .once _ => none
  | .every interval => some (.ofNat interval)

/-- A repeating timer is due on the frames behind its setting that are whole intervals away. -/
theorem exists_eq_add_mul_iff {start m : Nat} (hm : 0 < m) (frame : Nat) :
    (∃ k, 1 ≤ k ∧ frame = start + k * m) ↔ start < frame ∧ m ∣ frame - start := by
  constructor
  · rintro ⟨k, hk, rfl⟩
    have hpos : 0 < k * m := Nat.mul_pos hk hm
    rw [Nat.add_sub_cancel_left]
    exact ⟨Nat.lt_add_of_pos_right hpos, Nat.dvd_mul_left m k⟩
  · rintro ⟨hlt, k, hk⟩
    refine ⟨k, Nat.pos_of_ne_zero ?_, by rw [Nat.mul_comm, ← hk]; omega⟩
    rintro rfl
    omega

/-- When a number of frames is followed by a whole number of intervals, that number is one more than
the intervals it holds. -/
theorem dvd_succ_iff {n m : Nat} : m ∣ n + 1 ↔ (n / m + 1) * m = n + 1 := by
  constructor
  · intro h
    have hdiv : (n + 1) / m = n / m + 1 := by rw [Nat.succ_div, if_pos h]
    rw [← hdiv, Nat.div_mul_cancel h]
  · intro h
    exact ⟨n / m + 1, by rw [Nat.mul_comm, h]⟩

instance decidableDue (start : Nat) :
    (plan : Plan) → (frame : Nat) → Decidable (plan.Due start frame)
  | .once delay, frame => inferInstanceAs (Decidable (frame = start + max delay 1))
  | .every interval, frame =>
    decidable_of_iff' _ (exists_eq_add_mul_iff (Nat.lt_of_lt_of_le Nat.one_pos
      (Nat.le_max_right interval 1)) frame)

section
variable {start frame : Nat} {plan : Plan}

/-- On the frame after `frame`, a repeating timer is due when a whole number of intervals has
passed. -/
theorem due_every_succ_iff {n : Nat} (hstart : start ≤ frame) :
    (Plan.every n).Due start (frame + 1) ↔
      ((frame - start) / max n 1 + 1) * max n 1 = frame - start + 1 := by
  have hlt : start < frame + 1 := Nat.lt_succ_of_le hstart
  rw [Due, exists_eq_add_mul_iff (Nat.lt_of_lt_of_le Nat.one_pos (Nat.le_max_right n 1)),
    Nat.sub_add_comm hstart, dvd_succ_iff, and_iff_right hlt]

/-- The next due frame of a timer that has yet to fire lies in the future. -/
theorem lt_next (h : plan.isOpen start frame = true) (hstart : start ≤ frame) :
    frame < plan.next start frame := by
  cases plan with
  | once delay => exact of_decide_eq_true h
  | every n =>
    have hpos : 0 < max n 1 := Nat.lt_of_lt_of_le Nat.one_pos (Nat.le_max_right n 1)
    have hlt := Nat.lt_mul_div_succ (frame - start) hpos
    rw [Nat.mul_comm] at hlt
    simp only [next]
    omega

/-- A timer is due on the next frame exactly when it has yet to fire and this is its next due
frame. -/
theorem due_succ_iff (hstart : start ≤ frame) :
    plan.Due start (frame + 1) ↔
      plan.isOpen start frame = true ∧ plan.next start frame = frame + 1 := by
  cases plan with
  | once delay =>
    simp only [Due, isOpen, next, decide_eq_true_eq]
    omega
  | every n =>
    rw [due_every_succ_iff hstart]
    simp only [isOpen, next, true_and]
    omega

/-- A timer that is not due on the next frame stays as it is: it has yet to fire if it had before,
and at the same time. -/
theorem succ_of_not_due (hstart : start ≤ frame) (hdue : ¬ plan.Due start (frame + 1)) :
    plan.isOpen start (frame + 1) = plan.isOpen start frame ∧
      plan.next start (frame + 1) = plan.next start frame := by
  cases plan with
  | once delay =>
    simp only [Due, isOpen] at hdue ⊢
    exact ⟨decide_eq_decide.2 (by omega), rfl⟩
  | every n =>
    rw [due_every_succ_iff hstart, ← dvd_succ_iff] at hdue
    refine ⟨rfl, ?_⟩
    rw [next, next, Nat.sub_add_comm hstart, Nat.succ_div, if_neg hdue, Nat.add_zero]

/-- A timer that is due on the next frame fires there for the last time, or again one interval
later. -/
theorem succ_of_due (hstart : start ≤ frame) (hdue : plan.Due start (frame + 1)) :
    (plan.interval = none ∧ plan.isOpen start (frame + 1) = false) ∨
      ∃ i, plan.interval = some i ∧ plan.isOpen start (frame + 1) = true ∧
        plan.next start (frame + 1) = frame + 1 + i := by
  cases plan with
  | once delay =>
    refine .inl ⟨rfl, ?_⟩
    simp only [Due, isOpen] at hdue ⊢
    exact decide_eq_false (by omega)
  | every n =>
    refine .inr ⟨_, rfl, rfl, ?_⟩
    rw [due_every_succ_iff hstart] at hdue
    rw [next, Nat.sub_add_comm hstart, Nat.succ_div, if_pos (dvd_succ_iff.2 hdue), Nat.succ_mul,
      hdue, Interval.ofNat]
    simp only
    omega

end

end Plan

/-- What a timetable says about a timer. -/
structure Appointment (α : Type) where
  /-- What the timer delivers. -/
  action : α
  /-- The frame on which it was set. -/
  start : Nat
  /-- When it is to fire. -/
  plan : Plan
  /-- Whether it was cancelled. -/
  cancelled : Bool

namespace Appointment

variable {α : Type}

/-- Whether the timer is to fire after a frame. -/
def isPending (a : Appointment α) (frame : Nat) : Bool :=
  !a.cancelled && a.plan.isOpen a.start frame

/-- Whether the timer fires on a frame. -/
def fires (a : Appointment α) (frame : Nat) : Bool :=
  !a.cancelled && decide (a.plan.Due a.start frame)

/-- The timer as a queue keeps it. -/
def timer (a : Appointment α) : Timer α := { action := a.action, interval := a.plan.interval }

/-- A timer fires on the next frame exactly when it is pending and this is its next due frame. -/
theorem fires_succ_iff {a : Appointment α} {frame : Nat} (hstart : a.start ≤ frame) :
    a.fires (frame + 1) = true ↔
      a.isPending frame = true ∧ frame + 1 = a.plan.next a.start frame := by
  rw [fires, isPending, Bool.and_eq_true, Bool.and_eq_true, decide_eq_true_eq,
    Plan.due_succ_iff hstart, and_assoc, eq_comm (a := frame + 1)]

end Appointment

namespace TimerQueue

/-- An operation on the timers: one of the two ways of setting one, removing one by its number, or
moving on by one frame. -/
inductive Op (α : Type) where
  | once (delay : Nat) (action : α)
  | repeating (interval : Nat) (action : α)
  | cancel (id : Nat)
  | advance

/-- What an operation answers. -/
inductive Answer (α : Type) where
  /-- The number of the timer that was set. -/
  | set (id : Nat)
  /-- Whether there was a timer to remove. -/
  | cancelled (was : Bool)
  /-- The actions that became due. -/
  | fired (actions : List α)
  deriving DecidableEq

variable {α : Type}

/-- Carries out an operation. -/
def apply (q : TimerQueue α) : Op α → Except Fault (Answer α × TimerQueue α)
  | .once delay action => (q.once delay action).map fun (id, q) => (.set id, q)
  | .repeating interval action => (q.repeating interval action).map fun (id, q) => (.set id, q)
  | .cancel id => let (was, q) := q.cancel id; .ok (.cancelled was, q)
  | .advance => let (actions, q) := q.advance; .ok (.fired actions, q)

/-- Carries out operations in order, and gives their answers. -/
def run (q : TimerQueue α) : List (Op α) → Except Fault (List (Answer α) × TimerQueue α)
  | [] => .ok ([], q)
  | op :: rest => do
    let (answer, q) ← q.apply op
    let (answers, q) ← q.run rest
    return (answer :: answers, q)

end TimerQueue

/-- A timetable. The number of a timer is the place of its entry. -/
structure Timetable (α : Type) where
  /-- Frames advanced so far. -/
  frame : Nat
  /-- The entries, in the order of setting. -/
  entries : List (Appointment α)

namespace Timetable

open TimerQueue (Op Answer)

variable {α : Type}

/-- A timetable without entries. -/
def empty : Timetable α := { frame := 0, entries := [] }

/-- Whether a timer was set, was not cancelled, and repeats or has not fired yet. -/
def isPending (t : Timetable α) (id : Nat) : Bool := t.entries[id]?.any (·.isPending t.frame)

/-- Number of pending timers. -/
def count (t : Timetable α) : Nat := t.entries.countP (·.isPending t.frame)

/-- The timetable with another entry. -/
def add (t : Timetable α) (action : α) (plan : Plan) : Timetable α :=
  { t with entries := t.entries ++ [{ action, start := t.frame, plan, cancelled := false }] }

/-- Carries out an operation. -/
def apply (t : Timetable α) : Op α → Answer α × Timetable α
  | .once delay action => (.set t.entries.length, t.add action (.once delay))
  | .repeating interval action => (.set t.entries.length, t.add action (.every interval))
  | .cancel id =>
    (.cancelled (t.isPending id),
      { t with entries := t.entries.modify id fun a => { a with cancelled := true } })
  | .advance =>
    (.fired ((t.entries.filter (·.fires (t.frame + 1))).map (·.action)),
      { t with frame := t.frame + 1 })

/-- Carries out operations in order, and gives their answers. -/
def run (t : Timetable α) : List (Op α) → List (Answer α) × Timetable α
  | [] => ([], t)
  | op :: rest =>
    let (answer, t) := t.apply op
    let (answers, t) := t.run rest
    (answer :: answers, t)

/-- The entries with a property, with their numbers. -/
def pick (t : Timetable α) (p : Appointment α → Bool) : List (Nat × Appointment α) :=
  (t.entries.zipIdx.filter fun e => p e.1).map Prod.swap

/-- The appointments are picked that have a property, with their numbers. -/
theorem mem_pick {t : Timetable α} {p : Appointment α → Bool} {id : Nat} {a : Appointment α} :
    (id, a) ∈ t.pick p ↔ t.entries[id]? = some a ∧ p a = true := by
  rw [pick, List.mem_map]
  constructor
  · rintro ⟨e, he, h⟩
    cases h
    obtain ⟨he, hp⟩ := List.mem_filter.1 he
    exact ⟨List.mem_zipIdx_iff_getElem?.1 he, hp⟩
  · rintro ⟨ha, hp⟩
    exact ⟨(a, id), List.mem_filter.2 ⟨List.mem_zipIdx_iff_getElem?.2 ha, hp⟩, rfl⟩

/-- Appointments are picked in the order of their numbers. -/
theorem pairwise_pick (t : Timetable α) (p : Appointment α → Bool) :
    (t.pick p).Pairwise (·.1 < ·.1) := by
  have h : t.entries.zipIdx.Pairwise (·.2 < ·.2) := by
    rw [← List.pairwise_map, List.zipIdx_map_snd]
    exact List.pairwise_lt_range'
  rw [pick, List.pairwise_map]
  exact h.filter _

/-- Without the numbers this is to filter the entries. -/
theorem map_snd_pick (t : Timetable α) (p : Appointment α → Bool) :
    (t.pick p).map (·.2) = t.entries.filter p := by
  have h := List.filter_map (f := Prod.fst) (l := t.entries.zipIdx) (p := p)
  rw [List.zipIdx_map_fst] at h
  rw [pick, List.map_map, h]
  rfl

/-- The due frame of a timer that is set is a number that a queue can express. -/
def FitsOp (t : Timetable α) : Op α → Prop
  | .once delay _ => t.frame + max delay 1 < timerCapacity
  | .repeating interval _ => t.frame + max interval 1 < timerCapacity
  | .cancel _ => True
  | .advance => True

/-- The due frames of all timers that some operations set in order are numbers that a queue can
express. -/
def Fits (t : Timetable α) : List (Op α) → Prop
  | [] => True
  | op :: rest => t.FitsOp op ∧ (t.apply op).2.Fits rest

end Timetable

end Barrage
