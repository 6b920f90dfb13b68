import Barrage.Proofs.TimerQueue.Following

/-!
# Timers that fire once

When all timers of a queue were set to fire once, the queue is known from what each of them was set
for, in the order of setting, and from the due frames of those that are pending
(`TimerQueue.Delivers`). A frame fires the timers that are due on it (`Delivers.mem_advance_fst`)
and leaves those that are due later (`Delivers.dueById_advance`). Setting and removing one changes
one due frame.
-/

namespace Barrage

namespace TimerQueue

variable {α : Type} {q : TimerQueue α} {actions : List α}

/-! ## Due frames -/

/-- A timer is pending as long as it is known when it is due. -/
theorem isPending_eq_isSome (q : TimerQueue α) (id : Nat) :
    q.isPending id = q.dueById[id]?.isSome := by
  rw [isPending, Std.ExtTreeMap.contains_eq_isSome_getElem?]

/-- Setting a timer gives a due frame to the next number. -/
theorem getElem?_dueById_arm (q : TimerQueue α) (delay : Nat) (timer : Timer α) (id : Nat) :
    (q.arm delay timer).2.dueById[id]? =
      if q.nextId = id then some (q.frame + max delay 1) else q.dueById[id]? :=
  getElem?_dueById_put id

/-- Removing a timer takes its due frame away. -/
theorem getElem?_dueById_cancel (q : TimerQueue α) (id other : Nat) :
    (q.cancel id).2.dueById[other]? = if id = other then none else q.dueById[other]? := by
  rw [cancel]
  split
  · next hnone =>
    split
    · next heq => rw [← heq, hnone]
    · rfl
  · exact getElem?_dueById_take other

/-- Removes timers in order. -/
def cancelAll (q : TimerQueue α) (ids : List Nat) : TimerQueue α :=
  ids.foldl (fun q id => (q.cancel id).2) q

/-- Timers that were cancelled are not due, and the others are as before. -/
theorem getElem?_dueById_cancelAll (q : TimerQueue α) (ids : List Nat) (other : Nat) :
    (q.cancelAll ids).dueById[other]? = if other ∈ ids then none else q.dueById[other]? := by
  induction ids generalizing q with
  | nil => rfl
  | cons id rest ih =>
    have hrest : ((q.cancel id).2.cancelAll rest).dueById[other]? = _ := ih (q.cancel id).2
    rw [getElem?_dueById_cancel] at hrest
    refine hrest.trans ?_
    by_cases hid : id = other
    · simp [hid]
    · simp [hid, Ne.symm hid]

/-- To cancel timers takes no frame. -/
theorem frame_cancelAll (q : TimerQueue α) (ids : List Nat) :
    (q.cancelAll ids).frame = q.frame := by
  induction ids generalizing q with
  | nil => rfl
  | cons id rest ih => exact (ih (q.cancel id).2).trans (frame_cancel q id)

/-- The due frame of a pending timer is the next one of its entry. -/
theorem Follows.getElem?_dueById {t : Timetable α} (h : q.Follows t) {id due : Nat} :
    q.dueById[id]? = some due ↔ ∃ e, t.entries[id]? = some e ∧ e.isPending t.frame = true ∧
      due = e.plan.next e.start t.frame := by
  rw [h.coherent.dueById_eq_some_iff, mem_queue_iff]
  simp only [h.getElem?_queue]
  constructor
  · rintro ⟨timer, e, he, hpending, hdue, -⟩
    exact ⟨e, he, hpending, hdue⟩
  · rintro ⟨e, he, hpending, hdue⟩
    exact ⟨_, e, he, hpending, hdue, rfl⟩

/-! ## What the timers deliver -/

/-- Every timer was set to fire once, and what the timer of a number delivers stands in that place
of a list. -/
def Delivers (q : TimerQueue α) (actions : List α) : Prop :=
  ∃ t : Timetable α, q.Follows t ∧ t.entries.map (·.action) = actions ∧
    ∀ e ∈ t.entries, ∃ delay, e.plan = .once delay

/-- An empty queue delivers nothing. -/
theorem delivers_empty : (TimerQueue.empty : TimerQueue α).Delivers [] :=
  ⟨.empty, .empty, rfl, nofun⟩

namespace Delivers

/-- As many numbers were given out as timers were set. -/
theorem nextId_eq (h : q.Delivers actions) : q.nextId = actions.length := by
  obtain ⟨t, hfollows, rfl, -⟩ := h
  rw [hfollows.nextId_eq, List.length_map]

/-- A pending timer is due in the future. -/
theorem lt_due (h : q.Delivers actions) {id due : Nat} (hdue : q.dueById[id]? = some due) :
    q.frame < due := by
  obtain ⟨t, hfollows, -⟩ := h
  exact hfollows.lt_due (hfollows.coherent.dueById_eq_some_iff.1 hdue)

/-- A pending timer has been set. -/
theorem lt_length (h : q.Delivers actions) {id due : Nat} (hdue : q.dueById[id]? = some due) :
    id < actions.length := by
  rw [← h.nextId_eq]
  obtain ⟨t, hfollows, -⟩ := h
  exact hfollows.coherent.id_lt _ (hfollows.coherent.dueById_eq_some_iff.1 hdue)

/-- A timer that is set delivers its action after those before it. -/
theorem arm (h : q.Delivers actions) (delay : Nat) (action : α) :
    (q.arm delay { action, interval := none }).2.Delivers (actions ++ [action]) := by
  obtain ⟨t, hfollows, rfl, honce⟩ := h
  have hopen : (Plan.once delay).isOpen t.frame t.frame = true := decide_eq_true (by omega)
  have harm : (q.arm delay { action, interval := none }).2.Follows (t.add action (.once delay)) :=
    hfollows.arm hopen rfl
  refine ⟨_, harm, List.map_append, ?_⟩
  intro e he
  rcases List.mem_append.1 he with he | he
  · exact honce e he
  · exact ⟨delay, by rw [List.mem_singleton.1 he]⟩

/-- To cancel one timer leaves what the others deliver. -/
theorem cancel (h : q.Delivers actions) (id : Nat) : (q.cancel id).2.Delivers actions := by
  obtain ⟨t, hfollows, rfl, honce⟩ := h
  refine ⟨_, hfollows.cancel id, ?_, ?_⟩
  · refine List.ext_getElem? fun i => ?_
    rw [List.getElem?_map, List.getElem?_map, List.getElem?_modify]
    cases t.entries[i]? with
    | none => rfl
    | some e => simp only [Option.map_eq_map, Option.map_some]; split <;> rfl
  · intro e he
    obtain ⟨i, hi⟩ := List.mem_iff_getElem?.1 he
    rw [List.getElem?_modify] at hi
    obtain ⟨e', he', rfl⟩ := Option.map_eq_some_iff.1 hi
    obtain ⟨delay, hplan⟩ := honce e' (List.mem_of_getElem? he')
    exact ⟨delay, by split <;> exact hplan⟩

/-- To cancel timers leaves what the others deliver. -/
theorem cancelAll (h : q.Delivers actions) (ids : List Nat) :
    (q.cancelAll ids).Delivers actions := by
  induction ids generalizing q with
  | nil => exact h
  | cons id rest ih => exact ih (h.cancel id)

/-- A frame leaves what the pending timers deliver. -/
theorem advance (h : q.Delivers actions) : q.advance.2.Delivers actions := by
  obtain ⟨t, hfollows, rfl, honce⟩ := h
  exact ⟨_, hfollows.advance, rfl, honce⟩

/-- What is pending after a frame is what is due later. -/
theorem dueById_advance (h : q.Delivers actions) {id due : Nat} :
    q.advance.2.dueById[id]? = some due ↔ q.dueById[id]? = some due ∧ q.frame + 1 < due := by
  obtain ⟨t, hfollows, -, honce⟩ := h
  rw [hfollows.advance.getElem?_dueById, hfollows.getElem?_dueById, hfollows.frame_eq,
    ← exists_and_right]
  refine exists_congr fun e => ?_
  rw [and_assoc]
  refine and_congr_right fun he => ?_
  obtain ⟨delay, hplan⟩ := honce e (List.mem_of_getElem? he)
  simp only [Appointment.isPending, Plan.isOpen, Plan.next, hplan, Bool.and_eq_true,
    decide_eq_true_eq]
  constructor
  · rintro ⟨⟨hlive, hlt⟩, rfl⟩
    exact ⟨⟨⟨hlive, by omega⟩, rfl⟩, hlt⟩
  · rintro ⟨⟨⟨hlive, -⟩, rfl⟩, hlt⟩
    exact ⟨⟨hlive, hlt⟩, rfl⟩

/-- What fires on a frame is what is due on it. -/
theorem mem_advance_fst (h : q.Delivers actions) {action : α} :
    action ∈ q.advance.1 ↔
      ∃ id : Nat, actions[id]? = some action ∧ q.dueById[id]? = some (q.frame + 1) := by
  obtain ⟨t, hfollows, rfl, -⟩ := h
  rw [hfollows.advance_fst, List.mem_map]
  constructor
  · rintro ⟨e, he, rfl⟩
    obtain ⟨he, hfires⟩ := List.mem_filter.1 he
    obtain ⟨hpending, hnext⟩ := (Appointment.fires_succ_iff (hfollows.start_le e he)).1 hfires
    obtain ⟨id, hid⟩ := List.mem_iff_getElem?.1 he
    refine ⟨id, by rw [List.getElem?_map, hid]; rfl, hfollows.getElem?_dueById.2 ?_⟩
    exact ⟨e, hid, hpending, by rw [hfollows.frame_eq, hnext]⟩
  · rintro ⟨id, haction, hdue⟩
    obtain ⟨e, hid, hpending, hnext⟩ := hfollows.getElem?_dueById.1 hdue
    rw [List.getElem?_map, hid] at haction
    have he := List.mem_of_getElem? hid
    rw [hfollows.frame_eq] at hnext
    have hfires := (Appointment.fires_succ_iff (hfollows.start_le e he)).2 ⟨hpending, hnext⟩
    exact ⟨e, List.mem_filter.2 ⟨he, hfires⟩, Option.some.inj haction⟩

end Delivers

end TimerQueue

end Barrage
