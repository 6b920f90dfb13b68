import Barrage.Proofs.TimerQueue.Firing
import Barrage.Proofs.TimerQueue.Timetable

/-!
# A timer queue follows its timetable

`TimerQueue.Follows` says that a queue holds the pending timers of a timetable, each in the slot of
its next due frame. Every operation keeps it (`Follows.apply`), so a queue answers every sequence of
operations as the timetable does, and shows of its timers what the timetable says
(`TimerQueue.run_eq_timetable`).
-/

namespace Barrage

namespace TimerQueue

variable {α : Type} {q : TimerQueue α} {t : Timetable α}

/-- A queue holds the pending timers of a timetable, each in the slot of its next due frame. -/
structure Follows (q : TimerQueue α) (t : Timetable α) : Prop where
  /-- The tables of the queue say the same. -/
  coherent : q.Coherent
  frame_eq : q.frame = t.frame
  /-- The next timer gets the number of the next entry. -/
  nextId_eq : q.nextId = t.entries.length
  /-- No entry is from the future. -/
  start_le : ∀ a ∈ t.entries, a.start ≤ t.frame
  /-- A slot holds the timer of an entry that is pending and due next on the frame of the slot. -/
  getElem?_queue : ∀ {slot : Slot} {timer : Timer α}, q.queue[slot]? = some timer ↔
    ∃ a, t.entries[slot.id]? = some a ∧ a.isPending t.frame = true ∧
      slot.due = a.plan.next a.start t.frame ∧ timer = a.timer

/-- An empty queue follows an empty timetable. -/
theorem Follows.empty : (TimerQueue.empty : TimerQueue α).Follows .empty where
  coherent := .empty
  frame_eq := rfl
  nextId_eq := rfl
  start_le := by simp [Timetable.empty]
  getElem?_queue := by simp [TimerQueue.empty, Timetable.empty]

/-- A pending timer stands in the slot of its next due frame. -/
theorem Follows.getElem?_next (h : q.Follows t) {id : Nat} {a : Appointment α}
    (ha : t.entries[id]? = some a) (hpending : a.isPending t.frame = true) :
    q.queue[(⟨a.plan.next a.start t.frame, id⟩ : Slot)]? = some a.timer :=
  h.getElem?_queue.2 ⟨a, ha, hpending, rfl, rfl⟩

/-- Every pending timer is due in the future. -/
theorem Follows.lt_due (h : q.Follows t) {slot : Slot} (hs : slot ∈ q.queue) :
    q.frame < slot.due := by
  obtain ⟨timer, ht⟩ := mem_queue_iff.1 hs
  obtain ⟨a, ha, hpending, hdue, -⟩ := h.getElem?_queue.1 ht
  rw [Appointment.isPending, Bool.and_eq_true] at hpending
  rw [hdue, h.frame_eq]
  exact Plan.lt_next hpending.2 (h.start_le a (List.mem_of_getElem? ha))

/-- The queue says of each number what the timetable says. -/
theorem Follows.isPending_eq (h : q.Follows t) (id : Nat) : q.isPending id = t.isPending id := by
  rw [Bool.eq_iff_iff, h.coherent.isPending_iff, Timetable.isPending, Option.any_eq_true]
  constructor
  · rintro ⟨due, hs⟩
    obtain ⟨timer, ht⟩ := mem_queue_iff.1 hs
    obtain ⟨a, ha, hpending, -⟩ := h.getElem?_queue.1 ht
    exact ⟨a, ha, hpending⟩
  · rintro ⟨a, ha, hpending⟩
    exact ⟨_, mem_queue_of_getElem? (h.getElem?_next ha hpending)⟩

/-- Setting a timer adds an entry, when the slot of the timer is that of its next due frame. -/
theorem Follows.arm (h : q.Follows t) {delay : Nat} {action : α} {plan : Plan}
    (hopen : plan.isOpen t.frame t.frame = true)
    (hnext : plan.next t.frame t.frame = t.frame + max delay 1) :
    (q.arm delay { action, interval := plan.interval }).2.Follows (t.add action plan) where
  coherent := h.coherent.arm delay _
  frame_eq := h.frame_eq
  nextId_eq := by
    rw [Timetable.add, List.length_append, ← h.nextId_eq]
    rfl
  start_le a ha := by
    rcases List.mem_append.1 ha with ha | ha
    · exact h.start_le a ha
    · obtain rfl := List.mem_singleton.1 ha
      exact Nat.le_refl _
  getElem?_queue {slot timer} := by
    simp only [TimerQueue.arm, getElem?_queue_put, Timetable.add]
    rcases Nat.lt_trichotomy slot.id t.entries.length with hlt | heq | hgt
    · -- the slots of the earlier timers are as before
      have hne : (⟨q.frame + max delay 1, q.nextId⟩ : Slot) ≠ slot := by
        rintro rfl
        exact Nat.ne_of_lt hlt h.nextId_eq
      rw [if_neg hne, List.getElem?_append_left hlt]
      exact h.getElem?_queue
    · have hfree : ∀ timer, q.queue[slot]? ≠ some timer := by
        intro timer hs
        have hid := h.coherent.id_lt slot (mem_queue_of_getElem? hs)
        rw [h.nextId_eq, heq] at hid
        exact Nat.lt_irrefl _ hid
      rw [heq, List.getElem?_concat_length]
      constructor
      · intro hs
        split at hs
        · next hslot =>
          cases hslot
          cases hs
          exact ⟨_, rfl, by simp [Appointment.isPending, hopen], by rw [hnext, h.frame_eq], rfl⟩
        · exact absurd hs (hfree timer)
      · rintro ⟨a, ha, -, hdue, rfl⟩
        cases ha
        have hslot : (⟨q.frame + max delay 1, q.nextId⟩ : Slot) = slot := by
          rw [h.frame_eq, ← hnext, ← hdue, h.nextId_eq, ← heq]
        rw [if_pos hslot]
        rfl
    · have hnone : (t.entries ++ [(⟨action, t.frame, plan, false⟩ : Appointment α)])[slot.id]? =
          none := List.getElem?_eq_none (by rw [List.length_append, List.length_singleton]; omega)
      have hne : (⟨q.frame + max delay 1, q.nextId⟩ : Slot) ≠ slot := by
        rintro rfl
        exact Nat.ne_of_gt hgt h.nextId_eq
      rw [hnone, if_neg hne]
      constructor
      · intro hs
        have hid := h.coherent.id_lt slot (mem_queue_of_getElem? hs)
        rw [h.nextId_eq] at hid
        omega
      · rintro ⟨_, ha, -⟩
        cases ha

/-- Removing a timer marks its entry as cancelled. -/
theorem Follows.cancel (h : q.Follows t) (id : Nat) :
    (q.cancel id).2.Follows
      { t with entries := t.entries.modify id fun a => { a with cancelled := true } } where
  coherent := h.coherent.cancel id
  frame_eq := by rw [frame_cancel, h.frame_eq]
  nextId_eq := by rw [nextId_cancel, h.nextId_eq, List.length_modify]
  start_le a ha := by
    obtain ⟨i, ha⟩ := List.mem_iff_getElem?.1 ha
    rw [List.getElem?_modify] at ha
    obtain ⟨b, hb, rfl⟩ := Option.map_eq_some_iff.1 ha
    have hstart := h.start_le b (List.mem_of_getElem? hb)
    split <;> exact hstart
  getElem?_queue {slot timer} := by
    rw [h.coherent.getElem?_queue_cancel, List.getElem?_modify]
    by_cases hid : slot.id = id
    · subst hid
      rw [if_pos rfl]
      constructor
      · intro hs
        cases hs
      · rintro ⟨a, ha, hpending, -⟩
        simp only [if_true] at ha
        obtain ⟨b, -, rfl⟩ := Option.map_eq_some_iff.1 ha
        cases hpending
    · have hsame : ((fun a => if id = slot.id then { a with cancelled := true } else a) <$>
          t.entries[slot.id]?) = t.entries[slot.id]? := by
        simp only [Ne.symm hid, if_false, Option.map_eq_map, Option.map_id_fun', id_eq]
      rw [if_neg hid, h.getElem?_queue, hsame]

/-- Number of pending timers with a property. -/
def countP (q : TimerQueue α) (p : Timer α → Bool) : Nat := q.queue.toList.countP (p ·.2)

/-- As many timers with a property are pending as the timetable has pending entries with it: their
slots and these entries have the same numbers. -/
theorem Follows.countP_eq (h : q.Follows t) (p : Timer α → Bool) :
    q.countP p = t.entries.countP fun a => a.isPending t.frame && p a.timer := by
  have hmem : ∀ {e : Slot × Timer α}, e ∈ q.queue.toList.filter (p ·.2) →
      q.queue[e.1]? = some e.2 ∧ p e.2 = true := by
    intro e he
    obtain ⟨he, hp⟩ := List.mem_filter.1 he
    exact ⟨Std.ExtTreeMap.mem_toList_iff_getElem?_eq_some.1 he, hp⟩
  have hids : ((q.queue.toList.filter (p ·.2)).map (·.1.id)).Perm
      ((t.pick fun a => a.isPending t.frame && p a.timer).map (·.1)) := by
    refine (List.perm_ext_iff_of_nodup ?_ ?_).2 ?_
    · have hkeys : (q.queue.toList.filter (p ·.2)).Pairwise fun e o => e.1 ≠ o.1 :=
        (Std.ExtTreeMap.distinct_keys_toList.filter _).imp fun hne heq =>
          hne (Std.LawfulEqOrd.compare_eq_iff_eq.2 heq)
      refine List.pairwise_map.2 (hkeys.imp_of_mem ?_)
      intro e o he ho hne hid
      exact hne (h.coherent.slot_unique (mem_queue_of_getElem? (hmem he).1)
        (mem_queue_of_getElem? (hmem ho).1) hid)
    · exact List.pairwise_map.2 ((t.pairwise_pick _).imp Nat.ne_of_lt)
    · intro id
      constructor
      · intro hid
        obtain ⟨⟨slot, timer⟩, he, rfl⟩ := List.mem_map.1 hid
        obtain ⟨hs, hp⟩ := hmem he
        obtain ⟨a, ha, hpending, -, rfl⟩ := h.getElem?_queue.1 hs
        have hkept : (a.isPending t.frame && p a.timer) = true := by rw [hpending, hp]; rfl
        exact List.mem_map.2 ⟨_, Timetable.mem_pick.2 ⟨ha, hkept⟩, rfl⟩
      · intro hid
        obtain ⟨⟨_, a⟩, ha, rfl⟩ := List.mem_map.1 hid
        obtain ⟨ha, hkept⟩ := Timetable.mem_pick.1 ha
        obtain ⟨hpending, hp⟩ := Bool.and_eq_true_iff.1 hkept
        have hs := Std.ExtTreeMap.mem_toList_iff_getElem?_eq_some.2 (h.getElem?_next ha hpending)
        exact List.mem_map.2 ⟨_, List.mem_filter.2 ⟨hs, hp⟩, rfl⟩
  have hlen := hids.length_eq
  rw [List.length_map, List.length_map, ← List.countP_eq_length_filter, ← List.length_map (·.2),
    Timetable.map_snd_pick, ← List.countP_eq_length_filter] at hlen
  exact hlen

/-- So as many timers are pending as the timetable has pending entries. -/
theorem Follows.count_eq (h : q.Follows t) : q.count = t.count := by
  have hall := h.countP_eq fun _ => true
  rw [countP, List.countP_true, Std.ExtTreeMap.length_toList] at hall
  simp only [Bool.and_true] at hall
  exact hall

/-- What fires on the next frame are the entries that are due on it. -/
theorem Follows.advance_fst (h : q.Follows t) :
    q.advance.1 = (t.entries.filter (·.fires (t.frame + 1))).map (·.action) := by
  obtain ⟨frame, entries⟩ := t
  obtain rfl : q.frame = frame := h.frame_eq
  have hfire := fire_fst_eq (q := { q with frame := q.frame + 1 }) (fun _ ho => h.lt_due ho)
    ((Timetable.pick ⟨q.frame, entries⟩ (·.fires (q.frame + 1))).map fun e => (e.1, e.2.timer))
    (List.pairwise_map.2 (Timetable.pairwise_pick _ _)) ?_
  · rw [TimerQueue.advance, hfire, ← Timetable.map_snd_pick ⟨q.frame, entries⟩, List.map_map,
      List.map_map]
    rfl
  · intro id timer
    rw [List.mem_map, h.getElem?_queue]
    constructor
    · rintro ⟨⟨_, a⟩, ha, he⟩
      cases he
      obtain ⟨ha, hfires⟩ := Timetable.mem_pick.1 ha
      have hstart := h.start_le a (List.mem_of_getElem? ha)
      obtain ⟨hpending, hnext⟩ := (Appointment.fires_succ_iff hstart).1 hfires
      exact ⟨a, ha, hpending, hnext, rfl⟩
    · rintro ⟨a, ha, hpending, hnext, rfl⟩
      have hstart := h.start_le a (List.mem_of_getElem? ha)
      have hfires := (Appointment.fires_succ_iff hstart).2 ⟨hpending, hnext⟩
      exact ⟨(id, a), Timetable.mem_pick.2 ⟨ha, hfires⟩, rfl⟩

/-- After a frame, the timers stand in the slots of their next due frames again. -/
theorem Follows.advance (h : q.Follows t) :
    q.advance.2.Follows { t with frame := t.frame + 1 } := by
  obtain ⟨frame, entries⟩ := t
  obtain rfl : q.frame = frame := h.frame_eq
  have hq : Coherent { q with frame := q.frame + 1 } :=
    ⟨h.coherent.dueById_eq_some_iff, h.coherent.id_lt⟩
  refine ⟨hq.fire, frame_fire _, (nextId_fire _).trans h.nextId_eq, fun a ha =>
    Nat.le_succ_of_le (h.start_le a ha), fun {slot timer} => ?_⟩
  refine (hq.getElem?_queue_fire fun _ ho => h.lt_due ho).trans ?_
  simp only [h.getElem?_queue]
  have hstart : ∀ {a : Appointment α} {id : Nat}, entries[id]? = some a → a.start ≤ q.frame :=
    fun ha => h.start_le _ (List.mem_of_getElem? ha)
  constructor
  · rintro (⟨hlt, a, ha, hpending, hdue, rfl⟩ | ⟨i, hi, hdue, a, ha, hpending, hnext, rfl⟩)
    · -- what is due later is not due now, so its entry says the same as before
      have hnot : ¬ a.plan.Due a.start (q.frame + 1) := by
        intro h
        have := ((Plan.due_succ_iff (hstart ha)).1 h).2
        omega
      obtain ⟨hopen, hnext⟩ := Plan.succ_of_not_due (hstart ha) hnot
      exact ⟨a, ha, by rw [Appointment.isPending, hopen]; exact hpending,
        by rw [hnext]; exact hdue, rfl⟩
    · -- what fires now and repeats is due again one interval later
      obtain ⟨hlive, hopen⟩ := Bool.and_eq_true_iff.1 hpending
      have hnow := (Plan.due_succ_iff (hstart ha)).2 ⟨hopen, hnext.symm⟩
      rcases Plan.succ_of_due (hstart ha) hnow with ⟨hnone, -⟩ | ⟨j, hj, hopen, hnext⟩
      · rw [Appointment.timer, hnone] at hi
        cases hi
      · obtain rfl : j = i := Option.some.inj (hj.symm.trans hi)
        exact ⟨a, ha, by rw [Appointment.isPending, hopen, hlive]; rfl, hdue.trans hnext.symm, rfl⟩
  · rintro ⟨a, ha, hpending, hdue, rfl⟩
    obtain ⟨hlive, hopen⟩ := Bool.and_eq_true_iff.1 hpending
    by_cases hnow : a.plan.Due a.start (q.frame + 1)
    · obtain ⟨hbefore, hnext⟩ := (Plan.due_succ_iff (hstart ha)).1 hnow
      rcases Plan.succ_of_due (hstart ha) hnow with ⟨-, hclosed⟩ | ⟨i, hi, -, hagain⟩
      · rw [hclosed] at hopen
        cases hopen
      · exact .inr ⟨i, hi, hdue.trans hagain, a, ha,
          by rw [Appointment.isPending, hlive, hbefore]; rfl, hnext.symm, rfl⟩
    · obtain ⟨hopen', hnext⟩ := Plan.succ_of_not_due (hstart ha) hnow
      rw [hopen'] at hopen
      rw [hnext] at hdue
      have hlt := Plan.lt_next hopen (hstart ha)
      have hne : a.plan.next a.start q.frame ≠ q.frame + 1 := by
        intro h
        exact hnow ((Plan.due_succ_iff (hstart ha)).2 ⟨hopen, h⟩)
      exact .inl ⟨by omega, a, ha, by rw [Appointment.isPending, hlive, hopen]; rfl, hdue, rfl⟩

/-- Every operation that fits answers as the timetable does, and the queue goes on following it. -/
theorem Follows.apply (h : q.Follows t) {op : Op α} (hfits : t.FitsOp op) :
    ∃ q', q.apply op = .ok ((t.apply op).1, q') ∧ q'.Follows (t.apply op).2 := by
  have hset : ∀ {delay : Nat} (timer : Timer α), t.frame + max delay 1 < timerCapacity →
      q.insert delay timer = .ok (t.entries.length, (q.arm delay timer).2) := by
    intro delay timer hlt
    rw [insert, h.frame_eq, if_pos hlt, ← h.nextId_eq]
    rfl
  cases op with
  | once delay action =>
    have hopen : (Plan.once delay).isOpen t.frame t.frame = true := decide_eq_true (by omega)
    refine ⟨_, ?_, h.arm hopen rfl⟩
    rw [TimerQueue.apply, once, hset _ hfits]
    rfl
  | repeating interval action =>
    have hnext : (Plan.every interval).next t.frame t.frame =
        t.frame + max (max interval 1) 1 := by
      rw [Plan.next, Nat.sub_self, Nat.zero_div, Nat.zero_add, Nat.one_mul]
      omega
    have hfits : t.frame + max (max interval 1) 1 < timerCapacity := by
      rw [Nat.max_assoc, Nat.max_self]
      exact hfits
    refine ⟨_, ?_, h.arm rfl hnext⟩
    rw [TimerQueue.apply, repeating, hset _ hfits]
    rfl
  | cancel id =>
    refine ⟨(q.cancel id).2, ?_, h.cancel id⟩
    rw [TimerQueue.apply, Timetable.apply, ← h.isPending_eq, ← h.coherent.cancel_fst]
  | advance =>
    refine ⟨q.advance.2, ?_, h.advance⟩
    rw [TimerQueue.apply, Timetable.apply, ← h.advance_fst]

/-- Operations in order that fit are all carried out. -/
theorem Follows.run (h : q.Follows t) {ops : List (Op α)} (hfits : t.Fits ops) :
    ∃ q', q.run ops = .ok ((t.run ops).1, q') ∧ q'.Follows (t.run ops).2 := by
  induction ops generalizing q t with
  | nil => exact ⟨q, rfl, h⟩
  | cons op rest ih =>
    obtain ⟨q₁, hop, h₁⟩ := h.apply hfits.1
    obtain ⟨q₂, hrest, h₂⟩ := ih h₁ hfits.2
    refine ⟨q₂, ?_, h₂⟩
    rw [TimerQueue.run, hop]
    simp only [bind, Except.bind, hrest]
    rfl

/-- What a queue shows of its timers is what a timetable says about them. -/
structure Shows (q : TimerQueue α) (t : Timetable α) : Prop where
  frame_eq : q.frame = t.frame
  isPending_eq : ∀ id, q.isPending id = t.isPending id
  count_eq : q.count = t.count
  /-- Both tables hold the same due frames, and these are in the future. -/
  dueById_eq_some_iff : ∀ {id due : Nat}, q.dueById[id]? = some due ↔ (⟨due, id⟩ : Slot) ∈ q.queue
  lt_due : ∀ slot ∈ q.queue, q.frame < slot.due
  /-- Removing a timer answers whether it was pending, and then it is not. -/
  cancel_fst : ∀ id, (q.cancel id).1 = q.isPending id
  isPending_cancel : ∀ id other,
    (q.cancel id).2.isPending other = (q.isPending other && other != id)
  /-- The slots of the other timers are as before. -/
  getElem?_queue_cancel : ∀ id (slot : Slot), slot.id ≠ id →
    (q.cancel id).2.queue[slot]? = q.queue[slot]?

/-- A queue that follows a timetable shows what the timetable says. -/
theorem Follows.shows (h : q.Follows t) : q.Shows t where
  frame_eq := h.frame_eq
  isPending_eq := h.isPending_eq
  count_eq := h.count_eq
  dueById_eq_some_iff := h.coherent.dueById_eq_some_iff
  lt_due _ hs := h.lt_due hs
  cancel_fst := h.coherent.cancel_fst
  isPending_cancel := h.coherent.isPending_cancel
  getElem?_queue_cancel id slot hid := by rw [h.coherent.getElem?_queue_cancel, if_neg hid]

/-- A queue answers every sequence of operations as the timetable does, and shows of its timers what
the timetable says, when the due frames that are asked for can be expressed. -/
theorem run_eq_timetable (ops : List (Op α)) (hfits : Timetable.empty.Fits ops) :
    ∃ q, TimerQueue.empty.run ops = .ok ((Timetable.empty.run ops).1, q) ∧
      q.Shows (Timetable.empty.run ops).2 := by
  obtain ⟨q, hrun, h⟩ := Follows.empty.run hfits
  exact ⟨q, hrun, h.shows⟩

/-- Two timers that meet on frame 2 fire in the order of setting, the second one fires again on
frame 4, and the third one was removed in between. -/
theorem run_meeting_timers : ∃ q, TimerQueue.empty.run
    [.once 2 'a', .repeating 2 'b', .advance, .once 3 'c', .once 0 'd', .advance, .cancel 2,
      .cancel 0, .advance, .advance] =
    .ok ([.set 0, .set 1, .fired [], .set 2, .set 3, .fired ['a', 'b', 'd'], .cancelled true,
      .cancelled false, .fired [], .fired ['b']], q) ∧ q.count = 1 ∧ q.isPending 1 = true := by
  obtain ⟨q, hrun, hshows⟩ := run_eq_timetable [.once 2 'a', .repeating 2 'b', .advance,
    .once 3 'c', .once 0 'd', .advance, .cancel 2, .cancel 0, .advance, .advance]
    (by simp only [Timetable.Fits, Timetable.FitsOp]; decide)
  exact ⟨q, hrun, hshows.count_eq, hshows.isPending_eq 1⟩

end TimerQueue

end Barrage
