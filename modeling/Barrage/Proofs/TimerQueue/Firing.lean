import Barrage.TimerQueue

/-!
# What fires on a frame

A timer queue keeps each pending timer in two tables: the queue itself, by slots, and the due
frames, by numbers. The two say the same (`TimerQueue.Coherent`), so a number stands in one slot at
most (`Coherent.slot_unique`), and every operation keeps it that way.

On these grounds the loop of `advance` can be read off its result. When every timer in front is due
on the frame itself, what fires is the list of the timers of that frame in the order of their
numbers (`fire_fst_eq`). What waits afterwards is what was due later, and what fired and repeats,
one interval behind the frame (`Coherent.getElem?_queue_fire`).
-/

namespace Barrage

namespace TimerQueue

section
variable {α : Type} {q : TimerQueue α} {slot : Slot} {timer : Timer α}

/-- The two tables of a queue say the same, and all numbers have been given out. -/
structure Coherent (q : TimerQueue α) : Prop where
  /-- A timer has a due frame exactly when it stands in the slot of that frame. -/
  dueById_eq_some_iff : ∀ {id due : Nat}, q.dueById[id]? = some due ↔ (⟨due, id⟩ : Slot) ∈ q.queue
  /-- Only numbers below the next one are in use. -/
  id_lt : ∀ slot ∈ q.queue, slot.id < q.nextId

/-- A slot is taken if a timer is found there. -/
theorem mem_queue_iff : slot ∈ q.queue ↔ ∃ timer, q.queue[slot]? = some timer := by
  rw [Std.ExtTreeMap.mem_iff_isSome_getElem?, Option.isSome_iff_exists]

/-- The slot of a timer is taken. -/
theorem mem_queue_of_getElem? (h : q.queue[slot]? = some timer) : slot ∈ q.queue :=
  mem_queue_iff.2 ⟨timer, h⟩

/-- To put a timer into a slot takes that slot. -/
theorem mem_queue_put {other : Slot} :
    other ∈ (q.put slot timer).queue ↔ slot = other ∨ other ∈ q.queue := by
  simp only [put, Std.ExtTreeMap.mem_insert, Std.LawfulEqOrd.compare_eq_iff_eq]

/-- To take a timer out of a slot leaves that slot empty. -/
theorem mem_queue_take {other : Slot} :
    other ∈ (q.take slot).queue ↔ slot ≠ other ∧ other ∈ q.queue := by
  simp only [take, Std.ExtTreeMap.mem_erase, Std.LawfulEqOrd.compare_eq_iff_eq, ne_eq]

/-- A timer that is put into a slot is due then. -/
theorem getElem?_dueById_put (id : Nat) :
    (q.put slot timer).dueById[id]? = if slot.id = id then some slot.due else q.dueById[id]? := by
  simp only [put, Std.ExtTreeMap.getElem?_insert, Std.LawfulEqOrd.compare_eq_iff_eq]

/-- A timer that is taken out is not due any more. -/
theorem getElem?_dueById_take (id : Nat) :
    (q.take slot).dueById[id]? = if slot.id = id then none else q.dueById[id]? := by
  simp only [take, Std.ExtTreeMap.getElem?_erase, Std.LawfulEqOrd.compare_eq_iff_eq]

/-- Nothing is pending in an empty queue, under either key. -/
theorem Coherent.empty : (TimerQueue.empty : TimerQueue α).Coherent where
  dueById_eq_some_iff := by simp [TimerQueue.empty]
  id_lt := by simp [TimerQueue.empty]

/-- A number stands in one slot at most: the second table gives it one due frame. -/
theorem Coherent.slot_unique (hq : q.Coherent) {other : Slot} (hs : slot ∈ q.queue)
    (ho : other ∈ q.queue) (hid : slot.id = other.id) : slot = other := by
  obtain ⟨due, id⟩ := slot
  obtain ⟨due', id'⟩ := other
  obtain rfl : id = id' := hid
  have h := hq.dueById_eq_some_iff.2 hs
  rw [hq.dueById_eq_some_iff.2 ho, Option.some.injEq] at h
  rw [h]

/-- A timer may be put into a slot when its number is given out and stands in no slot. -/
theorem Coherent.put (hq : q.Coherent) (hid : slot.id < q.nextId)
    (hfree : ∀ other ∈ q.queue, other.id ≠ slot.id) (timer : Timer α) :
    (q.put slot timer).Coherent where
  dueById_eq_some_iff {id due} := by
    rw [getElem?_dueById_put, mem_queue_put]
    by_cases h : slot.id = id
    · subst h
      rw [if_pos rfl, Option.some.injEq]
      constructor
      · rintro rfl
        exact .inl rfl
      · rintro (h | ho)
        · rw [h]
        · exact (hfree _ ho rfl).elim
    · rw [if_neg h, hq.dueById_eq_some_iff]
      have hne : slot ≠ ⟨due, id⟩ := by
        rintro rfl
        exact h rfl
      simp only [hne, false_or]
  id_lt other ho := by
    rcases mem_queue_put.1 ho with rfl | ho
    · exact hid
    · exact hq.id_lt other ho

/-- A timer may be taken out of its slot. -/
theorem Coherent.take (hq : q.Coherent) (hs : slot ∈ q.queue) : (q.take slot).Coherent where
  dueById_eq_some_iff {id due} := by
    rw [getElem?_dueById_take, mem_queue_take]
    by_cases h : slot.id = id
    · rw [if_pos h]
      constructor
      · intro h
        cases h
      · rintro ⟨hne, ho⟩
        exact absurd (hq.slot_unique hs ho h) hne
    · rw [if_neg h, hq.dueById_eq_some_iff]
      have hne : slot ≠ ⟨due, id⟩ := by
        rintro rfl
        exact h rfl
      simp only [hne, ne_eq, not_false_eq_true, true_and]
  id_lt other ho := hq.id_lt other (mem_queue_take.1 ho).2

/-- A timer that fires leaves its slot for another one, if at all, under its own number. -/
theorem Coherent.rearm (hq : q.Coherent) (hs : slot ∈ q.queue) (timer : Timer α) :
    (q.rearm slot timer).Coherent := by
  rw [TimerQueue.rearm]
  split
  · exact hq.take hs
  · next interval _ =>
    have hid : (⟨q.frame + interval, slot.id⟩ : Slot).id < (q.take slot).nextId := hq.id_lt slot hs
    refine (hq.take hs).put hid ?_ timer
    intro other ho hid
    obtain ⟨hne, ho⟩ := mem_queue_take.1 ho
    exact hne (hq.slot_unique hs ho hid.symm)

/-- A new timer gets a number that was not given out before. -/
theorem Coherent.arm (hq : q.Coherent) (delay : Nat) (timer : Timer α) :
    (q.arm delay timer).2.Coherent := by
  have hgiven : Coherent { q with nextId := q.nextId + 1 } :=
    ⟨hq.dueById_eq_some_iff, fun slot hs => Nat.lt_succ_of_lt (hq.id_lt slot hs)⟩
  refine hgiven.put (Nat.lt_succ_self _) ?_ timer
  intro other ho
  exact Nat.ne_of_lt (hq.id_lt other ho)

/-- A timer is pending exactly when it stands in some slot. -/
theorem Coherent.isPending_iff (hq : q.Coherent) {id : Nat} :
    q.isPending id = true ↔ ∃ due, (⟨due, id⟩ : Slot) ∈ q.queue := by
  rw [isPending, Std.ExtTreeMap.contains_iff_mem, Std.ExtTreeMap.mem_iff_isSome_getElem?,
    Option.isSome_iff_exists]
  exact exists_congr fun due => hq.dueById_eq_some_iff

/-- Removing a timer takes it out of the slot that the second table names; a number that is not
pending is left alone. In both cases the answer says whether the timer was pending. -/
theorem Coherent.cancel_eq (hq : q.Coherent) (id : Nat) :
    (∃ due, (⟨due, id⟩ : Slot) ∈ q.queue ∧ q.cancel id = (true, q.take ⟨due, id⟩)) ∨
    ((∀ due, (⟨due, id⟩ : Slot) ∉ q.queue) ∧ q.cancel id = (false, q)) := by
  rw [cancel]
  cases hdue : q.dueById[id]? with
  | none =>
    refine .inr ⟨?_, rfl⟩
    intro due hs
    rw [hq.dueById_eq_some_iff.2 hs] at hdue
    cases hdue
  | some due =>
    have hs := hq.dueById_eq_some_iff.1 hdue
    refine .inl ⟨due, hs, ?_⟩
    simp only [Std.ExtTreeMap.contains_iff_mem.2 hs]

/-- The tables of a queue agree after a cancellation. -/
theorem Coherent.cancel (hq : q.Coherent) (id : Nat) : (q.cancel id).2.Coherent := by
  rcases hq.cancel_eq id with ⟨due, hs, h⟩ | ⟨-, h⟩
  · rw [h]
    exact hq.take hs
  · rw [h]
    exact hq

/-- What removing a timer answers is whether it was pending. -/
theorem Coherent.cancel_fst (hq : q.Coherent) (id : Nat) : (q.cancel id).1 = q.isPending id := by
  rcases hq.cancel_eq id with ⟨due, hs, h⟩ | ⟨hnone, h⟩
  · rw [h, hq.isPending_iff.2 ⟨due, hs⟩]
  · have hnot : q.isPending id ≠ true := by
      intro hp
      obtain ⟨due, hs⟩ := hq.isPending_iff.1 hp
      exact hnone due hs
    rw [h, Bool.eq_false_iff.2 hnot]

/-- A removed timer stands in no slot any more, and all others are where they were. -/
theorem Coherent.getElem?_queue_cancel (hq : q.Coherent) (id : Nat) (slot : Slot) :
    (q.cancel id).2.queue[slot]? = if slot.id = id then none else q.queue[slot]? := by
  have hnone : ∀ {q : TimerQueue α}, slot ∉ q.queue → q.queue[slot]? = none :=
    Std.ExtTreeMap.getElem?_eq_none
  rcases hq.cancel_eq id with ⟨due, hs, h⟩ | ⟨hfree, h⟩
  · rw [h, getElem?_queue_take]
    by_cases hslot : (⟨due, id⟩ : Slot) = slot
    · subst hslot
      rw [if_pos rfl, if_pos rfl]
    · rw [if_neg hslot]
      split
      · next hid => exact hnone fun ho => hslot (hq.slot_unique hs ho hid.symm)
      · rfl
  · rw [h]
    split
    · next hid =>
      subst hid
      exact hnone (hfree slot.due)
    · rfl

/-- To cancel takes no frame. -/
@[simp] theorem frame_cancel (q : TimerQueue α) (id : Nat) : (q.cancel id).2.frame = q.frame := by
  rw [TimerQueue.cancel]
  split <;> rfl

/-- To cancel gives out no number. -/
@[simp] theorem nextId_cancel (q : TimerQueue α) (id : Nat) :
    (q.cancel id).2.nextId = q.nextId := by
  rw [TimerQueue.cancel]
  split <;> rfl

/-- Removing a timer makes no difference to whether another one is pending. -/
theorem Coherent.isPending_cancel (hq : q.Coherent) (id other : Nat) :
    (q.cancel id).2.isPending other = (q.isPending other && other != id) := by
  rw [Bool.eq_iff_iff, Bool.and_eq_true, (hq.cancel id).isPending_iff, hq.isPending_iff, bne_iff_ne]
  simp only [mem_queue_iff, hq.getElem?_queue_cancel]
  by_cases h : other = id
  · simp [h]
  · simp [h]

/-! ## One round of the loop -/

/-- Nothing fires when nothing is pending. -/
theorem fire_of_first?_none (h : q.first? = none) : q.fire = ([], q) := by
  rw [fire]
  split
  · rfl
  · next h' => rw [h] at h'; cases h'

/-- Nothing fires when the timer in front is due later. -/
theorem fire_of_lt (h : q.first? = some (slot, timer)) (hdue : q.frame < slot.due) :
    q.fire = ([], q) := by
  rw [fire]
  split
  · rfl
  · next h' =>
    rw [h] at h'
    cases h'
    rw [dif_pos hdue]

/-- The timer in front fires when it is due, and then the rest of the queue does. -/
theorem fire_of_le (h : q.first? = some (slot, timer)) (hdue : slot.due ≤ q.frame) :
    q.fire = (timer.action :: (q.rearm slot timer).fire.1, (q.rearm slot timer).fire.2) := by
  rw [fire]
  split
  · next h' => rw [h] at h'; cases h'
  · next h' =>
    rw [h] at h'
    cases h'
    rw [dif_neg (Nat.not_lt.2 hdue)]

/-! ## The whole loop -/

/-- Nothing that fires is put back on the frame or before it. -/
theorem le_due_rearm (hlate : ∀ other ∈ q.queue, q.frame ≤ other.due) :
    ∀ other ∈ (q.rearm slot timer).queue, (q.rearm slot timer).frame ≤ other.due := by
  intro other ho
  rw [frame_rearm]
  by_cases hdue : other.due ≤ q.frame
  · obtain ⟨_, h⟩ := mem_queue_iff.1 ho
    rw [getElem?_queue_rearm q slot timer hdue] at h
    split at h
    · cases h
    · exact hlate other (mem_queue_of_getElem? h)
  · exact Nat.le_of_not_le hdue

/-- What stands in a slot behind the frame after a timer has fired: the timer itself, if this is
where it goes back to, or what stood there before. -/
theorem Coherent.getElem?_queue_rearm_of_lt (hq : q.Coherent) (hs : q.queue[slot]? = some timer)
    (hdue : slot.due ≤ q.frame) {other : Slot} (hother : q.frame < other.due) {t : Timer α} :
    (q.rearm slot timer).queue[other]? = some t ↔
      (∃ i, timer.interval = some i ∧ other.due = q.frame + i ∧ other.id = slot.id ∧ t = timer) ∨
      q.queue[other]? = some t := by
  have hne : slot ≠ other := by
    rintro rfl
    omega
  rw [TimerQueue.rearm]
  split
  · next hi =>
    simp only [getElem?_queue_take, if_neg hne, hi, reduceCtorEq, false_and, exists_false, false_or]
  · next i hi =>
    simp only [getElem?_queue_put, getElem?_queue_take, if_neg hne, hi, Option.some.injEq]
    by_cases hback : (⟨q.frame + i, slot.id⟩ : Slot) = other
    · subst hback
      rw [if_pos rfl, Option.some.injEq]
      constructor
      · rintro rfl
        exact .inl ⟨i, rfl, rfl, rfl, rfl⟩
      · rintro (⟨_, -, -, -, rfl⟩ | h)
        · rfl
        · -- the number of the timer that fires stands in no other slot
          have := hq.slot_unique (mem_queue_of_getElem? hs) (mem_queue_of_getElem? h) rfl
          exact absurd this hne
    · rw [if_neg hback]
      constructor
      · exact .inr
      · rintro (⟨_, rfl, hd, hid, -⟩ | h)
        · exact absurd (by rw [← hd, ← hid]) hback
        · exact h

/-- What fires on a frame are the timers of this frame, in the order of their numbers. -/
theorem fire_fst_eq (hlate : ∀ other ∈ q.queue, q.frame ≤ other.due) (due : List (Nat × Timer α))
    (hsorted : due.Pairwise (·.1 < ·.1))
    (hmem : ∀ id t, (id, t) ∈ due ↔ q.queue[(⟨q.frame, id⟩ : Slot)]? = some t) :
    q.fire.1 = due.map (·.2.action) := by
  induction due generalizing q with
  | nil =>
    cases hfirst : q.first? with
    | none => rw [fire_of_first?_none hfirst, List.map_nil]
    | some entry =>
      obtain ⟨slot, timer⟩ := entry
      have hs := (first?_eq_some_iff.1 hfirst).1
      have hlt : q.frame < slot.due := by
        refine Nat.lt_of_le_of_ne (hlate slot (mem_queue_of_getElem? hs)) ?_
        intro hdue
        have := (hmem slot.id timer).2 (by rw [hdue]; exact hs)
        cases this
      rw [fire_of_lt hfirst hlt, List.map_nil]
  | cons entry rest ih =>
    obtain ⟨id, timer⟩ := entry
    obtain ⟨hbefore, hsorted⟩ := List.pairwise_cons.1 hsorted
    have hs := (hmem id timer).1 List.mem_cons_self
    -- the timer with the least number of the frame is in front
    have hfirst : q.first? = some (⟨q.frame, id⟩, timer) := by
      refine first?_eq_some_iff.2 ⟨hs, ?_⟩
      intro other ho
      refine Slot.isLE_compare.2 ?_
      rcases Nat.lt_or_eq_of_le (hlate other ho) with hlt | heq
      · exact .inl hlt
      · obtain ⟨t, ht⟩ := mem_queue_iff.1 ho
        have hin : (other.id, t) ∈ (id, timer) :: rest :=
          (hmem other.id t).2 (by rw [heq]; exact ht)
        rcases List.mem_cons.1 hin with h | h
        · cases h
          exact .inr ⟨heq, Nat.le_refl _⟩
        · exact .inr ⟨heq, Nat.le_of_lt (hbefore _ h)⟩
    rw [fire_of_le hfirst (Nat.le_refl _), List.map_cons]
    refine congrArg (timer.action :: ·) (ih (le_due_rearm hlate) hsorted ?_)
    intro id' t
    rw [frame_rearm, getElem?_queue_rearm q _ timer (Nat.le_refl _)]
    split
    · next h =>
      cases h
      constructor
      · intro h
        exact absurd (hbefore _ h) (Nat.lt_irrefl _)
      · intro h
        cases h
    · next h =>
      have hne : (id', t) ≠ (id, timer) := by
        rintro h'
        cases h'
        exact h rfl
      rw [← hmem id' t, List.mem_cons, or_iff_right hne]

/-- What every firing of a due timer keeps, the loop keeps. -/
theorem fire_snd_of_rearm {P : TimerQueue α → Prop}
    (hrearm : ∀ {q : TimerQueue α} {slot timer}, q.queue[slot]? = some timer → slot.due ≤ q.frame →
      P q → P (q.rearm slot timer)) (hq : P q) : P q.fire.2 := by
  induction q using TimerQueue.fire.induct with
  | case1 q hfirst =>
    rw [fire_of_first?_none hfirst]
    exact hq
  | case2 q slot timer hfirst hdue =>
    rw [fire_of_lt hfirst hdue]
    exact hq
  | case3 q slot timer hfirst hdue _ _ _ _ ih =>
    rw [fire_of_le hfirst (Nat.le_of_not_lt hdue)]
    exact ih (hrearm (first?_eq_some_iff.1 hfirst).1 (Nat.le_of_not_lt hdue) hq)

/-- The loop does not change the frame. -/
@[simp] theorem frame_fire (q : TimerQueue α) : q.fire.2.frame = q.frame :=
  fire_snd_of_rearm (P := fun q' => q'.frame = q.frame)
    (fun _ _ h => (frame_rearm ..).trans h) rfl

/-- The loop gives out no numbers. -/
@[simp] theorem nextId_fire (q : TimerQueue α) : q.fire.2.nextId = q.nextId := by
  refine fire_snd_of_rearm (P := fun q' => q'.nextId = q.nextId) (fun _ _ h => ?_) rfl
  rw [← h, rearm]
  split <;> rfl

/-- The loop keeps the tables in agreement. -/
theorem Coherent.fire (hq : q.Coherent) : q.fire.2.Coherent :=
  fire_snd_of_rearm (fun hs _ hq => hq.rearm (mem_queue_of_getElem? hs) _) hq

/-- What waits after a frame: what was due later, and what fired and repeats, one interval behind
the frame. -/
theorem Coherent.getElem?_queue_fire (hq : q.Coherent)
    (hlate : ∀ other ∈ q.queue, q.frame ≤ other.due) {t : Timer α} :
    q.fire.2.queue[slot]? = some t ↔
      (q.frame < slot.due ∧ q.queue[slot]? = some t) ∨
      (∃ i, t.interval = some i ∧ slot.due = q.frame + i ∧
        q.queue[(⟨q.frame, slot.id⟩ : Slot)]? = some t) := by
  -- nothing of the frame is left to fire again when the loop stops
  have hstop : ∀ {q : TimerQueue α}, (∀ other ∈ q.queue, q.frame < other.due) →
      (q.queue[slot]? = some t ↔ (q.frame < slot.due ∧ q.queue[slot]? = some t) ∨
        (∃ i, t.interval = some i ∧ slot.due = q.frame + i ∧
          q.queue[(⟨q.frame, slot.id⟩ : Slot)]? = some t)) := by
    intro q hwait
    constructor
    · intro h
      exact .inl ⟨hwait slot (mem_queue_of_getElem? h), h⟩
    · rintro (⟨-, h⟩ | ⟨_, -, -, h⟩)
      · exact h
      · exact absurd (hwait _ (mem_queue_of_getElem? h)) (Nat.lt_irrefl _)
  induction q using TimerQueue.fire.induct with
  | case1 q hfirst =>
    rw [fire_of_first?_none hfirst]
    refine hstop fun other ho => ?_
    rw [first?_eq_none_iff.1 hfirst] at ho
    exact absurd ho Std.ExtTreeMap.not_mem_empty
  | case2 q first timer hfirst hdue =>
    have hwait : ∀ other ∈ q.queue, q.frame < other.due := by
      intro other ho
      rcases Slot.isLE_compare.1 ((first?_eq_some_iff.1 hfirst).2 other ho) with h | h
      · omega
      · omega
    rw [fire_of_lt hfirst hdue]
    exact hstop hwait
  | case3 q first timer hfirst hdue _ _ _ _ ih =>
    have hdue := Nat.le_of_not_lt hdue
    have hs := (first?_eq_some_iff.1 hfirst).1
    have heq : first.due = q.frame := Nat.le_antisymm hdue (hlate first (mem_queue_of_getElem? hs))
    have hnow : (⟨q.frame, slot.id⟩ : Slot).due ≤ q.frame := Nat.le_refl _
    rw [fire_of_le hfirst hdue]
    refine (ih (hq.rearm (mem_queue_of_getElem? hs) timer) (le_due_rearm hlate)).trans ?_
    rw [frame_rearm, getElem?_queue_rearm q first timer hnow]
    constructor
    · rintro (⟨hlt, h⟩ | ⟨i, hi, hd, h⟩)
      · rcases (hq.getElem?_queue_rearm_of_lt hs hdue hlt).1 h with ⟨i, hi, hd, hid, rfl⟩ | h
        · exact .inr ⟨i, hi, hd, by rw [hid, ← heq]; exact hs⟩
        · exact .inl ⟨hlt, h⟩
      · split at h
        · cases h
        · exact .inr ⟨i, hi, hd, h⟩
    · rintro (⟨hlt, h⟩ | ⟨i, hi, hd, h⟩)
      · exact .inl ⟨hlt, (hq.getElem?_queue_rearm_of_lt hs hdue hlt).2 (.inr h)⟩
      · by_cases hfront : first = ⟨q.frame, slot.id⟩
        · obtain rfl : timer = t := by
            rw [← hfront, hs, Option.some.injEq] at h
            exact h
          have hlt : q.frame < slot.due := by
            have := i.property
            omega
          refine .inl ⟨hlt, (hq.getElem?_queue_rearm_of_lt hs hdue hlt).2 (.inl ?_)⟩
          exact ⟨i, hi, hd, by rw [hfront], rfl⟩
        · exact .inr ⟨i, hi, hd, by rw [if_neg hfront]; exact h⟩

end

end TimerQueue

end Barrage
