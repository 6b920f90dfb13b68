import Barrage.Proofs.Input.Debounce

/-!
# How long a block lasts

A block that no timer belongs to is there for good: no frame and no operation on another key lifts
it, and only few operations on the key do (`Op.Frees`, `Plain.run`). So a timer that has fired, or
that was dropped, never lifts a block that was set later.

What can be told of the keys follows from what is pending, whatever the numbers of the timers are
and however many frames have passed (`Alike`). After everything was released nothing is pending, so
the keyboard goes on as if no timer had ever been set.
-/

namespace Barrage

namespace Keyboard

/-- Whether an operation lifts the block of a key, or gives the key a timer. -/
def Op.Frees (a : Action) : Op → Prop
  | .unblock b | .debounce b _ | .clearDebounce b => b = a
  | .unblockAll | .releaseAll => True
  | .update _ | .block _ => False

section
variable {k k' l l' : Keyboard} {keys keys' : List Action} {a : Action}

/-! ## Blocks without a timer -/

/-- A key is blocked, and no timer is pending for it. -/
structure Plain (k : Keyboard) (keys : List Action) (a : Action) : Prop where
  has_blocked : k.blocked.has a = true
  not_pends : ∀ frames, ¬ k.Pends keys a frames

/-- A block without a timer outlasts every operation that does not free the key. -/
theorem Plain.apply (h : k.Plain keys a) (htracks : k.Tracks keys) {op : Op}
    (hop : ¬ op.Frees a) (happly : k.apply op = .ok k') : k'.Plain (op.keysAfter keys) a := by
  cases op with
  | update raw =>
    cases happly
    constructor
    · refine htracks.has_blocked_update.2 ⟨h.has_blocked, h.not_pends 1, ?_⟩
      rintro ⟨-, frames, -, hpends⟩
      exact h.not_pends frames hpends
    · intro frames hpends
      exact h.not_pends _ (htracks.pends_update.1 hpends).1
  | block b =>
    cases happly
    refine ⟨?_, h.not_pends⟩
    exact (ActionSet.has_insert k.blocked b a).trans (by rw [h.has_blocked, Bool.true_or])
  | unblock b =>
    cases happly
    have hne : b ≠ a := hop
    refine ⟨?_, h.not_pends⟩
    exact (ActionSet.has_erase k.blocked b a).trans (by simp [h.has_blocked, hne])
  | clearDebounce b =>
    cases happly
    have hne : b ≠ a := hop
    refine ⟨?_, fun frames hpends => h.not_pends frames (htracks.pends_clearDebounce.1 hpends).1⟩
    simp [has_blocked_clearDebounce, h.has_blocked, hne]
  | debounce b delay =>
    refine ⟨?_, fun frames hpends => ?_⟩
    · obtain ⟨-, rfl⟩ := debounceKey_eq_ok_iff.1 happly
      exact (ActionSet.has_insert k.blocked b a).trans (by rw [h.has_blocked, Bool.true_or])
    · rcases (htracks.pends_debounceKey happly).1 hpends with hpends | ⟨hba, -⟩
      · exact h.not_pends frames hpends
      · exact hop hba
  | unblockAll => exact absurd trivial hop
  | releaseAll => exact absurd trivial hop

/-- A block without a timer stays until an operation lifts it or gives the key a timer. -/
theorem Plain.run (h : k.Plain keys a) (htracks : k.Tracks keys) {ops : List Op}
    (hops : ∀ op ∈ ops, ¬ op.Frees a) (hrun : k.run ops = .ok k') : k'.blocked.has a = true := by
  induction ops generalizing k keys with
  | nil =>
    cases hrun
    exact h.has_blocked
  | cons op rest ih =>
    obtain ⟨next, hop, hrest⟩ := bind_eq_ok_iff.1 hrun
    exact ih (h.apply htracks (hops op List.mem_cons_self) hop) (htracks.apply hop)
      (fun later hlater => hops later (List.mem_cons_of_mem _ hlater)) hrest

/-! ## What the blocks depend on -/

/-- Two keyboards tell the same of every key. -/
structure SameKeys (k l : Keyboard) : Prop where
  active : ∀ a, k.active.has a = l.active.has a
  pressed : ∀ a, k.pressed.has a = l.pressed.has a
  first : ∀ a, k.first.has a = l.first.has a
  blocked : ∀ a, k.blocked.has a = l.blocked.has a
  pauseHeld : k.pauseHeld = l.pauseHeld

/-- Two keyboards tell the same of every key, and the same is pending for each. The frames of the
first one may be more. -/
structure Alike (k : Keyboard) (keys : List Action) (l : Keyboard) (keys' : List Action) :
    Prop where
  tracks : k.Tracks keys
  tracks' : l.Tracks keys'
  same : k.SameKeys l
  pends_iff : ∀ {a frames}, k.Pends keys a frames ↔ l.Pends keys' a frames
  frame_le : l.debounce.frame ≤ k.debounce.frame

/-- A frame keeps two keyboards alike. -/
theorem Alike.update (h : Alike k keys l keys') (raw : ActionSet) :
    Alike (k.update raw) keys (l.update raw) keys' := by
  have hblocked : ∀ a, (k.update raw).blocked.has a = (l.update raw).blocked.has a := by
    intro a
    rw [Bool.eq_iff_iff, h.tracks.has_blocked_update, h.tracks'.has_blocked_update,
      h.same.blocked, h.same.pressed]
    simp only [h.pends_iff]
  refine ⟨h.tracks.update raw, h.tracks'.update raw, ⟨fun a => ?_, fun a => ?_, fun a => ?_,
    hblocked, ?_⟩, fun {a frames} => ?_, ?_⟩
  · rw [h.tracks.update_eq raw, h.tracks'.update_eq raw]
    simp only [ActionSet.has_set, ActionSet.has_diff, hblocked, h.same.pauseHeld]
  · rw [h.tracks.update_eq raw, h.tracks'.update_eq raw]
  · rw [h.tracks.update_eq raw, h.tracks'.update_eq raw]
    simp only [ActionSet.has_diff, h.same.pressed]
  · rw [h.tracks.update_eq raw, h.tracks'.update_eq raw]
    simp only [hblocked]
  · rw [h.tracks.pends_update, h.tracks'.pends_update, h.pends_iff, h.same.pressed]
  · rw [h.tracks.frame_update, h.tracks'.frame_update]
    exact Nat.succ_le_succ h.frame_le

/-- A change to the same blocks keeps two keyboards alike. -/
theorem Alike.withBlocked (h : Alike k keys l keys') {blocked blocked' : ActionSet}
    (hsame : ∀ a, blocked.has a = blocked'.has a) :
    Alike { k with blocked } keys { l with blocked := blocked' } keys' :=
  ⟨⟨h.tracks.delivers, h.tracks.timers_eq⟩, ⟨h.tracks'.delivers, h.tracks'.timers_eq⟩,
    ⟨h.same.active, h.same.pressed, h.same.first, hsame, h.same.pauseHeld⟩, h.pends_iff, h.frame_le⟩

/-- Keyboards stay alike when the timers of one key are dropped in both. -/
theorem Alike.clearDebounce (h : Alike k keys l keys') (a : Action) :
    Alike (k.clearDebounce a) keys (l.clearDebounce a) keys' := by
  refine ⟨h.tracks.clearDebounce a, h.tracks'.clearDebounce a,
    ⟨h.same.active, h.same.pressed, h.same.first, fun b => ?_, h.same.pauseHeld⟩,
    fun {b frames} => ?_, ?_⟩
  · rw [has_blocked_clearDebounce, has_blocked_clearDebounce, h.same.blocked]
  · rw [h.tracks.pends_clearDebounce, h.tracks'.pends_clearDebounce, h.pends_iff]
  · rw [frame_clearDebounce, frame_clearDebounce]
    exact h.frame_le

/-- Keyboards stay alike when both are released. -/
theorem Alike.releaseAll (h : Alike k keys l keys') :
    Alike k.releaseAll keys l.releaseAll keys' := by
  obtain ⟨htracks, hframe, hnone⟩ := h.tracks.releaseAll
  obtain ⟨htracks', hframe', hnone'⟩ := h.tracks'.releaseAll
  refine ⟨htracks, htracks', ?_, iff_of_false hnone hnone', ?_⟩
  · obtain ⟨debounce, timers, hk⟩ := h.tracks.releaseAll_eq
    obtain ⟨debounce', timers', hl⟩ := h.tracks'.releaseAll_eq
    rw [hk, hl]
    exact ⟨h.same.active, h.same.pressed, h.same.first, fun _ => rfl, h.same.pauseHeld⟩
  · rw [hframe, hframe']
    exact h.frame_le

/-- What one of them can do the other one can do too, and they stay alike. -/
theorem Alike.apply (h : Alike k keys l keys') {op : Op} (happly : k.apply op = .ok k') :
    ∃ l', l.apply op = .ok l' ∧ Alike k' (op.keysAfter keys) l' (op.keysAfter keys') := by
  cases op with
  | update raw =>
    cases happly
    exact ⟨_, rfl, h.update raw⟩
  | block a =>
    cases happly
    exact ⟨_, rfl, h.withBlocked fun b => by simp only [ActionSet.has_insert, h.same.blocked]⟩
  | unblock a =>
    cases happly
    exact ⟨_, rfl, h.withBlocked fun b => by simp only [ActionSet.has_erase, h.same.blocked]⟩
  | unblockAll =>
    cases happly
    exact ⟨_, rfl, h.withBlocked fun _ => rfl⟩
  | clearDebounce a =>
    cases happly
    exact ⟨_, rfl, h.clearDebounce a⟩
  | releaseAll =>
    cases happly
    exact ⟨_, rfl, h.releaseAll⟩
  | debounce a delay =>
    have hframe := h.frame_le
    obtain ⟨hfits, hk⟩ := debounceKey_eq_ok_iff.1 happly
    obtain ⟨l', hset⟩ : ∃ l', l.debounceKey a delay = .ok l' :=
      ⟨_, debounceKey_eq_ok_iff.2 ⟨by omega, rfl⟩⟩
    obtain ⟨-, hl⟩ := debounceKey_eq_ok_iff.1 hset
    refine ⟨l', hset, h.tracks.debounceKey happly, h.tracks'.debounceKey hset, ?_,
      fun {b frames} => ?_, ?_⟩
    · subst hk hl
      refine ⟨h.same.active, h.same.pressed, h.same.first, fun b => ?_, h.same.pauseHeld⟩
      simp only [block, ActionSet.has_insert, h.same.blocked]
    · exact (h.tracks.pends_debounceKey happly).trans
        ((or_congr_left h.pends_iff).trans (h.tracks'.pends_debounceKey hset).symm)
    · subst hk hl
      exact hframe

/-- Operations that one of two keyboards that are alike carries out the other one carries out as
well, and they stay alike. -/
theorem Alike.run (h : Alike k keys l keys') {ops : List Op} (hrun : k.run ops = .ok k') :
    ∃ l', l.run ops = .ok l' ∧ Alike k' (keys ++ debounced ops) l' (keys' ++ debounced ops) := by
  induction ops generalizing k keys l keys' with
  | nil =>
    cases hrun
    refine ⟨l, rfl, ?_⟩
    rwa [debounced, List.filterMap_nil, List.append_nil, List.append_nil]
  | cons op rest ih =>
    obtain ⟨next, hop, hrest⟩ := bind_eq_ok_iff.1 hrun
    obtain ⟨next', hop', hnext⟩ := h.apply hop
    obtain ⟨l', hrest', hlast⟩ := ih hnext hrest
    rw [keysAfter_append_debounced, keysAfter_append_debounced] at hlast
    exact ⟨l', bind_eq_ok_iff.2 ⟨next', hop', hrest'⟩, hlast⟩

/-- With nothing pending, a keyboard goes on as one that never had a timer. -/
theorem Tracks.run_of_not_pends (h : k.Tracks keys) (hnone : ∀ {a frames}, ¬ k.Pends keys a frames)
    {ops : List Op} (hrun : k.run ops = .ok k') :
    ∃ l', { k with debounce := .empty }.run ops = .ok l' ∧ k'.SameKeys l' := by
  have hempty : ∀ a : Action, k.timers[a]? = none := by
    intro a
    have hcontains : ¬ k.timers.contains a = true := by
      rw [h.contains_timers_iff]
      exact fun ⟨frames, hpends⟩ => hnone hpends
    exact Std.ExtTreeMap.getElem?_eq_none (mt Std.ExtTreeMap.contains_iff_mem.2 hcontains)
  have hfresh : Tracks { k with debounce := .empty } [] := ⟨TimerQueue.delivers_empty, hempty⟩
  have hnone' : ∀ {a frames}, ¬ Pends { k with debounce := .empty } [] a frames := by
    rintro a frames ⟨id, hkey, -⟩
    cases hkey
  have halike : Alike k keys { k with debounce := .empty } [] :=
    ⟨h, hfresh, ⟨fun _ => rfl, fun _ => rfl, fun _ => rfl, fun _ => rfl, rfl⟩,
      iff_of_false hnone hnone', Nat.zero_le _⟩
  obtain ⟨l', hrun', hlast⟩ := halike.run hrun
  exact ⟨l', hrun', hlast.same⟩

/-! ## Any operations -/

/-- What the table of the timers shows after operations, and what lifts a block from then on. -/
structure DebounceKept (ops : List Op) (k : Keyboard) : Prop where
  /-- A timer gets the number of its operation among those that debounce a key. -/
  nextId_eq : k.debounce.nextId = (debounced ops).length
  /-- The table lists the pending timers of every key that has some. -/
  timers_eq : ∀ a, k.timers[a]? = listed? (k.pendingTimers (debounced ops) a)
  /-- Every operation can follow, if the due frame of the timer that it sets can be expressed. -/
  apply_iff : ∀ op, (∃ k', k.apply op = .ok k') ↔
    ∀ a delay, op = .debounce a delay → k.debounce.frame + max delay 1 < timerCapacity
  /-- A block that is set while no timer is pending for the key stays until the key is unblocked,
  debounced or cleared. -/
  block_stays : ∀ {a later k'}, k.pendingTimers (debounced ops) a = [] →
    (∀ op ∈ later, ¬ op.Frees a) → (k.block a).run later = .ok k' → k'.blocked.has a = true
  /-- When all is released nothing is blocked, and no timer is pending. -/
  blocked_releaseAll : k.releaseAll.blocked = .empty
  isPending_releaseAll : ∀ id, k.releaseAll.debounce.isPending id = false
  /-- All that follows is as if no timer had been set before. -/
  run_releaseAll : ∀ {later k'}, k.releaseAll.run later = .ok k' →
    ∃ l', { k.releaseAll with debounce := .empty }.run later = .ok l' ∧ k'.SameKeys l'

/-- After any operations the table has the timers that are pending, a block without a timer stays,
and what was released is forgotten. -/
theorem debounceKept_run {ops : List Op} (hrun : idle.run ops = .ok k) : DebounceKept ops k := by
  have htracks : k.Tracks (debounced ops) := tracks_idle.run hrun
  obtain ⟨hreleased, -, hnone⟩ := htracks.releaseAll
  refine ⟨htracks.delivers.nextId_eq, htracks.timers_eq, fun op => ?_, ?_, ?_, fun id => ?_, ?_⟩
  · cases op with
    | debounce a delay =>
      constructor
      · rintro ⟨k', hset⟩ b later heq
        cases heq
        exact (debounceKey_eq_ok_iff.1 hset).1
      · exact fun hfits => ⟨_, debounceKey_eq_ok_iff.2 ⟨hfits a delay rfl, rfl⟩⟩
    | _ => exact ⟨fun _ => nofun, fun _ => ⟨_, rfl⟩⟩
  · intro a later k' hpending hlater hrun
    have hblock : (k.block a).Tracks (debounced ops) := ⟨htracks.delivers, htracks.timers_eq⟩
    refine Plain.run ⟨?_, fun frames hpends => ?_⟩ hblock hlater hrun
    · simp only [block, ActionSet.has_insert, decide_true, Bool.or_true]
    · exact htracks.pendingTimers_eq_nil_iff.1 hpending frames hpends
  · obtain ⟨debounce, timers, hall⟩ := htracks.releaseAll_eq
    rw [hall]
  · rw [TimerQueue.isPending_eq_isSome]
    cases hdue : k.releaseAll.debounce.dueById[id]? with
    | none => rfl
    | some due =>
      have hkey := List.getElem?_eq_getElem (hreleased.delivers.lt_length hdue)
      exact absurd (hreleased.pends_of_dueById hkey hdue) hnone
  · exact fun hrun => hreleased.run_of_not_pends hnone hrun

end

/-- Three timers, two of them for one key. The first one fires on the second frame. -/
def overlapping : List Op :=
  [.update (.ofList [.fire]), .debounce .fire 1, .debounce .fire 3, .debounce .up 2,
    .update (.ofList [.fire])]

/-- The other two are in the table then. -/
theorem debounceKept_overlapping : ∃ k, idle.run overlapping = .ok k ∧
    (k.timers.toList, k.blocked.toList) = ([(.up, [2]), (.fire, [1])], [.up]) ∧
    DebounceKept overlapping k := by
  have hrun : (idle.run overlapping).toOption.map (fun k => (k.timers.toList, k.blocked.toList)) =
      some ([(.up, [2]), (.fire, [1])], [.up]) := by
    decide +kernel
  obtain ⟨k, hrun, htable⟩ := toOption_map_eq_some_iff.1 hrun
  exact ⟨k, hrun, htable, debounceKept_run hrun⟩

end Keyboard

end Barrage
