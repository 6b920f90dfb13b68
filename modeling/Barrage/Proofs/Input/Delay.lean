import Barrage.Proofs.Input.History

/-!
# How long a debounced key stays blocked

A block is one bit, whatever set it. Between two frames the last operation on the key decides
(`Tracks.has_blocked_apply`). While a key is neither let go nor cleared all its timers fire when
they are due (`Undisturbed.pends_iff`), and each of them takes the bit away, also when another one
of the key is pending for longer (`Undisturbed.has_blocked_iff`).

So a debounced key stays blocked for its delay when no other timer of the key falls due before, or
when the key is blocked again each time (`delayLaw_run`).
-/

namespace Barrage

namespace Keyboard

/-- Whether an operation blocks a key. -/
def Op.Blocks (a : Action) : Op → Prop
  | .block b | .debounce b _ => b = a
  | .update _ | .unblock _ | .unblockAll | .clearDebounce _ | .releaseAll => False

/-- Whether an operation lifts the block of a key. -/
def Op.Lifts (a : Action) : Op → Prop
  | .unblock b | .clearDebounce b => b = a
  | .unblockAll | .releaseAll => True
  | .update _ | .block _ | .debounce _ _ => False

/-- Whether an operation is a frame. -/
def Op.isFrame : Op → Bool
  | .update _ => true
  | _ => false

/-- The number of frames among operations. -/
def frameCount (ops : List Op) : Nat := ops.countP Op.isFrame

/-- Nothing but an update is a frame. -/
theorem Op.isFrame_iff {op : Op} : op.isFrame = true ↔ ∃ raw, op = .update raw := by
  cases op <;> simp [isFrame]

/-- The last operation counts as a frame if it is one. -/
theorem frameCount_concat (ops : List Op) (op : Op) :
    frameCount (ops ++ [op]) = frameCount ops + frameCount [op] := List.countP_append

/-- The keys that are debounced later stand behind the others. -/
theorem debounced_append (ops later : List Op) :
    debounced (ops ++ later) = debounced ops ++ debounced later := List.filterMap_append

/-- A place in a list with one member more is the last one, or a place in the list. -/
theorem concat_eq_append_cons_iff {α : Type} {xs first rest : List α} {x y : α} :
    xs ++ [x] = first ++ y :: rest ↔ (xs = first ∧ x = y ∧ rest = []) ∨
      ∃ rest', xs = first ++ y :: rest' ∧ rest = rest' ++ [x] := by
  constructor
  · intro h
    rcases List.eq_nil_or_concat rest with rfl | ⟨rest', last, rfl⟩
    · obtain ⟨hxs, hx⟩ := List.append_inj' h rfl
      exact .inl ⟨hxs, List.singleton_inj.1 hx, rfl⟩
    · rw [List.concat_eq_append, ← List.cons_append, ← List.append_assoc] at h
      obtain ⟨hxs, hx⟩ := List.append_inj' h rfl
      obtain rfl := List.singleton_inj.1 hx
      exact .inr ⟨rest', hxs, List.concat_eq_append⟩
  · rintro (⟨rfl, rfl, rfl⟩ | ⟨rest', rfl, rfl⟩)
    · rfl
    · rw [List.append_assoc, List.cons_append]

section
variable {k k' l : Keyboard} {keys : List Action} {a : Action} {before ops : List Op} {op : Op}
  {raw : ActionSet}

/-- A run ends with its last operation. -/
theorem run_concat_eq_ok_iff :
    k.run (ops ++ [op]) = .ok l ↔ ∃ m, k.run ops = .ok m ∧ m.apply op = .ok l := by
  rw [run_append_eq_ok_iff]
  refine exists_congr fun m => and_congr_right fun _ => ?_
  rw [run, bind_eq_ok_iff]
  constructor
  · rintro ⟨l', hop, hend⟩
    cases hend
    exact hop
  · exact fun hop => ⟨l, hop, rfl⟩

/-! ## Between two frames -/

/-- The last operation on a key says whether it is blocked. -/
theorem Tracks.has_blocked_apply (h : k.Tracks keys) (hop : op.isFrame = false)
    (happly : k.apply op = .ok k') : k'.blocked.has a = true ↔
      op.Blocks a ∨ (k.blocked.has a = true ∧ ¬ op.Lifts a) := by
  cases op with
  | update raw => cases hop
  | block b =>
    cases happly
    simp [block, Op.Blocks, Op.Lifts, or_comm]
  | debounce b delay =>
    obtain ⟨-, rfl⟩ := debounceKey_eq_ok_iff.1 happly
    simp [block, Op.Blocks, Op.Lifts, or_comm]
  | unblock b =>
    cases happly
    simp [unblock, Op.Blocks, Op.Lifts]
  | clearDebounce b =>
    cases happly
    simp [has_blocked_clearDebounce, Op.Blocks, Op.Lifts]
  | unblockAll =>
    cases happly
    simp [unblockAll, Op.Blocks, Op.Lifts]
  | releaseAll =>
    cases happly
    obtain ⟨debounce, timers, hall⟩ := h.releaseAll_eq
    simp [hall, Op.Blocks, Op.Lifts]

/-- An operation that leaves the block of a key leaves its timers, and may add one. -/
theorem Tracks.pends_apply (h : k.Tracks keys) (hop : op.isFrame = false)
    (hlifts : ¬ op.Lifts a) (happly : k.apply op = .ok k') {frames : Nat} :
    k'.Pends (op.keysAfter keys) a frames ↔ k.Pends keys a frames ∨
      ∃ delay, op = .debounce a delay ∧ max delay 1 = frames := by
  cases op with
  | update raw => cases hop
  | debounce b delay =>
    refine (h.pends_debounceKey happly).trans (or_congr Iff.rfl ?_)
    simp [and_comm, eq_comm]
  | clearDebounce b =>
    cases happly
    have hne : b ≠ a := hlifts
    refine h.pends_clearDebounce.trans ?_
    simp [hne]
  | block b | unblock b =>
    cases happly
    exact (or_iff_left (by simp)).symm
  | unblockAll => exact absurd trivial hlifts
  | releaseAll => exact absurd trivial hlifts

/-- What is blocked on a frame is not active. -/
theorem Tracks.not_active_update (h : k.Tracks keys)
    (hblocked : (k.update raw).blocked.has a = true) : (k.update raw).active.has a = false := by
  rw [h.update_eq raw]
  by_cases hpause : Action.pause = a
  · subst hpause
    simp [ActionSet.has_set, hblocked]
  · simp [ActionSet.has_set, hpause, hblocked]

/-! ## Without interruption -/

/-- After operations a timer of a key is pending for a number of frames: one that was pending
before, or one that they set. -/
def FallsDue (k : Keyboard) (keys : List Action) (a : Action) (ops : List Op) (frames : Nat) :
    Prop :=
  k.Pends keys a (frameCount ops + frames) ∨ ∃ first delay rest,
    ops = first ++ .debounce a delay :: rest ∧ max delay 1 = frameCount rest + frames

/-- A timer is still pending after one more operation, or has just been set. -/
theorem fallsDue_concat_iff {frames : Nat} : FallsDue k keys a (ops ++ [op]) frames ↔
    FallsDue k keys a ops (frameCount [op] + frames) ∨
      ∃ delay, op = .debounce a delay ∧ max delay 1 = frames := by
  simp only [FallsDue, frameCount_concat, Nat.add_assoc, or_assoc]
  refine or_congr Iff.rfl ⟨?_, ?_⟩
  · rintro ⟨first, delay, rest, hops, hdelay⟩
    rcases concat_eq_append_cons_iff.1 hops with ⟨-, hop, rfl⟩ | ⟨rest', hinit, rfl⟩
    · exact .inr ⟨delay, hop, hdelay.trans (Nat.zero_add frames)⟩
    · rw [frameCount_concat, Nat.add_assoc] at hdelay
      exact .inl ⟨first, delay, rest', hinit, hdelay⟩
  · rintro (⟨first, delay, rest, rfl, hdelay⟩ | ⟨delay, rfl, hdelay⟩)
    · refine ⟨first, delay, rest ++ [op], by simp, ?_⟩
      rw [frameCount_concat, Nat.add_assoc]
      exact hdelay
    · exact ⟨ops, delay, [], rfl, hdelay.trans (Nat.zero_add frames).symm⟩

/-- Each time that a timer of a key fires the key is blocked again by an operation after that. -/
def Reblocked (k : Keyboard) (keys : List Action) (a : Action) (ops : List Op) : Prop :=
  ∀ first raw rest, ops = first ++ .update raw :: rest → FallsDue k keys a first 1 →
    ∃ op ∈ rest, op.Blocks a

/-- Of the blocks since the timers fired only the last operation is new. -/
theorem reblocked_concat_iff : Reblocked k keys a (ops ++ [op]) ↔ op.Blocks a ∨
    (Reblocked k keys a ops ∧ (op.isFrame = true → ¬ FallsDue k keys a ops 1)) := by
  constructor
  · intro h
    by_cases hop : op.Blocks a
    · exact .inl hop
    refine .inr ⟨fun first raw rest hops hdue => ?_, fun hframe hdue => ?_⟩
    · obtain ⟨later, hlater, hblocks⟩ := h first raw (rest ++ [op]) (by simp [hops]) hdue
      rcases List.mem_append.1 hlater with hlater | hlater
      · exact ⟨later, hlater, hblocks⟩
      · exact absurd (List.mem_singleton.1 hlater ▸ hblocks) hop
    · cases op with
      | update raw =>
        obtain ⟨later, hlater, -⟩ := h ops raw [] rfl hdue
        cases hlater
      | _ => cases hframe
  · intro h first raw rest hops hdue
    rcases concat_eq_append_cons_iff.1 hops with ⟨rfl, rfl, rfl⟩ | ⟨rest', hinit, rfl⟩
    · rcases h with hblocks | ⟨-, hnot⟩
      · exact hblocks.elim
      · exact absurd hdue (hnot rfl)
    · rcases h with hblocks | ⟨h, -⟩
      · exact ⟨op, by simp, hblocks⟩
      · obtain ⟨later, hlater, hblocks⟩ := h first raw rest' hinit hdue
        exact ⟨later, by simp [hlater], hblocks⟩

/-- Among operations that follow others none lifts the block of a key, and on no frame the key is
let go. -/
structure Undisturbed (before : List Op) (a : Action) (ops : List Op) : Prop where
  not_lifts : ∀ op ∈ ops, ¬ op.Lifts a
  held : ∀ first raw rest, ops = first ++ .update raw :: rest → WasHeld (before ++ first) a →
    raw.has a = true

/-- A key that was not disturbed was not disturbed before the last operation. -/
theorem Undisturbed.of_concat (h : Undisturbed before a (ops ++ [op])) :
    Undisturbed before a ops :=
  ⟨fun later hlater => h.not_lifts later (List.mem_append_left _ hlater),
    fun first raw rest hops => h.held first raw (rest ++ [op]) (by simp [hops])⟩

/-- A key that is held on every frame is not let go. -/
theorem Undisturbed.of_held (hlifts : ∀ op ∈ ops, ¬ op.Lifts a)
    (hheld : ∀ raw, .update raw ∈ ops → raw.has a = true) : Undisturbed before a ops :=
  ⟨hlifts, fun first raw rest hops _ => hheld raw (by simp [hops])⟩

/-- A key that is not disturbed is not let go on the last frame. -/
theorem Undisturbed.not_released (h : Undisturbed before a (ops ++ [.update raw]))
    (hrun : idle.run (before ++ ops) = .ok k) :
    ¬ (k.pressed.has a = true ∧ raw.has a = false) := by
  rintro ⟨hpressed, hraw⟩
  have hheld := h.held ops raw [] rfl (((recalls_run hrun).pressed_iff a).1 hpressed)
  rw [hheld] at hraw
  cases hraw

/-- The timers of a key that is not let go fire when they are due. -/
theorem Undisturbed.pends_iff (h : Undisturbed before a ops) (hbefore : idle.run before = .ok k)
    (hrun : k.run ops = .ok l) {frames : Nat} (hframes : 0 < frames) :
    l.Pends (debounced (before ++ ops)) a frames ↔
      FallsDue k (debounced before) a ops frames := by
  induction ops using List.reverseRecOn generalizing l frames with
  | nil =>
    cases hrun
    simp [FallsDue, frameCount]
  | append_singleton init op ih =>
    obtain ⟨m, hinit, hop⟩ := run_concat_eq_ok_iff.1 hrun
    have hwhole : idle.run (before ++ init) = .ok m :=
      run_append_eq_ok_iff.2 ⟨k, hbefore, hinit⟩
    have htracks : m.Tracks (debounced (before ++ init)) := tracks_idle.run hwhole
    have hkeys : debounced (before ++ (init ++ [op])) =
        op.keysAfter (debounced (before ++ init)) := by
      rw [← List.append_assoc, debounced_append, ← keysAfter_append_debounced]
      exact List.append_nil _
    rw [hkeys, fallsDue_concat_iff]
    cases hframe : op.isFrame with
    | true =>
      obtain ⟨raw, rfl⟩ := Op.isFrame_iff.1 hframe
      cases hop
      refine htracks.pends_update.trans ?_
      rw [and_iff_left ⟨hframes, h.not_released hwhole⟩,
        ih h.of_concat hinit (Nat.succ_pos frames), or_iff_left (by simp), Nat.add_comm]
      rfl
    | false =>
      have hcount : frameCount [op] = 0 := by simp [frameCount, hframe]
      rw [htracks.pends_apply hframe (h.not_lifts op (by simp)) hop,
        ih h.of_concat hinit hframes, hcount, Nat.zero_add]

/-- A blocked key stays blocked until a timer of it fires, whichever it is, and from then on until
it is blocked again. -/
theorem Undisturbed.has_blocked_iff (h : Undisturbed before a ops)
    (hbefore : idle.run before = .ok k) (hblocked : k.blocked.has a = true)
    (hrun : k.run ops = .ok l) :
    l.blocked.has a = true ↔ Reblocked k (debounced before) a ops := by
  induction ops using List.reverseRecOn generalizing l with
  | nil =>
    cases hrun
    refine iff_of_true hblocked fun first raw rest hops => ?_
    simp at hops
  | append_singleton init op ih =>
    obtain ⟨m, hinit, hop⟩ := run_concat_eq_ok_iff.1 hrun
    have hwhole : idle.run (before ++ init) = .ok m :=
      run_append_eq_ok_iff.2 ⟨k, hbefore, hinit⟩
    have htracks : m.Tracks (debounced (before ++ init)) := tracks_idle.run hwhole
    rw [reblocked_concat_iff, ← ih h.of_concat hinit]
    cases hframe : op.isFrame with
    | true =>
      obtain ⟨raw, rfl⟩ := Op.isFrame_iff.1 hframe
      cases hop
      rw [htracks.has_blocked_update, h.of_concat.pends_iff hbefore hinit Nat.one_pos]
      simp [h.not_released hwhole, Op.Blocks]
    | false =>
      rw [htracks.has_blocked_apply hframe hop]
      simp [h.not_lifts op (by simp)]

/-! ## The delay of a debounced key -/

/-- After a key was debounced its new timer falls due as well. -/
theorem fallsDue_debounceKey (h : k.Tracks keys) {delay frames : Nat}
    (hset : k.debounceKey a delay = .ok k') : FallsDue k' (keys ++ [a]) a ops frames ↔
      FallsDue k keys a ops frames ∨ frameCount ops + frames = max delay 1 := by
  rw [FallsDue, FallsDue, h.pends_debounceKey hset, and_iff_right rfl, or_right_comm]

/-- What is known of a key on a frame within the delay for which it was debounced. The operations
`before` lead to the keyboard before that, and `ops` from there to the frame. -/
structure DelayLaw (before : List Op) (k : Keyboard) (a : Action) (delay : Nat) (ops : List Op)
    (l : Keyboard) : Prop where
  /-- The delay is not over. -/
  pends : l.Pends (debounced (before ++ .debounce a delay :: ops)) a (delay - frameCount ops)
  /-- If no other timer of the key fires in the meantime, the key is blocked and not active. -/
  of_alone : (∀ first raw rest, ops = first ++ .update raw :: rest →
    ¬ FallsDue k (debounced before) a first 1) → l.blocked.has a = true ∧ l.active.has a = false
  /-- In general it is blocked when it was blocked again each time that another one fired. -/
  has_blocked : l.blocked.has a = true ↔ Reblocked k (debounced before) a ops
  not_active : l.blocked.has a = true → l.active.has a = false

/-- A debounced key that is neither let go nor cleared follows the law on each frame within its
delay. -/
theorem delayLaw_run {delay : Nat} (hbefore : idle.run before = .ok k)
    (hset : k.debounceKey a delay = .ok k') (hlast : ops.getLast? = some (.update raw))
    (hkept : Undisturbed (before ++ [.debounce a delay]) a ops) (hdelay : frameCount ops < delay)
    (hrun : k'.run ops = .ok l) : DelayLaw before k a delay ops l := by
  have htracks : k.Tracks (debounced before) := tracks_idle.run hbefore
  have hstart : idle.run (before ++ [.debounce a delay]) = .ok k' :=
    run_concat_eq_ok_iff.2 ⟨k, hbefore, hset⟩
  have hkeys : debounced (before ++ [.debounce a delay]) = debounced before ++ [a] :=
    debounced_append _ _
  have hstarted : k'.blocked.has a = true := by
    obtain ⟨-, rfl⟩ := debounceKey_eq_ok_iff.1 hset
    simp [block]
  -- on these frames the timer of the delay itself does not fire
  have hothers : ∀ first raw' rest, ops = first ++ .update raw' :: rest →
      (FallsDue k' (debounced before ++ [a]) a first 1 ↔
        FallsDue k (debounced before) a first 1) := by
    intro first raw' rest hops
    rw [fallsDue_debounceKey htracks hset, or_iff_left]
    rw [hops, frameCount, List.countP_append, List.countP_cons_of_pos rfl] at hdelay
    rw [frameCount]
    omega
  have hblocked : l.blocked.has a = true ↔ Reblocked k (debounced before) a ops := by
    rw [hkept.has_blocked_iff hstart hstarted hrun, hkeys]
    exact forall₄_congr fun first raw' rest hops => by rw [hothers first raw' rest hops]
  have hactive : l.blocked.has a = true → l.active.has a = false := by
    obtain ⟨later, rfl⟩ := List.getLast?_eq_some_iff.1 hlast
    obtain ⟨m, hlater, hop⟩ := run_concat_eq_ok_iff.1 hrun
    cases hop
    have hm := tracks_idle.run (run_append_eq_ok_iff.2 ⟨k', hstart, hlater⟩)
    exact hm.not_active_update
  refine ⟨?_, fun halone => ?_, hblocked, hactive⟩
  · have hpends := (hkept.pends_iff hstart hrun (Nat.sub_pos_of_lt hdelay)).2
    rw [List.append_assoc, List.singleton_append, hkeys, fallsDue_debounceKey htracks hset]
      at hpends
    exact hpends (.inr (by omega))
  · have halone := hblocked.2 fun first raw' rest hops hdue =>
      absurd hdue (halone first raw' rest hops)
    exact ⟨halone, hactive halone⟩

end

/-- A held key that is debounced for two frames. -/
def brief : List Op := [.update (.single .fire), .debounce .fire 2]

/-- It is held for two frames more. -/
def heldOn : List Op := [.update (.single .fire), .update (.single .fire)]

/-- When it is debounced for five frames in between, the first timer makes it active on the second
of the two. -/
theorem delayLaw_brief : ∃ k k' l, idle.run brief = .ok k ∧ k.debounceKey .fire 5 = .ok k' ∧
    (heldOn.getLast? = some (.update (.single .fire)) ∧
      Undisturbed (brief ++ [.debounce .fire 5]) .fire heldOn ∧ frameCount heldOn < 5) ∧
    k'.run heldOn = .ok l ∧ (l.blocked.toList, l.active.toList) = ([], [.fire]) ∧
    DelayLaw brief k .fire 5 heldOn l := by
  have hrun : (idle.run brief).toOption.bind (fun k => (k.debounceKey .fire 5).toOption.bind
      fun k' => (k'.run heldOn).toOption.map fun l => (l.blocked.toList, l.active.toList)) =
        some ([], [.fire]) := by
    decide +kernel
  obtain ⟨k, hk, hrun⟩ := toOption_bind_eq_some_iff.1 hrun
  obtain ⟨k', hset, hrun⟩ := toOption_bind_eq_some_iff.1 hrun
  obtain ⟨l, hl, hkeys⟩ := toOption_map_eq_some_iff.1 hrun
  have hkept : Undisturbed (brief ++ [.debounce .fire 5]) .fire heldOn := by
    refine .of_held ?_ fun raw hraw => ?_
    · simp [heldOn, Op.Lifts]
    · obtain rfl : raw = .single .fire := by simpa [heldOn] using hraw
      decide
  exact ⟨k, k', l, hk, hset, ⟨rfl, hkept, by decide⟩, hl, hkeys,
    delayLaw_run hk hset rfl hkept (by decide) hl⟩

/-- A key that is debounced for one frame and then for three is active on the first of them. -/
theorem debounced_active :
    (idle.run [.debounce .fire 1, .debounce .fire 3, .update (.single .fire)]).toOption.map
      (fun k => (k.blocked.toList, k.active.toList)) = some ([], [.fire]) := by
  decide +kernel

end Keyboard

end Barrage
