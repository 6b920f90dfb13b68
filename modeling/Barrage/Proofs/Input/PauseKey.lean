import Barrage.Proofs.Input.Delay

/-!
# When the pause key is active

The pause key is active on a frame on which it is held and not blocked, when one of the two was
different on the last frame. So it is active when it goes down, and while it is held it is active
again on each frame on which a block of it ends (`pauseLaw_run`). A block ends by an operation
between the frames that no other one follows which sets it again (`LastUpdate.has_blocked_iff`), or
by a timer that fires on the frame.
-/

namespace Barrage

namespace Keyboard

/-- A key was blocked on the last frame. -/
def WasBlocked (ops : List Op) (a : Action) : Prop :=
  ∃ raw k, LastUpdate ops raw k ∧ k.blocked.has a = true

/-- After the last frame the block of a key was lifted, and was not set again. -/
def LiftedSince (ops : List Op) (a : Action) : Prop :=
  ∃ first op rest, ops = first ++ op :: rest ∧ op.Lifts a ∧
    ∀ later ∈ rest, ¬ later.Blocks a ∧ later.isFrame = false

section
variable {k l l' : Keyboard} {a : Action} {ops : List Op} {op : Op} {raw raw' : ActionSet}

/-- There is only one last frame. -/
theorem lastUpdate_unique (h : LastUpdate ops raw l) (h' : LastUpdate ops raw' l') :
    raw = raw' ∧ l = l' := by
  induction ops using List.reverseRecOn with
  | nil =>
    obtain ⟨first, rest, hops, -⟩ := h
    simp at hops
  | append_singleton init op ih =>
    rcases lastUpdate_concat_iff.1 h with ⟨rfl, hrun⟩ | ⟨hop, h⟩
    · rcases lastUpdate_concat_iff.1 h' with ⟨hop, hrun'⟩ | ⟨hop, -⟩
      · cases hop
        exact ⟨rfl, Except.ok.inj (hrun.symm.trans hrun')⟩
      · exact absurd rfl (hop raw)
    · rcases lastUpdate_concat_iff.1 h' with ⟨rfl, -⟩ | ⟨-, h'⟩
      · exact absurd rfl (hop raw')
      · exact ih h h'

/-- A block was lifted by the last operation, or before it and the last operation neither blocks the
key nor is a frame. -/
theorem liftedSince_concat_iff : LiftedSince (ops ++ [op]) a ↔
    op.Lifts a ∨ (LiftedSince ops a ∧ ¬ op.Blocks a ∧ op.isFrame = false) := by
  constructor
  · rintro ⟨first, lift, rest, hops, hlift, hrest⟩
    rcases concat_eq_append_cons_iff.1 hops with ⟨-, rfl, -⟩ | ⟨rest', hinit, rfl⟩
    · exact .inl hlift
    · exact .inr ⟨⟨first, lift, rest', hinit, hlift, fun later hlater =>
        hrest later (by simp [hlater])⟩, hrest op (by simp)⟩
  · rintro (hlift | ⟨⟨first, lift, rest, rfl, hlift, hrest⟩, hop⟩)
    · exact ⟨ops, op, [], rfl, hlift, nofun⟩
    · refine ⟨first, lift, rest ++ [op], by simp, hlift, fun later hlater => ?_⟩
      rcases List.mem_append.1 hlater with hlater | hlater
      · exact hrest later hlater
      · exact List.mem_singleton.1 hlater ▸ hop

/-- A block of the last frame is there until it is lifted. -/
theorem LastUpdate.has_blocked_iff (h : LastUpdate ops raw l) (hblocked : l.blocked.has a = true)
    (hrun : idle.run ops = .ok k) : k.blocked.has a = true ↔ ¬ LiftedSince ops a := by
  induction ops using List.reverseRecOn generalizing k with
  | nil =>
    obtain ⟨first, rest, hops, -⟩ := h
    simp at hops
  | append_singleton init op ih =>
    rw [liftedSince_concat_iff]
    rcases lastUpdate_concat_iff.1 h with ⟨rfl, hlast⟩ | ⟨hop, h⟩
    · obtain rfl : k = l := Except.ok.inj (hrun.symm.trans hlast)
      simp [hblocked, Op.Lifts, Op.isFrame]
    · obtain ⟨m, hinit, happly⟩ := run_concat_eq_ok_iff.1 hrun
      have hframe : op.isFrame = false := by
        rw [← Bool.not_eq_true, Op.isFrame_iff]
        rintro ⟨raw', heq⟩
        exact hop raw' heq
      have hexclusive : op.Blocks a → ¬ op.Lifts a := by
        cases op <;> simp [Op.Blocks, Op.Lifts]
      rw [(tracks_idle.run hinit).has_blocked_apply hframe happly, ih h hinit]
      tauto

/-! ## The law of the pause key -/

/-- When the pause key is active on a frame that follows some operations. -/
structure PauseLaw (ops : List Op) (k : Keyboard) (raw : ActionSet) : Prop where
  /-- If no block of the key ends, it is active only when it goes down. -/
  goes_down : (WasBlocked ops .pause →
      ¬ LiftedSince ops .pause ∧ ¬ k.Pends (debounced ops) .pause 1) →
    (k.update raw).active.has .pause = true → raw.has .pause = true ∧ ¬ WasHeld ops .pause
  /-- When it was not held on the last frame it is active if it is held now and not blocked. -/
  of_not_held : ¬ WasHeld ops .pause → ((k.update raw).active.has .pause = true ↔
    raw.has .pause = true ∧ (k.update raw).blocked.has .pause = false)
  /-- When it was held on the last frame it is active if it is held on and a block of it ends. -/
  of_held : WasHeld ops .pause → ((k.update raw).active.has .pause = true ↔
    raw.has .pause = true ∧ WasBlocked ops .pause ∧
      (LiftedSince ops .pause ∨ k.Pends (debounced ops) .pause 1))

/-- After any operations the pause key follows the law. -/
theorem pauseLaw_run (hrun : idle.run ops = .ok k) (raw : ActionSet) : PauseLaw ops k raw := by
  have hlaw := updateLaw_run hrun raw
  have hheld : WasHeld ops .pause → ((k.update raw).active.has .pause = true ↔
      raw.has .pause = true ∧ WasBlocked ops .pause ∧
        (LiftedSince ops .pause ∨ k.Pends (debounced ops) .pause 1)) := by
    rintro ⟨last, l, hlast, hwasHeld⟩
    have hfree : ¬ WasFree ops .pause ↔ l.blocked.has .pause = true := by
      rw [← Bool.not_eq_false, not_iff_not]
      constructor
      · rintro ⟨last', l', hlast', -, hnot⟩
        exact (lastUpdate_unique hlast hlast').2 ▸ hnot
      · exact fun hnot => ⟨last, l, hlast, hwasHeld, hnot⟩
    have hwas : WasBlocked ops .pause ↔ l.blocked.has .pause = true := by
      constructor
      · rintro ⟨last', l', hlast', hblocked⟩
        exact (lastUpdate_unique hlast hlast').2 ▸ hblocked
      · exact fun hblocked => ⟨last, l, hlast, hblocked⟩
    rw [hlaw.has_active_pause, hfree, hwas, and_assoc, and_comm (a := _ = false)]
    refine and_congr_right fun hraw => and_congr_right fun hblocked => ?_
    rw [← Bool.not_eq_true, hlaw.has_blocked, hlast.has_blocked_iff hblocked hrun, hraw]
    simp only [Bool.true_eq_false, and_false, false_and, not_false_eq_true, and_true]
    tauto
  refine ⟨fun hends hactive => ?_, fun hnot => ?_, hheld⟩
  · refine ⟨(hlaw.has_active_pause.1 hactive).1.1, fun hwasHeld => ?_⟩
    obtain ⟨-, hblocked, hended⟩ := (hheld hwasHeld).1 hactive
    obtain ⟨hlifted, hpends⟩ := hends hblocked
    exact hended.elim hlifted hpends
  · have hfree : ¬ WasFree ops .pause := by
      rintro ⟨last, l, hlast, hwasHeld, -⟩
      exact hnot ⟨last, l, hlast, hwasHeld⟩
    rw [hlaw.has_active_pause, and_iff_left hfree]

end

/-- The pause key is held, and debounced for two frames. -/
def heldPause : List Op :=
  [.update (.single .pause), .debounce .pause 2, .update (.single .pause)]

/-- It is held on when the timer fires, and is active again. -/
theorem pauseLaw_heldPause : ∃ k, idle.run heldPause = .ok k ∧
    (k.active.toList, (k.update (.single .pause)).active.toList) = ([], [.pause]) ∧
    PauseLaw heldPause k (.single .pause) := by
  have hrun : (idle.run heldPause).toOption.map (fun k =>
      (k.active.toList, (k.update (.single .pause)).active.toList)) = some ([], [.pause]) := by
    decide +kernel
  obtain ⟨k, hrun, hactive⟩ := toOption_map_eq_some_iff.1 hrun
  exact ⟨k, hrun, hactive, pauseLaw_run hrun _⟩

/-- A pause key that goes down while it is blocked, and is unblocked while it is held, is active
without going down. -/
theorem pause_active_unblocked :
    (idle.run [.block .pause, .update (.single .pause), .unblock .pause]).toOption.map
      (fun k => (k.pressed.toList, (k.update (.single .pause)).active.toList)) =
        some ([.pause], [.pause]) := by
  decide +kernel

end Keyboard

end Barrage
