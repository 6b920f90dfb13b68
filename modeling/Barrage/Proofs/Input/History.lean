import Mathlib.Data.List.Induction
import Barrage.Proofs.Input.Debounce

/-!
# What a frame tells of the keys

A frame knows two things of the frame before it: which keys were held, and whether the pause key
was held and not blocked. Operations in between change neither (`recalls_run`). So whatever
was done before, what is active, held, pressed for the first time and blocked after a frame follows
from the keys that are held, from the frame before it, and from the timers that are pending
(`updateLaw_run`).
-/

namespace Barrage

/-- What a set says of the actions determines all of it but the bits of no action. -/
theorem ActionSet.restrict_congr {s t : ActionSet} (h : ∀ a, s.has a = t.has a) :
    s.restrict = t.restrict := by
  have hactions : ∀ i : Fin 16, known.getLsbD i = true → i.val ∈ Action.all.map Action.index := by
    decide
  refine congrArg ActionSet.mk (BitVec.eq_of_getLsbD_eq fun i hi => ?_)
  rw [BitVec.getLsbD_and, BitVec.getLsbD_and]
  cases hbit : known.getLsbD i with
  | true =>
    obtain ⟨a, -, rfl⟩ := List.mem_map.1 (hactions ⟨i, hi⟩ hbit)
    exact congrArg (· && true) (h a)
  | false => rw [Bool.and_false, Bool.and_false]

namespace Keyboard

/-- The keys that were held on the last frame among operations, and the keyboard after it. -/
def LastUpdate (ops : List Op) (raw : ActionSet) (k : Keyboard) : Prop :=
  ∃ before after, ops = before ++ .update raw :: after ∧
    (∀ op ∈ after, ∀ raw', op ≠ .update raw') ∧ idle.run (before ++ [.update raw]) = .ok k

/-- A key was held on the last frame. -/
def WasHeld (ops : List Op) (a : Action) : Prop :=
  ∃ raw k, LastUpdate ops raw k ∧ raw.has a = true

/-- A key was held and not blocked on the last frame. -/
def WasFree (ops : List Op) (a : Action) : Prop :=
  ∃ raw k, LastUpdate ops raw k ∧ raw.has a = true ∧ k.blocked.has a = false

section
variable {k l : Keyboard} {ops : List Op} {raw raw' : ActionSet} {a : Action}

/-- The last operation comes behind the last frame, or is a frame itself. -/
theorem lastUpdate_concat_iff {op : Op} : LastUpdate (ops ++ [op]) raw k ↔
    (op = .update raw ∧ idle.run (ops ++ [op]) = .ok k) ∨
      (∀ raw', op ≠ .update raw') ∧ LastUpdate ops raw k := by
  constructor
  · rintro ⟨before, after, hops, hafter, hrun⟩
    rcases List.eq_nil_or_concat after with rfl | ⟨between, last, rfl⟩
    · obtain ⟨rfl, hop⟩ := List.append_inj' hops rfl
      obtain rfl : op = .update raw := List.singleton_inj.1 hop
      exact .inl ⟨rfl, hrun⟩
    · rw [List.concat_eq_append, ← List.cons_append, ← List.append_assoc] at hops
      obtain ⟨rfl, hop⟩ := List.append_inj' hops rfl
      obtain rfl : op = last := List.singleton_inj.1 hop
      refine .inr ⟨hafter op (by simp), before, between, rfl, fun later hlater => ?_, hrun⟩
      exact hafter later (by simp [hlater])
  · rintro (⟨rfl, hrun⟩ | ⟨hop, before, after, rfl, hafter, hrun⟩)
    · exact ⟨ops, [], rfl, nofun, hrun⟩
    · refine ⟨before, after ++ [op], by simp, fun later hlater => ?_, hrun⟩
      rcases List.mem_append.1 hlater with hlater | hlater
      · exact hafter later hlater
      · exact List.mem_singleton.1 hlater ▸ hop

/-- What a keyboard knows of the last frame. -/
structure Recalls (k : Keyboard) (ops : List Op) : Prop where
  pressed_iff : ∀ a, k.pressed.has a = true ↔ WasHeld ops a
  pauseHeld_iff : k.pauseHeld = true ↔ WasFree ops .pause

/-- An operation that is no frame changes nothing of this. -/
theorem Recalls.concat (h : k.Recalls ops) {op : Op} (hop : ∀ raw, op ≠ .update raw)
    (hpressed : l.pressed = k.pressed) (hpause : l.pauseHeld = k.pauseHeld) :
    l.Recalls (ops ++ [op]) := by
  have hlast : ∀ {raw m}, LastUpdate (ops ++ [op]) raw m ↔ LastUpdate ops raw m := by
    intro raw m
    rw [lastUpdate_concat_iff]
    simp [hop]
  refine ⟨fun a => ?_, ?_⟩
  · simp only [hpressed, h.pressed_iff, WasHeld, hlast]
  · simp only [hpause, h.pauseHeld_iff, WasFree, hlast]

/-- A keyboard knows of the last frame what the history says. -/
theorem recalls_run (hrun : idle.run ops = .ok k) : k.Recalls ops := by
  induction ops using List.reverseRecOn generalizing k with
  | nil =>
    cases hrun
    have hnone : ∀ {raw m}, ¬ LastUpdate [] raw m := by
      rintro raw m ⟨before, after, hops, -⟩
      simp at hops
    refine ⟨fun a => ?_, ?_⟩
    · simp [idle, WasHeld, hnone]
    · simp [idle, WasFree, hnone]
  | append_singleton before op ih =>
    obtain ⟨m, hbefore, hop⟩ := run_append_eq_ok_iff.1 hrun
    obtain ⟨next, hop, hend⟩ := bind_eq_ok_iff.1 hop
    cases hend
    have hm := ih hbefore
    have htracks := tracks_idle.run hbefore
    cases op with
    | update raw =>
      cases hop
      have hlast : ∀ {raw' l}, LastUpdate (before ++ [.update raw]) raw' l ↔
          raw = raw' ∧ m.update raw = l := by
        intro raw' l
        rw [lastUpdate_concat_iff, hrun]
        simp
      refine ⟨fun a => ?_, ?_⟩
      · rw [htracks.update_eq raw]
        simp [WasHeld, hlast]
      · rw [htracks.update_eq raw]
        simp [WasFree, hlast]
    | block | unblock | unblockAll | clearDebounce =>
      cases hop
      exact hm.concat nofun rfl rfl
    | debounce a delay =>
      obtain ⟨-, rfl⟩ := debounceKey_eq_ok_iff.1 hop
      exact hm.concat nofun rfl rfl
    | releaseAll =>
      cases hop
      obtain ⟨debounce, timers, hall⟩ := htracks.releaseAll_eq
      exact hm.concat nofun (by rw [hall]) (by rw [hall])

/-! ## The law of a frame -/

/-- What a frame with some keys held makes of a keyboard, after some operations. -/
structure UpdateLaw (ops : List Op) (k : Keyboard) (raw : ActionSet) : Prop where
  has_pressed : ∀ a, (k.update raw).pressed.has a = raw.has a
  /-- A key is pressed for the first time when it was not held on the last frame. -/
  has_first : ∀ a, (k.update raw).first.has a = true ↔ raw.has a = true ∧ ¬ WasHeld ops a
  /-- The keys whose timers run out on a frame are those that the queue delivers. -/
  pends_one_iff : ∀ a, k.Pends (debounced ops) a 1 ↔ a ∈ k.debounce.advance.1
  /-- A block stays unless a timer of the key runs out, or the key is let go while another one is
  pending. -/
  has_blocked : ∀ a, (k.update raw).blocked.has a = true ↔ k.blocked.has a = true ∧
    ¬ k.Pends (debounced ops) a 1 ∧ ¬ ((WasHeld ops a ∧ raw.has a = false) ∧
      ∃ frames, 1 < frames ∧ k.Pends (debounced ops) a frames)
  /-- A key is active when it is held and not blocked. -/
  has_active : ∀ a, a ≠ .pause → ((k.update raw).active.has a = true ↔
    raw.has a = true ∧ (k.update raw).blocked.has a = false)
  /-- The pause key is active only if this was different on the last frame. -/
  has_active_pause : (k.update raw).active.has .pause = true ↔
    (raw.has .pause = true ∧ (k.update raw).blocked.has .pause = false) ∧ ¬ WasFree ops .pause
  /-- Of the keys that are held only the nine actions count. -/
  update_congr : ∀ raw', (∀ a, raw'.has a = raw.has a) → k.update raw' = k.update raw

/-- After any operations a frame follows the law. -/
theorem updateLaw_run (hrun : idle.run ops = .ok k) (raw : ActionSet) : UpdateLaw ops k raw := by
  have htracks : k.Tracks (debounced ops) := tracks_idle.run hrun
  obtain ⟨hpressed, hpause⟩ := recalls_run hrun
  have heq := htracks.update_eq raw
  refine ⟨fun a => ?_, fun a => ?_, fun a => htracks.delivers.mem_advance_fst.symm, fun a => ?_,
    fun a hne => ?_, ?_, fun raw' hsame => ?_⟩
  · rw [heq]
    exact ActionSet.has_restrict raw a
  · rw [heq, ← hpressed]
    simp
  · rw [htracks.has_blocked_update, hpressed]
  · rw [heq]
    simp [ActionSet.has_set, Ne.symm hne]
  · rw [heq, ← hpause]
    simp [ActionSet.has_set]
  · have hrestrict := ActionSet.restrict_congr hsame
    simp only [update, letGo, press, hsame, hrestrict]

end

/-- Two timers for a key that is held. The first one fires on the next frame. -/
def twiceDebounced : List Op :=
  [.update (.ofList [.fire, .pause]), .debounce .fire 1, .debounce .fire 3, .block .pause]

/-- The key is let go on that frame, which drops the second timer. The pause key is held on. -/
theorem updateLaw_released : ∃ k, idle.run twiceDebounced = .ok k ∧
    (k.blocked.toList, (k.update (.ofList [.up, .pause])).blocked.toList,
      (k.update (.ofList [.up, .pause])).active.toList,
      (k.update (.ofList [.up, .pause])).debounce.dueById.toList) =
      ([.fire, .pause], [.pause], [.up], []) ∧
    UpdateLaw twiceDebounced k (.ofList [.up, .pause]) := by
  have hrun : (idle.run twiceDebounced).toOption.map (fun k => (k.blocked.toList,
      (k.update (.ofList [.up, .pause])).blocked.toList,
      (k.update (.ofList [.up, .pause])).active.toList,
      (k.update (.ofList [.up, .pause])).debounce.dueById.toList)) =
      some ([.fire, .pause], [.pause], [.up], []) := by
    decide +kernel
  obtain ⟨k, hrun, hkeys⟩ := toOption_map_eq_some_iff.1 hrun
  exact ⟨k, hrun, hkeys, updateLaw_run hrun _⟩

end Keyboard

end Barrage
