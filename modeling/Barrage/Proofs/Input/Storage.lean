import Barrage.Format.Recording
import Barrage.Proofs.Input.Recording
import Barrage.Number.Binary64

/-!
# A recording that is stored and continued

With a recording are stored its seed, its last frame and its changes, and they are read as they were
written. The keys that count as held are not among them, and none are held after reading
(`Recording.ofJson?_toJson`).

So the first keys after reading are compared with none. Pressed keys are always a change, and from
there on the recording goes on as if it had never been stored (`Recording.Tells.change`). But when
keys were held, the frames on which they are let go of are no change, and until other keys are
pressed they are played back with the keys that were held (`Recording.belated`). What is played back
differs from what was recorded exactly then (`Recording.frames_stored`).
-/

namespace Barrage

variable {K : Type}

/-! ## Reading what was written -/

/-- Keys are written with sixteen bits. -/
theorem ActionSet.toNat_lt (s : ActionSet) : s.toNat < 0x10000 := s.bits.isLt

/-- Keys are read from the number that they were written as. -/
@[simp] theorem ActionSet.ofNat_toNat (s : ActionSet) : ofNat s.toNat = s := by
  rw [ofNat, toNat, BitVec.ofNat_toNat, BitVec.setWidth_eq]

/-- Held keys are read as they were written. -/
theorem ActionSet.ofJson?_toJson (s : ActionSet) : ofJson? (s.toJson : Json K) = some s := by
  rw [ofJson?, toJson, Json.record?, Option.bind_some, Json.Fields.required_cons_self,
    Json.nat?_ofNat s.toNat_lt, Option.map_some, ofNat_toNat]

/-- A change is read as it was written, if its frame fits. -/
theorem Change.ofJson?_toJson (c : Change) (h : c.frame < 0x100000000) :
    ofJson? (c.toJson : Json K) = some c := by
  have hframe : Json.nat32? (.ofNat c.frame : Json K) = some c.frame := Json.nat?_ofNat h
  rw [ofJson?, toJson, Json.record?, Option.bind_eq_bind, Option.bind_some]
  simp (disch := decide) only [Json.Fields.required_cons_self, Json.Fields.required_cons_of_ne,
    hframe, ActionSet.ofJson?_toJson, Option.bind_eq_bind, Option.bind_some]
  rfl

namespace Recording

/-- What a recording is read as after it was stored. -/
def stored (r : Recording) : Recording := { r with last := .empty }

/-- A recording is read as it was written, but for the keys that count as held. -/
theorem ofJson?_toJson (r : Recording) (hseed : r.seed < 0x10000000000000000)
    (hend : r.endFrame < 0x100000000) (hchanges : ∀ c ∈ r.changes, c.frame < 0x100000000) :
    ofJson? (r.toJson : Json K) = some r.stored := by
  have hseed : Json.nat64? (.ofNat r.seed : Json K) = some r.seed := Json.nat?_ofNat hseed
  have hend : Json.nat32? (.ofNat r.endFrame : Json K) = some r.endFrame := Json.nat?_ofNat hend
  have hchanges : Json.list? Change.ofJson? (.ofList Change.toJson r.changes : Json K) =
      some r.changes :=
    Json.list?_ofList fun c hc => c.ofJson?_toJson (hchanges c hc)
  rw [ofJson?, toJson, Json.record?, Option.bind_eq_bind, Option.bind_some]
  simp (disch := decide) only [Json.Fields.required_cons_self, Json.Fields.required_cons_of_ne,
    hseed, hend, hchanges, Option.bind_eq_bind, Option.bind_some]
  rfl

/-! ## Recording on -/

/-- What is played back of the frames after a recording was stored: keys that are let go of count as
held until others are pressed. -/
def belated (held : ActionSet) : List ActionSet → List ActionSet
  | [] => []
  | input :: rest => if input = .empty then held :: belated held rest else input :: rest

/-- If no keys count as held, inputs are played back as they are. -/
theorem belated_empty (inputs : List ActionSet) : belated .empty inputs = inputs := by
  induction inputs with
  | nil => rfl
  | cons input rest ih =>
    rw [belated, ih]
    split
    · next h => rw [h]
    · rfl

/-- Only frames with no keys at all, after others, come to be played back with other keys. -/
theorem belated_eq_self_iff {held : ActionSet} {inputs : List ActionSet} :
    belated held inputs = inputs ↔ held = .empty ∨ inputs.head? ≠ some .empty := by
  constructor
  · intro h
    cases inputs with
    | nil => exact Or.inr (by simp)
    | cons input rest =>
      by_cases hinput : input = .empty
      · rw [belated, if_pos hinput, List.cons.injEq] at h
        exact Or.inl (h.1.trans hinput)
      · exact Or.inr (by simpa using hinput)
  · rintro (rfl | hne)
    · exact belated_empty inputs
    · cases inputs with
      | nil => rfl
      | cons input rest => exact if_neg (by simpa using hne)

/-- Once a recording was stored, a frame without keys is recorded as one with the keys that were
held last. -/
theorem record_stored_empty {r : Recording} (h : r.changes ≠ []) (frame : Nat) :
    r.stored.record frame .empty = (r.record frame r.last).stored := by
  simp [record, stored, h]

/-- Once a recording was stored, a frame with keys is recorded as a change, whatever was held last.
-/
theorem record_stored_of_ne (r : Recording) (frame : Nat) {input : ActionSet}
    (h : input ≠ .empty) : r.stored.record frame input =
      { r with endFrame := frame, changes := r.changes ++ [⟨frame, input⟩], last := input } := by
  simp [record, stored, h]

namespace Tells

variable {r : Recording} {before : List ActionSet}

/-- The keys that count as held are those of the last input. -/
theorem last_framed (h : r.Tells (framed 0 before)) : r.last = before.getLast?.getD .empty := by
  have hinputs : (framed 0 before).map Change.input = before := by
    rw [framed, List.map_map]
    exact List.zipIdx_map_fst 0 before
  rw [h.last_eq_call, ← List.getLast?_map, hinputs]

/-- A recording that goes on after it was stored is played back as if the belated keys had been
recorded. -/
theorem frames_recordAll_stored (h : r.Tells (framed 0 before)) (after : List ActionSet) :
    (r.stored.recordAll (framed before.length after)).frames =
      (before ++ belated r.last after).zipIdx.map Prod.swap := by
  by_cases hchanges : r.changes = []
  · -- nothing was held, and nothing is lost
    have hlast : r.last = .empty := by
      rw [h.last_eq, hchanges]
      rfl
    have hstored : r.stored = r := by
      rw [stored, ← hlast]
    rw [hstored, hlast, belated_empty]
    exact (h.recordAll_framed after).frames_framed
  induction after generalizing r before with
  | nil =>
    rw [belated, List.append_nil]
    exact h.frames_framed
  | cons input rest ih =>
    have hend : r.endFrame ≤ before.length := h.endFrame_framed ▸ Nat.sub_le _ _
    rw [framed_cons, recordAll_cons, belated]
    split
    · next hinput =>
      -- the keys still count as held, and the recording is as if they were
      have hstay : r.record before.length r.last = { r with endFrame := before.length } := by
        simp [Recording.record, hchanges]
      have hnext : (r.record before.length r.last).Tells (framed 0 (before ++ [r.last])) := by
        rw [framed_concat]
        exact h.record (c := ⟨before.length, r.last⟩) hend
      rw [hstay] at hnext
      have := ih hnext hchanges
      rw [List.length_append, List.length_singleton] at this
      rw [hinput, record_stored_empty hchanges, hstay, this, List.append_assoc,
        List.singleton_append]
    · next hinput =>
      have hnext := h.change (c := ⟨before.length, input⟩) hend
      rw [← framed_concat] at hnext
      have := (hnext.recordAll_framed rest).frames_framed
      rw [List.length_append, List.length_singleton, List.append_assoc,
        List.singleton_append] at this
      rw [record_stored_of_ne r _ hinput, this]

end Tells

/-- What a recording that was stored and continued is played back as, and when that is what a
recording without the interruption is played back as: when no keys were held before, or some are
pressed at once. -/
theorem frames_stored {seed : Nat} (hseed : seed < 0x10000000000000000)
    {before : List ActionSet} (hbefore : before.length ≤ 0x100000000) (after : List ActionSet) :
    ∃ r, ofJson? ((ofInputs seed before).toJson : Json K) = some r ∧
      (r.recordAll (framed before.length after)).frames =
        (before ++ belated (before.getLast?.getD .empty) after).zipIdx.map Prod.swap ∧
      ((r.recordAll (framed before.length after)).frames =
          (ofInputs seed (before ++ after)).frames ↔
        before.getLast?.getD .empty = .empty ∨ after.head? ≠ some .empty) := by
  have h := tells_ofInputs seed before
  have hframes := h.frames_recordAll_stored after
  rw [h.last_framed] at hframes
  refine ⟨(ofInputs seed before).stored, ofJson?_toJson _ ?_ ?_ ?_, hframes, ?_⟩
  · rwa [seed_ofInputs]
  · rw [h.endFrame_framed]
    omega
  · intro c hc
    have := h.change_frame_le c hc
    rw [h.endFrame_framed] at this
    omega
  · rw [hframes, frames_ofInputs, ← belated_eq_self_iff]
    constructor
    · intro heq
      have hinputs := congrArg (List.map Prod.snd) heq
      rw [List.map_map, List.map_map] at hinputs
      have hfst : (Prod.snd ∘ Prod.swap : ActionSet × Nat → ActionSet) = Prod.fst := rfl
      rw [hfst, List.zipIdx_map_fst, List.zipIdx_map_fst] at hinputs
      exact List.append_cancel_left hinputs
    · intro heq
      rw [heq]

/-- The fire key is let go of right after the recording was stored, and the slow key is pressed one
frame later. -/
theorem frames_stored_released :
    (1 < 0x10000000000000000 ∧ [ActionSet.single .fire].length ≤ 0x100000000) ∧
      ∃ r, ofJson? ((ofInputs 1 [.single .fire]).toJson : Json Binary64) = some r ∧
        (r.recordAll (framed 1 [.empty, .single .slow])).frames =
          [(0, .single .fire), (1, .single .fire), (2, .single .slow)] := by
  refine ⟨by decide, ?_⟩
  have hseed : 1 < 0x10000000000000000 := by decide
  have hbefore : [ActionSet.single .fire].length ≤ 0x100000000 := by decide
  obtain ⟨r, hr, hframes, -⟩ := frames_stored (K := Binary64) hseed hbefore [.empty, .single .slow]
  exact ⟨r, hr, hframes.trans (by decide)⟩

/-- The frame on which the fire key is let go of is not told of any more. -/
theorem frames_stored_ne :
    ∃ r, ofJson? ((ofInputs 1 [.single .fire]).toJson : Json Binary64) = some r ∧
      (r.recordAll (framed 1 [.empty])).frames = [(0, .single .fire), (1, .single .fire)] ∧
      (ofInputs 1 ([.single .fire] ++ [.empty])).frames = [(0, .single .fire), (1, .empty)] :=
  ⟨(ofInputs 1 [.single .fire]).stored, ofJson?_toJson _ (by decide) (by decide) (by decide),
    by decide, by decide⟩

end Recording

end Barrage
