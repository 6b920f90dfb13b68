import Mathlib.Data.List.Induction
import Mathlib.Data.List.TakeWhile
import Barrage.Input.Recording

/-!
# A recording gives back what was recorded

A recording keeps the keys of a frame only if they differ from those of the frame before. Nothing is
lost by that: the frames of a recording are the frames that were recorded, from the first one on
(`Recording.frames_ofInputs`).

Playing back walks along the changes and drops those it has passed. Which keys it comes to on a
frame does not depend on the walk, but on the changes that are not after the frame
(`Recording.playFrom_eq_map`), and this is what a recording in progress can be compared with: on
every frame its changes give what all the calls give (`Recording.Tells`). A call adds a change or
repeats the keys that are held, and both keep this (`Recording.Tells.change`,
`Recording.Tells.stay`).
-/

namespace Barrage.Recording

/-- The keys held on a frame: those of the last change before the first one that is after the frame,
or `input` when there is no such change. -/
def inputAt (input : ActionSet) (changes : List Change) (frame : Nat) : ActionSet :=
  ((changes.takeWhile (·.frame ≤ frame)).getLast?.map Change.input).getD input

/-! ## Playing back -/

/-- Changes that are not after a frame are not after a later frame either. -/
theorem takeWhile_later (changes : List Change) {frame later : Nat} (h : frame ≤ later) :
    changes.takeWhile (·.frame ≤ later) =
      changes.takeWhile (·.frame ≤ frame) ++
        (changes.drop (changes.takeWhile (·.frame ≤ frame)).length).takeWhile
          (·.frame ≤ later) := by
  induction changes with
  | nil => rfl
  | cons c rest ih =>
    by_cases hc : c.frame ≤ frame
    · have hstep : ∀ {t}, c.frame ≤ t →
          (c :: rest).takeWhile (·.frame ≤ t) = c :: rest.takeWhile (·.frame ≤ t) :=
        fun ht => List.takeWhile_cons_of_pos (decide_eq_true ht)
      rw [hstep (Nat.le_trans hc h), hstep hc, List.cons_append, List.length_cons,
        List.drop_succ_cons, ← ih]
    · have hnone : (c :: rest).takeWhile (·.frame ≤ frame) = [] :=
        List.takeWhile_cons_of_neg (by simpa using hc)
      rw [hnone, List.nil_append, List.length_nil, List.drop_zero]

/-- The changes that were passed may be dropped once their keys are held. -/
theorem inputAt_drop (input : ActionSet) (changes : List Change) {frame later : Nat}
    (h : frame ≤ later) :
    inputAt (inputAt input changes frame)
        (changes.drop (changes.takeWhile (·.frame ≤ frame)).length) later =
      inputAt input changes later := by
  rw [inputAt, inputAt, inputAt, takeWhile_later changes h, List.getLast?_append]
  cases ((changes.drop _).takeWhile (·.frame ≤ later)).getLast? with
  | none => rfl
  | some c => rfl

/-- Playing back gives each frame with the keys held on it. -/
theorem playFrom_eq_map (count frame : Nat) (input : ActionSet) (changes : List Change) :
    playFrom count frame input changes =
      (List.range' frame count).map fun t => (t, inputAt input changes t) := by
  induction count generalizing frame input changes with
  | zero => rfl
  | succ count ih =>
    rw [playFrom, ih, List.range'_succ, List.map_cons]
    refine congrArg (_ :: ·) (List.map_congr_left ?_)
    intro t ht
    have hlater : frame ≤ t := by
      have := (List.mem_range'_1.1 ht).1
      omega
    rw [Prod.mk.injEq]
    exact ⟨rfl, inputAt_drop input changes hlater⟩

/-! ## Recording -/

/-- A change that is after a frame makes no difference to it. -/
theorem inputAt_concat_of_lt (input : ActionSet) (changes : List Change) {c : Change} {frame : Nat}
    (h : frame < c.frame) : inputAt input (changes ++ [c]) frame = inputAt input changes frame := by
  have hc : [c].takeWhile (·.frame ≤ frame) = [] :=
    List.takeWhile_cons_of_neg (by simpa using h)
  rw [inputAt, inputAt, List.takeWhile_append, hc, List.append_nil]
  split
  · next hall => rw [(List.takeWhile_prefix _).eq_of_length hall]
  · rfl

/-- The last change before those that are after a frame decides. -/
theorem inputAt_append {changes later : List Change} {frame : Nat} (input : ActionSet)
    (h : ∀ c ∈ changes, c.frame ≤ frame) (hlater : ∀ c ∈ later, frame < c.frame) :
    inputAt input (changes ++ later) frame = (changes.getLast?.map Change.input).getD input := by
  have hnone : later.takeWhile (·.frame ≤ frame) = [] := by
    rw [List.takeWhile_eq_nil_iff]
    intro hpos
    simpa using hlater _ (List.getElem_mem hpos)
  rw [inputAt, List.takeWhile_append_of_pos (by simpa using h), hnone, List.append_nil]

/-- When no change is after a frame, the last one decides. -/
theorem inputAt_of_le {changes : List Change} {frame : Nat} (input : ActionSet)
    (h : ∀ c ∈ changes, c.frame ≤ frame) :
    inputAt input changes frame = (changes.getLast?.map Change.input).getD input := by
  have happend := inputAt_append input h fun c (hc : c ∈ []) => absurd hc List.not_mem_nil
  rwa [List.append_nil] at happend

/-- Of calls that are numbered by their frames, the one of a frame decides. -/
theorem inputAt_numbered {calls : List Change} (input : ActionSet)
    (hframe : ∀ i (hi : i < calls.length), calls[i].frame = i) {i : Nat} (hi : i < calls.length) :
    inputAt input calls i = calls[i].input := by
  have htake : ∀ c ∈ calls.take (i + 1), c.frame ≤ i := by
    intro c hc
    obtain ⟨j, hj, rfl⟩ := List.mem_iff_getElem.1 hc
    rw [List.length_take] at hj
    rw [List.getElem_take, hframe]
    omega
  have hdrop : ∀ c ∈ calls.drop (i + 1), i < c.frame := by
    intro c hc
    obtain ⟨j, hj, rfl⟩ := List.mem_iff_getElem.1 hc
    rw [List.getElem_drop, hframe]
    omega
  have happend := inputAt_append input htake hdrop
  rw [List.take_append_drop] at happend
  rw [happend, List.getLast?_eq_getElem?, List.length_take_of_le hi, Nat.succ_sub_one,
    List.getElem?_take_of_lt (Nat.lt_succ_self i), List.getElem?_eq_getElem hi]
  rfl

/-- Records frame after frame, each with the keys held on it. -/
def recordAll (r : Recording) (calls : List Change) : Recording :=
  calls.foldl (fun r c => r.record c.frame c.input) r

/-- The first call is recorded before the others. -/
theorem recordAll_cons (r : Recording) (c : Change) (rest : List Change) :
    r.recordAll (c :: rest) = (r.record c.frame c.input).recordAll rest :=
  rfl

/-- Calls that follow others are recorded after them. -/
theorem recordAll_append (r : Recording) (calls more : List Change) :
    r.recordAll (calls ++ more) = (r.recordAll calls).recordAll more :=
  List.foldl_append

/-- A call does not change the seed. -/
@[simp] theorem seed_record (r : Recording) (frame : Nat) (input : ActionSet) :
    (r.record frame input).seed = r.seed := by
  rw [record]
  split <;> rfl

/-- A recording ends with its last call. -/
@[simp] theorem endFrame_record (r : Recording) (frame : Nat) (input : ActionSet) :
    (r.record frame input).endFrame = frame := by
  rw [record]
  split <;> rfl

/-- No calls change the seed. -/
@[simp] theorem seed_recordAll (r : Recording) (calls : List Change) :
    (r.recordAll calls).seed = r.seed := by
  induction calls generalizing r with
  | nil => rfl
  | cons c rest ih => exact (ih _).trans (seed_record r c.frame c.input)

/-- A recording tells what was recorded, on every frame. -/
structure Tells (r : Recording) (calls : List Change) : Prop where
  /-- A first frame is always a change. -/
  changes_eq_nil_iff : r.changes = [] ↔ calls = []
  /-- The changes are some of the calls. -/
  sublist : r.changes.Sublist calls
  /-- The last frame is the one that was recorded last. -/
  endFrame_eq : r.endFrame = (calls.getLast?.map Change.frame).getD 0
  /-- No call is after the last frame. -/
  frame_le : ∀ c ∈ calls, c.frame ≤ r.endFrame
  /-- The keys that count as held are those of the last change. -/
  last_eq : r.last = (r.changes.getLast?.map Change.input).getD .empty
  /-- On each frame the changes give what the calls give. -/
  inputAt_eq : ∀ frame, inputAt .empty r.changes frame = inputAt .empty calls frame

/-- A new recording tells no calls. -/
theorem tells_new (seed : Nat) : (new seed).Tells [] where
  changes_eq_nil_iff := Iff.rfl
  sublist := List.Sublist.refl []
  endFrame_eq := rfl
  frame_le := by simp
  last_eq := rfl
  inputAt_eq _ := rfl

namespace Tells

variable {r : Recording} {calls : List Change} {c : Change}

/-- No change is after the last frame. -/
theorem change_frame_le (h : r.Tells calls) : ∀ c ∈ r.changes, c.frame ≤ r.endFrame :=
  fun c hc => h.frame_le c (h.sublist.subset hc)

/-- The keys that count as held are those of the last call. -/
theorem last_eq_call (h : r.Tells calls) :
    r.last = (calls.getLast?.map Change.input).getD .empty := by
  rw [h.last_eq, ← inputAt_of_le _ h.change_frame_le, h.inputAt_eq, inputAt_of_le _ h.frame_le]

/-- A call that is not too early is no earlier than any before it. -/
theorem concat_frame_le (h : r.Tells calls) (hc : r.endFrame ≤ c.frame) :
    ∀ d ∈ calls ++ [c], d.frame ≤ c.frame := by
  intro d hd
  rcases List.mem_append.1 hd with hd | hd
  · exact (h.frame_le d hd).trans hc
  · rw [List.mem_singleton.1 hd]

/-- A change may be added for any call that is not before the last frame. -/
theorem change (h : r.Tells calls) (hc : r.endFrame ≤ c.frame) :
    Tells { r with endFrame := c.frame, changes := r.changes ++ [c], last := c.input }
      (calls ++ [c]) where
  changes_eq_nil_iff := by simp
  sublist := h.sublist.append_right [c]
  endFrame_eq := by simp
  frame_le := h.concat_frame_le hc
  last_eq := by simp
  inputAt_eq frame := by
    rcases Nat.lt_or_ge frame c.frame with hframe | hframe
    · rw [inputAt_concat_of_lt _ _ hframe, inputAt_concat_of_lt _ _ hframe, h.inputAt_eq]
    · -- no call is after the frame, so the new one decides on both sides
      have hle : ∀ d ∈ calls ++ [c], d.frame ≤ frame :=
        fun d hd => (h.concat_frame_le hc d hd).trans hframe
      have hsub := (h.sublist.append_right [c]).subset
      rw [inputAt_of_le _ hle, inputAt_of_le _ fun d hd => hle d (hsub hd), List.getLast?_concat,
        List.getLast?_concat]

/-- No change is needed for a call with the keys that are held. -/
theorem stay (h : r.Tells calls) (hc : r.endFrame ≤ c.frame) (hinput : c.input = r.last)
    (hchanges : r.changes ≠ []) : Tells { r with endFrame := c.frame } (calls ++ [c]) where
  changes_eq_nil_iff := by simpa using hchanges
  sublist := h.sublist.trans (List.sublist_append_left calls [c])
  endFrame_eq := by simp
  frame_le := h.concat_frame_le hc
  last_eq := h.last_eq
  inputAt_eq frame := by
    rcases Nat.lt_or_ge frame c.frame with hframe | hframe
    · rw [inputAt_concat_of_lt _ _ hframe, h.inputAt_eq]
    · -- the last change still holds, and its keys are those of the call
      have hle : ∀ d ∈ calls ++ [c], d.frame ≤ frame :=
        fun d hd => (h.concat_frame_le hc d hd).trans hframe
      have hsub := (h.sublist.trans (List.sublist_append_left calls [c])).subset
      rw [inputAt_of_le _ hle, inputAt_of_le _ fun d hd => hle d (hsub hd), ← h.last_eq, ← hinput,
        List.getLast?_concat]
      rfl

/-- One more call is recorded, whether it is a change or not. -/
theorem record (h : r.Tells calls) (hc : r.endFrame ≤ c.frame) :
    (r.record c.frame c.input).Tells (calls ++ [c]) := by
  rw [Recording.record]
  split
  · exact h.change hc
  · next hsame =>
    obtain ⟨hinput, hchanges⟩ := not_or.1 hsame
    exact h.stay hc (Decidable.not_not.1 hinput) hchanges

/-- Calls whose frames do not decrease are recorded one after the other. -/
theorem recordAll {more : List Change} (h : r.Tells calls)
    (hmore : (more.map (·.frame)).Pairwise (· ≤ ·)) (hfirst : ∀ c ∈ more, r.endFrame ≤ c.frame) :
    (r.recordAll more).Tells (calls ++ more) := by
  induction more generalizing r calls with
  | nil => rwa [List.append_nil]
  | cons c rest ih =>
    obtain ⟨hc, hrest⟩ := List.pairwise_cons.1 hmore
    rw [List.append_cons]
    refine ih (h.record (hfirst c (List.mem_cons_self))) hrest fun d hd => ?_
    rw [endFrame_record]
    exact hc _ (List.mem_map_of_mem hd)

/-- A recording of the frames from 0 on is played back call by call. -/
theorem frames_eq (h : r.Tells calls)
    (hcalls : calls.map (·.frame) = List.range calls.length) :
    r.frames = calls.map fun c => (c.frame, c.input) := by
  have hframe : ∀ i (hi : i < calls.length), calls[i].frame = i := by
    intro i hi
    have := congrArg (·[i]?) hcalls
    simpa [hi] using this
  rw [frames, firstFrames, Nat.min_self]
  split
  · next hnil => rw [h.changes_eq_nil_iff.1 hnil]; rfl
  · next hne =>
    have hpos : 0 < calls.length := List.length_pos_iff.2 (hne ∘ h.changes_eq_nil_iff.2)
    have hcount : r.endFrame + 1 = calls.length := by
      rw [h.endFrame_eq, List.getLast?_eq_getElem?, List.getElem?_eq_getElem (by omega)]
      simp only [Option.map_some, Option.getD_some, hframe]
      omega
    rw [playFrom_eq_map, hcount]
    refine List.ext_getElem (by simp) ?_
    intro i hi _
    have hi : i < calls.length := by simpa using hi
    simp only [List.getElem_map, List.getElem_range', Nat.zero_add, Nat.one_mul, h.inputAt_eq,
      inputAt_numbered _ hframe hi, hframe]

end Tells

/-- A recording tells what was recorded on frames that do not decrease. -/
theorem tells_recordAll (seed : Nat) {calls : List Change}
    (hcalls : (calls.map (·.frame)).Pairwise (· ≤ ·)) : ((new seed).recordAll calls).Tells calls :=
  (tells_new seed).recordAll hcalls fun _ _ => Nat.zero_le _

/-! ## The keys of the frames from 0 on -/

/-- The recording of what is held on the frames from 0 on. -/
def ofInputs (seed : Nat) (inputs : List ActionSet) : Recording :=
  inputs.zipIdx.foldl (fun r e => r.record e.2 e.1) (new seed)

/-- The calls that record what is held on the frames from `first` on. -/
def framed (first : Nat) (inputs : List ActionSet) : List Change :=
  (inputs.zipIdx first).map fun e => ⟨e.2, e.1⟩

/-- The first input gets the first number. -/
theorem framed_cons (first : Nat) (input : ActionSet) (rest : List ActionSet) :
    framed first (input :: rest) = ⟨first, input⟩ :: framed (first + 1) rest :=
  rfl

/-- The inputs behind others are numbered from where these end. -/
theorem framed_append (first : Nat) (inputs more : List ActionSet) :
    framed first (inputs ++ more) = framed first inputs ++ framed (first + inputs.length) more := by
  rw [framed, framed, framed, List.zipIdx_append, List.map_append]

/-- The last input gets the last number. -/
theorem framed_concat (inputs : List ActionSet) (input : ActionSet) :
    framed 0 (inputs ++ [input]) = framed 0 inputs ++ [⟨inputs.length, input⟩] := by
  rw [framed_append, Nat.zero_add]
  rfl

/-- The inputs are numbered one after the other. -/
theorem map_frame_framed (first : Nat) (inputs : List ActionSet) :
    (framed first inputs).map (·.frame) = List.range' first inputs.length := by
  rw [framed, List.map_map]
  exact List.zipIdx_map_snd first inputs

/-- The calls of some inputs are in order. -/
theorem pairwise_framed (first : Nat) (inputs : List ActionSet) :
    ((framed first inputs).map (·.frame)).Pairwise (· ≤ ·) := by
  rw [map_frame_framed]
  exact List.pairwise_le_range'

/-- To record inputs is to record a call for each of them. -/
theorem ofInputs_eq_recordAll (seed : Nat) (inputs : List ActionSet) :
    ofInputs seed inputs = (new seed).recordAll (framed 0 inputs) := by
  rw [ofInputs, recordAll, framed, List.foldl_map]

namespace Tells

variable {r : Recording} {before : List ActionSet}

/-- A recording of inputs ends with the last of them. -/
theorem endFrame_framed (h : r.Tells (framed 0 before)) : r.endFrame = before.length - 1 := by
  rw [h.endFrame_eq, ← List.getLast?_map, map_frame_framed, List.getLast?_range']
  cases before <;> simp

/-- The next frames are recorded behind those that were. -/
theorem recordAll_framed (h : r.Tells (framed 0 before)) (after : List ActionSet) :
    (r.recordAll (framed before.length after)).Tells (framed 0 (before ++ after)) := by
  rw [framed_append, Nat.zero_add]
  refine h.recordAll (pairwise_framed _ _) fun c hc => ?_
  have hframe := List.mem_map_of_mem (f := (·.frame)) hc
  rw [map_frame_framed, List.mem_range'_1] at hframe
  rw [h.endFrame_framed]
  omega

/-- What tells the frames from 0 on plays them back. -/
theorem frames_framed (h : r.Tells (framed 0 before)) :
    r.frames = before.zipIdx.map Prod.swap := by
  rw [h.frames_eq, framed, List.map_map]
  · rfl
  · rw [map_frame_framed, framed, List.length_map, List.length_zipIdx, List.range_eq_range']

end Tells

/-- A recording of inputs tells what was held on each frame. -/
theorem tells_ofInputs (seed : Nat) (inputs : List ActionSet) :
    (ofInputs seed inputs).Tells (framed 0 inputs) := by
  rw [ofInputs_eq_recordAll]
  exact tells_recordAll seed (pairwise_framed 0 inputs)

/-- Recording leaves the seed as it was given. -/
@[simp] theorem seed_ofInputs (seed : Nat) (inputs : List ActionSet) :
    (ofInputs seed inputs).seed = seed := by
  rw [ofInputs_eq_recordAll, seed_recordAll]
  rfl

/-- The frames of a recording are those that were recorded, with what was held on them. -/
theorem frames_ofInputs (seed : Nat) (inputs : List ActionSet) :
    (ofInputs seed inputs).frames = inputs.zipIdx.map Prod.swap :=
  (tells_ofInputs seed inputs).frames_framed

/-- So the keys that are played back are the keys that were recorded. -/
theorem map_snd_frames_ofInputs (seed : Nat) (inputs : List ActionSet) :
    (ofInputs seed inputs).frames.map (·.2) = inputs := by
  rw [frames_ofInputs, List.map_map]
  exact List.zipIdx_map_fst 0 inputs

end Barrage.Recording
