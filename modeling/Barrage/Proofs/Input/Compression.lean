import Mathlib.Data.List.Chain
import Barrage.Proofs.Input.Recording

/-!
# A recording has no change too many

Whatever is recorded on frames that do not decrease, a recording says the same of every frame as the
calls do, with one change for the first call and one for every call whose keys are new
(`Recording.faithful_recordAll`).

A single frame is looked up by bisection, while playing back walks along the changes. The changes of
a recording are in order, so that a bisection ends behind those that are not after the frame
(`Recording.bisect_eq`), which is where the walk would stop (`Recording.heldAt_eq_inputAt`). That no
two neighbours are the same is seen when a change is made: the keys that count as held are those of
the last change, and those of the last call.
-/

namespace Barrage.Recording

/-! ## Looking up a frame -/

/-- A bisection ends where the test turns false, when there is such a position. -/
theorem bisect_eq {holds : Nat → Bool} {base size stop : Nat} (hbase : base ≤ stop)
    (hstop : stop ≤ base + size) (h : ∀ i, holds i ↔ i < stop) : bisect holds base size = stop := by
  fun_induction bisect holds base size with
  | case1 base size hsize half ih =>
    have hhalf : half = size / 2 := rfl
    have hmiddle := h (base + half)
    -- the half that is kept still has the position in it
    refine ih ?_ ?_ <;> split <;> grind
  | case2 base size hsize hone =>
    have := (h base).1 hone.2
    omega
  | case3 base size hsize hone =>
    have := h base
    grind

/-- In order, everything behind the first change that is after a frame is after it too. -/
theorem lt_frame_of_mem_dropWhile {changes : List Change}
    (hsorted : (changes.map (·.frame)).Pairwise (· ≤ ·)) {frame : Nat} {c : Change}
    (hc : c ∈ changes.dropWhile (·.frame ≤ frame)) : frame < c.frame := by
  induction changes with
  | nil => cases hc
  | cons d rest ih =>
    obtain ⟨hd, hrest⟩ := List.pairwise_cons.1 hsorted
    by_cases hframe : d.frame ≤ frame
    · rw [List.dropWhile_cons_of_pos (by simpa using hframe)] at hc
      exact ih hrest hc
    · rw [List.dropWhile_cons_of_neg (by simpa using hframe)] at hc
      rcases List.mem_cons.1 hc with rfl | hc
      · exact Nat.lt_of_not_le hframe
      · exact (Nat.lt_of_not_le hframe).trans_le (hd _ (List.mem_map_of_mem hc))

/-- The changes up to a frame are no later than that frame. -/
theorem frame_le_of_mem_takeWhile {changes : List Change} {frame : Nat} {c : Change}
    (hc : c ∈ changes.takeWhile (·.frame ≤ frame)) : c.frame ≤ frame := by
  simpa using List.mem_takeWhile_imp hc

/-- So a change is not after a frame exactly if none up to it is. -/
theorem any_getElem?_iff {changes : List Change}
    (hsorted : (changes.map (·.frame)).Pairwise (· ≤ ·)) (frame i : Nat) :
    changes[i]?.any (·.frame ≤ frame) ↔ i < (changes.takeWhile (·.frame ≤ frame)).length := by
  have hsplit := List.takeWhile_append_dropWhile (p := fun c => decide (c.frame ≤ frame))
    (l := changes)
  constructor
  · intro hany
    obtain ⟨c, hc, hle⟩ := (Option.any_eq_true _ _).1 hany
    by_contra hi
    rw [← hsplit, List.getElem?_append_right (Nat.le_of_not_lt hi)] at hc
    have := lt_frame_of_mem_dropWhile hsorted (List.mem_of_getElem? hc)
    have := of_decide_eq_true hle
    omega
  · intro hi
    rw [← hsplit, List.getElem?_append_left hi, List.getElem?_eq_getElem hi, Option.any_some]
    exact decide_eq_true (frame_le_of_mem_takeWhile (List.getElem_mem hi))

/-- The changes up to a frame are those that are not after it. -/
theorem takeWhile_eq_filter {changes : List Change}
    (hsorted : (changes.map (·.frame)).Pairwise (· ≤ ·)) (frame : Nat) :
    changes.takeWhile (·.frame ≤ frame) = changes.filter (·.frame ≤ frame) := by
  have hbefore : (changes.takeWhile (·.frame ≤ frame)).filter (·.frame ≤ frame) =
      changes.takeWhile (·.frame ≤ frame) :=
    List.filter_eq_self.2 fun c hc => decide_eq_true (frame_le_of_mem_takeWhile hc)
  have hbehind : (changes.dropWhile (·.frame ≤ frame)).filter (·.frame ≤ frame) = [] := by
    rw [List.filter_eq_nil_iff]
    intro c hc
    simpa using lt_frame_of_mem_dropWhile hsorted hc
  have hfilter := congrArg (List.filter (·.frame ≤ frame))
    (List.takeWhile_append_dropWhile (p := fun c => decide (c.frame ≤ frame)) (l := changes))
  rw [List.filter_append, hbefore, hbehind, List.append_nil] at hfilter
  exact hfilter

/-- In a sorted recording the changes up to a frame are counted from the front. -/
theorem changesUntil_eq {r : Recording} (hsorted : (r.changes.map (·.frame)).Pairwise (· ≤ ·))
    (frame : Nat) : r.changesUntil frame = (r.changes.takeWhile (·.frame ≤ frame)).length := by
  refine bisect_eq (Nat.zero_le _) ?_ (any_getElem?_iff hsorted frame)
  rw [Nat.zero_add]
  exact (List.takeWhile_prefix _).length_le

/-- Looking a frame up comes to the keys that playing back comes to. -/
theorem heldAt_eq_inputAt {r : Recording}
    (hsorted : (r.changes.map (·.frame)).Pairwise (· ≤ ·)) (frame : Nat) :
    r.heldAt frame = inputAt .empty r.changes frame := by
  have hprefix : r.changes.takeWhile (·.frame ≤ frame) <+: r.changes := List.takeWhile_prefix _
  rw [heldAt, changesUntil_eq hsorted, inputAt, List.getLast?_eq_getElem?]
  cases hlength : (r.changes.takeWhile (·.frame ≤ frame)).length with
  | zero =>
    rw [List.length_eq_zero_iff.1 hlength]
    rfl
  | succ i =>
    have hi : i < (r.changes.takeWhile (·.frame ≤ frame)).length := by omega
    have hchange : r.changes[i]? = (r.changes.takeWhile (·.frame ≤ frame))[i]? := by
      rw [List.getElem?_eq_getElem hi, hprefix.getElem hi, List.getElem?_eq_getElem]
    rw [Nat.add_sub_cancel, ← hchange]

/-! ## Counting changes -/

/-- How often the keys are other than those of the call before. -/
def switches (calls : List Change) : Nat :=
  (calls.zip calls.tail).countP fun e => e.1.input ≠ e.2.input

/-- A call that follows others adds a switch if its keys are not those of the last one. -/
theorem switches_concat {calls : List Change} {last : Change} (c : Change)
    (hlast : calls.getLast? = some last) :
    switches (calls ++ [c]) = switches calls + if last.input ≠ c.input then 1 else 0 := by
  induction calls with
  | nil => cases hlast
  | cons d rest ih =>
    cases rest with
    | nil =>
      cases hlast
      by_cases h : d.input = c.input <;> simp [switches, h]
    | cons e rest =>
      have hstep : ∀ more, switches (d :: e :: more) =
          switches (e :: more) + if d.input ≠ e.input then 1 else 0 := by
        intro more
        simp [switches, List.countP_cons]
      rw [List.cons_append, List.cons_append, hstep, hstep, ← List.cons_append,
        ih (by simpa using hlast)]
      omega

/-- A recording says of every frame what was recorded, and has no change too many. -/
structure Faithful (r : Recording) (calls : List Change) : Prop where
  /-- On a frame the keys of the last call are held that is not after it. -/
  heldAt_eq : ∀ frame, r.heldAt frame =
    ((calls.filter (·.frame ≤ frame)).getLast?.map Change.input).getD .empty
  /-- Neighbouring changes have different keys. -/
  changes_ne : r.changes.IsChain fun c d => c.input ≠ d.input
  /-- The first call is a change, and so is every call with other keys than the call before. -/
  count_eq : r.count = if calls = [] then 0 else 1 + switches calls
  /-- When the frames from 0 on were recorded, they are played back as they were. -/
  frames_eq : calls.map (·.frame) = List.range calls.length →
    r.frames = calls.map fun c => (c.frame, c.input)

namespace Tells

variable {r : Recording} {calls : List Change}

/-- A new change has other keys than the last one. -/
theorem isChain_record (h : r.Tells calls) (c : Change)
    (hchain : r.changes.IsChain fun c d => c.input ≠ d.input) :
    (r.record c.frame c.input).changes.IsChain fun c d => c.input ≠ d.input := by
  rw [Recording.record]
  split
  · next hnew =>
    refine List.isChain_append.2 ⟨hchain, List.isChain_singleton _, fun d hd e he => ?_⟩
    rw [Option.mem_def] at hd
    obtain rfl : ⟨c.frame, c.input⟩ = e := by simpa using he
    have hlast : r.last = d.input := by
      rw [h.last_eq, hd]
      rfl
    rcases hnew with hnew | hnil
    · exact fun heq => hnew (hlast ▸ heq.symm)
    · rw [hnil] at hd
      cases hd
  · exact hchain

/-- Every call with other keys than the call before is one more change. -/
theorem count_record (h : r.Tells calls) (c : Change) {last : Change}
    (hlast : calls.getLast? = some last) :
    (r.record c.frame c.input).count = r.count + if last.input ≠ c.input then 1 else 0 := by
  have hne : r.changes ≠ [] := by
    intro hnil
    rw [h.changes_eq_nil_iff.1 hnil] at hlast
    cases hlast
  have hheld : r.last = last.input := by
    rw [h.last_eq_call, hlast]
    rfl
  rw [Recording.record, hheld]
  by_cases hinput : last.input = c.input
  · simp [count, hne, hinput]
  · simp [count, hinput, Ne.symm hinput]

end Tells

/-- No change of a recording repeats the keys of the change before it. -/
theorem isChain_recordAll (seed : Nat) (calls : List Change)
    (hsorted : (calls.map (·.frame)).Pairwise (· ≤ ·)) :
    ((new seed).recordAll calls).changes.IsChain fun c d => c.input ≠ d.input := by
  induction calls using List.reverseRecOn with
  | nil => exact .nil
  | append_singleton calls c ih =>
    rw [List.map_append] at hsorted
    have hbefore := hsorted.sublist (List.sublist_append_left _ _)
    rw [recordAll_append]
    exact (tells_recordAll seed hbefore).isChain_record c (ih hbefore)

/-- A recording has one change for the first call and one for each switch. -/
theorem count_recordAll (seed : Nat) (calls : List Change)
    (hsorted : (calls.map (·.frame)).Pairwise (· ≤ ·)) :
    ((new seed).recordAll calls).count = if calls = [] then 0 else 1 + switches calls := by
  induction calls using List.reverseRecOn with
  | nil => rfl
  | append_singleton calls c ih =>
    rw [List.map_append] at hsorted
    have hbefore := hsorted.sublist (List.sublist_append_left _ _)
    rw [recordAll_append, if_neg (by simp)]
    cases hlast : calls.getLast? with
    | none =>
      obtain rfl := List.getLast?_eq_none_iff.1 hlast
      simp [recordAll, Recording.record, count, new, switches]
    | some last =>
      have hne : calls ≠ [] := by
        rintro rfl
        cases hlast
      refine ((tells_recordAll seed hbefore).count_record c hlast).trans ?_
      rw [ih hbefore, if_neg hne, switches_concat c hlast, Nat.add_assoc]

/-- Recording loses nothing and adds no change that is not needed, whatever is recorded on frames
that do not decrease. -/
theorem faithful_recordAll (seed : Nat) (calls : List Change)
    (hsorted : (calls.map (·.frame)).Pairwise (· ≤ ·)) :
    Faithful ((new seed).recordAll calls) calls where
  heldAt_eq frame := by
    have h := tells_recordAll seed hsorted
    rw [heldAt_eq_inputAt (hsorted.sublist (h.sublist.map _)), h.inputAt_eq, inputAt,
      takeWhile_eq_filter hsorted]
  changes_ne := isChain_recordAll seed calls hsorted
  count_eq := count_recordAll seed calls hsorted
  frames_eq := (tells_recordAll seed hsorted).frames_eq

/-- The first frame is idle, and bits of no action come and go. -/
theorem faithful_idle_first :
    ((framed 0 [.empty, .ofNat 0x8020, .ofNat 0x8020, .empty]).map (·.frame)).Pairwise (· ≤ ·) ∧
      Faithful ((new 1).recordAll (framed 0 [.empty, .ofNat 0x8020, .ofNat 0x8020, .empty]))
        (framed 0 [.empty, .ofNat 0x8020, .ofNat 0x8020, .empty]) ∧
      ((new 1).recordAll (framed 0 [.empty, .ofNat 0x8020, .ofNat 0x8020, .empty])).frames =
        [(0, .empty), (1, .ofNat 0x8020), (2, .ofNat 0x8020), (3, .empty)] :=
  ⟨by decide, faithful_recordAll 1 _ (by decide),
    (faithful_recordAll 1 _ (by decide)).frames_eq (by decide)⟩

end Barrage.Recording
