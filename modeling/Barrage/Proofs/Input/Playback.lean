import Barrage.Fault
import Barrage.Proofs.Input.Compression
import Barrage.Proofs.Input.Storage

/-!
# Playing back and looking up agree

A recording that was read from a text need not have come from recording: several changes may share
a frame, the first one may be late, and some may be behind the last frame. As long as its changes
are in order, a frame that is played back has the keys that looking it up gives
(`Recording.played_of_sorted`).

Frames are played back one by one. `Recording.Cursor` says how far the scan has come: the next
frame, the number of changes that were passed, and the keys that are held. What a scan has passed
is never looked at again, so from any place on it comes to what `playFrom` makes of the changes that
are left (`Recording.itemsFrom_eq`), and the number of the next frame always fits when there is one
behind the last.
-/

namespace Barrage.Recording

/-- How far playing back has come. -/
structure Cursor where
  /-- The next frame. -/
  frame : Nat
  /-- How many changes were passed. -/
  passed : Nat
  /-- The keys of the last one of them. -/
  input : ActionSet

/-- Playing back starts at frame 0, where no keys are held. -/
def Cursor.start : Cursor := ⟨0, 0, .empty⟩

/-- The next frame with its keys, if there is one, and how far playing back has come with it. The
number of the frame behind it has to fit, even if that frame is never played. -/
def next? (r : Recording) (c : Cursor) : Except Fault (Option ((Nat × ActionSet) × Cursor)) :=
  if r.changes = [] ∨ r.endFrame < c.frame then .ok none
  else
    let due := (r.changes.drop c.passed).takeWhile (·.frame ≤ c.frame)
    let input := (due.getLast?.map Change.input).getD c.input
    if c.frame + 1 < counterCapacity then
      .ok (some ((c.frame, input), ⟨c.frame + 1, c.passed + due.length, input⟩))
    else .error .counterOverflow

/-- The next frames, at most `count` of them. -/
def itemsFrom (r : Recording) : Nat → Cursor → Except Fault (List (Nat × ActionSet))
  | 0, _ => .ok []
  | count + 1, c => do
    match ← r.next? c with
    | none => return []
    | some (item, c) => return item :: (← r.itemsFrom count c)

section
variable {r : Recording}

/-- Behind the last frame there is no next one. -/
theorem next?_of_lt {c : Cursor} (h : r.endFrame < c.frame) : r.next? c = .ok none :=
  if_pos (.inr h)

/-- Up to the last frame there is a next one, with the keys of the last change that has come. -/
theorem next?_of_le (hchanges : r.changes ≠ []) (hend : r.endFrame + 1 < counterCapacity)
    {c : Cursor} (h : c.frame ≤ r.endFrame) :
    r.next? c = .ok (some ((c.frame, inputAt c.input (r.changes.drop c.passed) c.frame),
      { frame := c.frame + 1
        passed := c.passed +
          ((r.changes.drop c.passed).takeWhile (·.frame ≤ c.frame)).length
        input := inputAt c.input (r.changes.drop c.passed) c.frame })) := by
  have hleft : ¬ (r.changes = [] ∨ r.endFrame < c.frame) := by
    simp [hchanges, h]
  have hfits : c.frame + 1 < counterCapacity := by omega
  rw [next?, if_neg hleft]
  exact if_pos hfits

/-- The frames that come one by one are those that are played from the changes that are left. -/
theorem itemsFrom_eq (hchanges : r.changes ≠ []) (hend : r.endFrame + 1 < counterCapacity)
    (count : Nat) (c : Cursor) :
    r.itemsFrom count c = .ok (playFrom (min count (r.endFrame + 1 - c.frame)) c.frame c.input
      (r.changes.drop c.passed)) := by
  induction count generalizing c with
  | zero => simp [itemsFrom, playFrom]
  | succ count ih =>
    by_cases hframe : c.frame ≤ r.endFrame
    · have hleft : min (count + 1) (r.endFrame + 1 - c.frame) =
          min count (r.endFrame + 1 - (c.frame + 1)) + 1 := by
        omega
      rw [itemsFrom, next?_of_le hchanges hend hframe, hleft, playFrom]
      simp only [bind, Except.bind, ih, List.drop_drop]
      rfl
    · have hdone : r.endFrame + 1 - c.frame = 0 := by omega
      rw [itemsFrom, next?_of_lt (Nat.lt_of_not_le hframe), hdone, Nat.min_zero]
      rfl

/-- The first frames are as many of the frames as there are. -/
theorem firstFrames_eq_take (r : Recording) (count : Nat) :
    r.firstFrames count = r.frames.take count := by
  rw [frames, firstFrames, firstFrames]
  split
  · simp
  · rw [playFrom_eq_map, playFrom_eq_map, Nat.min_self, ← List.range_eq_range',
      ← List.range_eq_range', ← List.map_take, List.take_range]

end

/-- A recording is played back as it is looked up. -/
structure Played (r : Recording) : Prop where
  /-- A recording with changes has all frames up to the last one, each with the keys held on it. -/
  frames_eq_heldAt : r.changes ≠ [] →
    r.frames = (List.range (r.endFrame + 1)).map fun frame => (frame, r.heldAt frame)
  /-- One without changes has no frames, and no keys are held on any. -/
  frames_eq_nil : r.changes = [] → r.frames = []
  heldAt_eq_empty : r.changes = [] → ∀ frame, r.heldAt frame = .empty
  /-- However many frames are asked for, those that there are come one by one, and then no more. -/
  itemsFrom_start : ∀ count, r.itemsFrom count .start = .ok (r.frames.take count)
  firstFrames_eq : ∀ count, r.firstFrames count = r.frames.take count

/-- Changes in order are played back as they are looked up, whether they share frames, start late or
go past the end. The number of the frame behind the last one has to fit. -/
theorem played_of_sorted {r : Recording} (hsorted : (r.changes.map (·.frame)).Pairwise (· ≤ ·))
    (hend : r.endFrame < lastTime) : Played r where
  frames_eq_heldAt hchanges := by
    rw [frames, firstFrames, if_neg hchanges, playFrom_eq_map, Nat.min_self,
      ← List.range_eq_range']
    refine List.map_congr_left ?_
    intro frame _
    rw [heldAt_eq_inputAt hsorted]
  frames_eq_nil hchanges := if_pos hchanges
  heldAt_eq_empty hchanges frame := by
    rw [heldAt_eq_inputAt hsorted, hchanges]
    rfl
  itemsFrom_start count := by
    by_cases hchanges : r.changes = []
    · rw [frames, firstFrames, if_pos hchanges, List.take_nil]
      cases count with
      | zero => rfl
      | succ count => rw [itemsFrom, next?, if_pos (.inl hchanges)]; rfl
    · have hend : r.endFrame + 1 < counterCapacity := Nat.succ_lt_succ hend
      rw [itemsFrom_eq hchanges hend, ← firstFrames_eq_take, firstFrames, if_neg hchanges]
      rfl
  firstFrames_eq := r.firstFrames_eq_take

/-- A recording with two changes on frame 1, none before it, and one behind the end. -/
def crowded : Recording where
  seed := 7
  endFrame := 4
  changes := [⟨1, .single .fire⟩, ⟨1, .single .slow⟩, ⟨3, .single .up⟩, ⟨9, .single .down⟩]
  last := .empty

/-- The crowded recording is read back, and the later one of the two changes counts. -/
theorem played_crowded :
    ofJson? (crowded.toJson : Json Binary64) = some crowded ∧
      ((crowded.changes.map (·.frame)).Pairwise (· ≤ ·) ∧ crowded.endFrame < lastTime) ∧
      crowded.Played ∧ crowded.itemsFrom 9 .start = .ok [(0, .empty), (1, .single .slow),
        (2, .single .slow), (3, .single .up), (4, .single .up)] := by
  have hsorted : (crowded.changes.map (·.frame)).Pairwise (· ≤ ·) := by simp [crowded]
  have hend : crowded.endFrame < lastTime := by simp [crowded, lastTime]
  have hplayed := played_of_sorted hsorted hend
  have hread := ofJson?_toJson (K := Binary64) crowded (by simp [crowded]) (by simp [crowded])
    (by simp [crowded])
  exact ⟨hread, ⟨hsorted, hend⟩, hplayed, (hplayed.itemsFrom_start 9).trans (by rfl)⟩

end Barrage.Recording
