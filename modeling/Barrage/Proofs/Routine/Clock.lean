import Mathlib.Algebra.Order.Ring.Nat
import Mathlib.Data.List.Induction
import Barrage.Number.Binary64
import Barrage.Proofs.Routine.Course

/-!
# The clock of a routine

Between its frames a routine is asked for its movement, hit, halted along an axis, and given more
entries, in any order (`Routine.Act`). None of this moves its time, and nothing but hits takes hit
points. So time and hit points follow from the number of frames and from the damage so far
(`Routine.Counts`), and with them when the routine is over.

The time of a routine that loops goes round its frames. That of a routine that does not loop stops
at the last time that there is, so for a duration before it the routine stays past its last frame
(`Routine.clockLaw_after`).
-/

namespace Barrage

variable {K : Type} [Scalar K]

namespace Routine

/-- What can be done with a routine once it was built. -/
inductive Act (K : Type) where
  /-- Its movement on the current frame is asked for. -/
  | move
  | advance
  | damage (amount : Nat)
  | haltX
  | haltY
  | addMove (entry : MoveScript K)
  | addPattern (pattern : PatternScript K)
  /-- The generator is used elsewhere, and comes back in any state. -/
  | elsewhere (g : Prng)

/-- A routine and the generator that it draws from, after an act. -/
def act (x : Routine K × Prng) : Act K → Routine K × Prng
  | .move => (x.1.currentMovement x.2).2
  | .advance => (x.1.advance, x.2)
  | .damage amount => (x.1.damage amount, x.2)
  | .haltX => (x.1.haltX, x.2)
  | .haltY => (x.1.haltY, x.2)
  | .addMove entry => (x.1.addMove entry, x.2)
  | .addPattern pattern => (x.1.addPattern pattern, x.2)
  | .elsewhere g => (x.1, g)

/-- The routine of a script and a generator, after some acts. -/
def after (s : RoutineScript K) (g : Prng) (past : List (Act K)) : Routine K × Prng :=
  past.foldl act (ofScript s, g)

/-- Whether an act is the end of a frame. -/
def Act.isFrame : Act K → Bool
  | advance => true
  | _ => false

/-- The damage that an act does. -/
def Act.harm : Act K → Nat
  | damage amount => amount
  | _ => 0

/-- The number of frames among acts. -/
def frames (past : List (Act K)) : Nat := past.countP Act.isFrame

/-- The damage that acts do together. -/
def harm (past : List (Act K)) : Nat := (past.map Act.harm).sum

/-- What time and hit points of a routine are after some acts. -/
structure Counts (s : RoutineScript K) (past : List (Act K)) (r : Routine K) : Prop where
  loops_eq : r.loops = s.loops
  duration_eq : r.duration = s.duration
  time_eq : r.time =
    if s.loops then frames past % (s.duration + 1) else min (frames past) lastTime
  hitPoints_eq : r.hitPoints = s.hitPoints.map fun hp => ⟨hp, hp - harm past⟩

section
variable {s : RoutineScript K} {g : Prng} {past later : List (Act K)} {r : Routine K}
  {x : Routine K × Prng} {a : Act K}

/-- A routine that was just made is that of its script. -/
@[simp] theorem after_nil : after s g [] = (ofScript s, g) := rfl

/-- The last act comes after the others. -/
theorem after_concat : after s g (past ++ [a]) = act (after s g past) a := List.foldl_append

omit [Scalar K] in
/-- The last act counts as a frame if it is one. -/
@[simp] theorem frames_concat :
    frames (past ++ [a]) = frames past + if a.isFrame then 1 else 0 := by
  simp [frames, List.countP_append, List.countP_singleton]

omit [Scalar K] in
/-- The last act adds its own harm. -/
@[simp] theorem harm_concat : harm (past ++ [a]) = harm past + a.harm := by
  simp [harm]

omit [Scalar K] in
/-- Later acts take no frame back. -/
theorem frames_append_le : frames past ≤ frames (past ++ later) := by
  simp [frames, List.countP_append]

omit [Scalar K] in
/-- Later acts take no harm back. -/
theorem harm_append_le : harm past ≤ harm (past ++ later) := by
  simp [harm]

/-- To be asked for its movement changes nothing of a routine but the ongoing movement. -/
theorem exists_currentMovement_eq (r : Routine K) (g : Prng) :
    ∃ ongoing g', (r.currentMovement g).2 = ({ r with ongoing }, g') := by
  rw [currentMovement]
  split
  · exact ⟨r.ongoing, g, rfl⟩
  · exact ⟨_, _, rfl⟩

/-- An act moves the time on if it is the end of a frame, and takes the hit points that it says. -/
theorem act_fst_eq (x : Routine K × Prng) (a : Act K) :
    (act x a).1.loops = x.1.loops ∧ (act x a).1.duration = x.1.duration ∧
    (act x a).1.time = (if a.isFrame then x.1.advance.time else x.1.time) ∧
    (act x a).1.hitPoints = (x.1.damage a.harm).hitPoints := by
  have hunhurt : x.1.hitPoints = (x.1.damage 0).hitPoints := by rw [damage_zero]
  cases a with
  | damage amount => exact ⟨rfl, rfl, rfl, rfl⟩
  | move =>
    obtain ⟨ongoing, g', hmove⟩ := x.1.exists_currentMovement_eq x.2
    rw [act, hmove]
    exact ⟨rfl, rfl, rfl, hunhurt⟩
  | advance | haltX | haltY | addMove _ | addPattern _ | elsewhere _ =>
    exact ⟨rfl, rfl, rfl, hunhurt⟩

/-- A routine that was just made is at its first frame with all of its hit points. -/
theorem counts_ofScript (s : RoutineScript K) : Counts s [] (ofScript s) := by
  refine ofScript_induction (P := Counts s []) s ?_
    (fun _ _ _ h => ⟨h.loops_eq, h.duration_eq, h.time_eq, h.hitPoints_eq⟩)
    (fun _ _ h => ⟨h.loops_eq, h.duration_eq, h.time_eq, h.hitPoints_eq⟩)
  refine ⟨rfl, rfl, ?_, rfl⟩
  simp [new, frames]

omit [Scalar K] in
/-- After a frame the time is the next one, or the first one again. -/
theorem Counts.time_advance (h : Counts s past r) (hduration : s.duration < lastTime) :
    r.advance.time = if s.loops then (frames past + 1) % (s.duration + 1)
      else min (frames past + 1) lastTime := by
  have htime := h.time_eq
  cases hloops : s.loops with
  | true =>
    have hr : r.loops = true := h.loops_eq.trans hloops
    simp only [hloops, if_true] at htime ⊢
    have hclock : r.time = r.clock (frames past) := by
      rw [htime, clock, hr, if_pos rfl, h.duration_eq]
    have hle : r.time ≤ r.duration := by
      rw [htime, h.duration_eq]
      exact Nat.le_of_lt_succ (Nat.mod_lt _ (Nat.succ_pos _))
    rw [Routine.time_advance hclock hle (h.duration_eq ▸ hduration), clock, hr, if_pos rfl,
      h.duration_eq]
  | false =>
    have hr : r.loops = false := h.loops_eq.trans hloops
    simp only [hloops, Bool.false_eq_true, if_false] at htime ⊢
    simp only [advance, addTime, hr, Bool.false_and, Bool.false_eq_true, if_false, htime]
    omega

/-- Every act keeps count. -/
theorem Counts.act (h : Counts s past x.1) (hduration : s.duration < lastTime) (a : Act K) :
    Counts s (past ++ [a]) (Routine.act x a).1 := by
  obtain ⟨hloops, hlast, htime, hpoints⟩ := act_fst_eq x a
  refine ⟨hloops.trans h.loops_eq, hlast.trans h.duration_eq, ?_, ?_⟩
  · rw [htime, frames_concat]
    cases a.isFrame with
    | true => exact h.time_advance hduration
    | false => exact h.time_eq
  · rw [hpoints, damage, h.hitPoints_eq, Option.map_map, harm_concat]
    simp only [Function.comp_def, Nat.sub_sub]

/-- So time and hit points are counted right after all acts. -/
theorem counts_after (hduration : s.duration < lastTime) (g : Prng) (past : List (Act K)) :
    Counts s past (after s g past).1 := by
  induction past using List.reverseRecOn with
  | nil => exact counts_ofScript s
  | append_singleton past a ih =>
    rw [after_concat]
    exact ih.act hduration a

omit [Scalar K] in
/-- A routine is over when it has had all its frames, or has no hit points left. -/
theorem Counts.isFinished_iff (h : Counts s past r) (hduration : s.duration < lastTime) :
    r.isFinished = true ↔ (s.loops = false ∧ s.duration < frames past) ∨
      ∃ hp, s.hitPoints = some hp ∧ hp ≤ harm past := by
  rw [isFinished, Bool.or_eq_true, decide_eq_true_eq, h.duration_eq, h.time_eq, h.hitPoints_eq]
  refine or_congr ?_ ?_
  · cases s.loops with
    | true =>
      have hle := Nat.le_of_lt_succ (Nat.mod_lt (frames past) (Nat.succ_pos s.duration))
      simpa using hle
    | false =>
      simp only [Bool.false_eq_true, if_false, true_and]
      omega
  · cases s.hitPoints with
    | none => simp
    | some hp => simp [Nat.sub_eq_zero_iff_le]

end

/-- What is known of the clock of a routine and of its end, after some acts. -/
structure ClockLaw (s : RoutineScript K) (g : Prng) (past : List (Act K)) : Prop where
  time_eq : (after s g past).1.time =
    if s.loops then frames past % (s.duration + 1) else min (frames past) lastTime
  /-- Hit points are those at the start without all damage so far, down to none. -/
  hitPoints_eq : (after s g past).1.hitPoints = s.hitPoints.map fun hp => ⟨hp, hp - harm past⟩
  finished_iff : (after s g past).1.isFinished = true ↔
    (s.loops = false ∧ s.duration < frames past) ∨
      ∃ hp, (after s g past).1.hitPoints = some hp ∧ hp.current = 0
  /-- What is over stays over. -/
  finished_stays : (after s g past).1.isFinished = true → ∀ later : List (Act K),
    (after s g (past ++ later)).1.isFinished = true
  /-- A routine that loops and has no hit points goes on for ever. -/
  goes_on : s.loops = true → s.hitPoints = none → (after s g past).1.isFinished = false

/-- The routine of a script that ends before the last time keeps to the law, whatever is done with
it. -/
theorem clockLaw_after {s : RoutineScript K} (hduration : s.duration < lastTime) (g : Prng)
    (past : List (Act K)) : ClockLaw s g past := by
  have hcounts := counts_after hduration g past
  have hfinished : ∀ later : List (Act K), (after s g (past ++ later)).1.isFinished = true ↔ _ :=
    fun later => (counts_after hduration g (past ++ later)).isFinished_iff hduration
  have hempty : (∃ hp, (after s g past).1.hitPoints = some hp ∧ hp.current = 0) ↔
      ∃ hp, s.hitPoints = some hp ∧ hp ≤ harm past := by
    rw [hcounts.hitPoints_eq]
    cases s.hitPoints with
    | none => simp
    | some hp => simp [Nat.sub_eq_zero_iff_le]
  refine ⟨hcounts.time_eq, hcounts.hitPoints_eq, ?_, ?_, ?_⟩
  · rw [hcounts.isFinished_iff hduration, hempty]
  · intro hover later
    rw [hfinished later]
    rcases (hcounts.isFinished_iff hduration).1 hover with ⟨hloops, hlate⟩ | ⟨hp, hhp, hle⟩
    · exact .inl ⟨hloops, Nat.lt_of_lt_of_le hlate frames_append_le⟩
    · exact .inr ⟨hp, hhp, Nat.le_trans hle harm_append_le⟩
  · intro hloops hnone
    rw [← Bool.not_eq_true, hcounts.isFinished_iff hduration, hloops, hnone]
    simp

/-! ## A routine that goes round -/

/-- A routine of three frames that loops and has hit points. -/
def lap : RoutineScript Binary64 where
  name := "lap"
  loops := true
  duration := 2
  hitPoints := some 5
  moves := []
  patterns := []

/-- The routine is hit twice, and has begun again in between. -/
def twoHits : List (Act Binary64) :=
  [.advance, .damage 2, .advance, .move, .advance, .haltX, .damage 4, .advance]

/-- After these acts the routine is over, though it has frames left. -/
theorem clockLaw_twoHits : lap.duration < lastTime ∧
    (frames twoHits, harm twoHits, (after lap (.seeded 0) twoHits).1.time) = (4, 6, 1) ∧
    (after lap (.seeded 0) twoHits).1.isFinished = true ∧ ClockLaw lap (.seeded 0) twoHits :=
  ⟨by decide, by decide +kernel, by decide +kernel, clockLaw_after (by decide) _ twoHits⟩

end Routine

end Barrage
