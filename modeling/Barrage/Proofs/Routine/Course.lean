import Barrage.Routine.Sequence

/-!
# The course of a routine

What happens to a routine changes its time, its hit points and its ongoing movement, and nothing
else: wound back, it is the routine that was built (`Routine.rewind`). Its time follows from the
number of its frames so far (`Routine.clock`), so a routine is over when it does not loop and has
had all its frames, or when it has no hit points left (`Routine.isFinished_iff`).

A sequence is on course (`Sequence.OnCourse`) when the routines behind the current one are as they
were built and the current one has had a number of frames. A change of the current routine keeps it
there, as long as it can be wound back (`OnCourse.modifyCurrent`), and `toNext` starts again without
frames (`OnCourse.toNext`).
-/

namespace Barrage

variable {K : Type}

namespace Routine

/-- The time of a routine that has had a number of frames. -/
def clock (r : Routine K) (frames : Nat) : Nat :=
  if r.loops then frames % (r.duration + 1) else frames

/-- Whether a routine that has had a number of frames is over. -/
def IsSpent (r : Routine K) (frames : Nat) : Prop :=
  (r.loops = false ∧ r.duration < frames) ∨ ∃ hp, r.hitPoints = some hp ∧ hp.current = 0

variable {r r₀ : Routine K} {frames : Nat}

/-- The next frame is one later, or the first one again. -/
theorem clock_succ (h : r.clock frames ≤ r.duration) : r.clock (frames + 1) =
    if r.loops && decide (r.duration < r.clock frames + 1) then 0 else r.clock frames + 1 := by
  unfold clock at h ⊢
  cases hloops : r.loops with
  | false => rfl
  | true =>
    simp only [hloops, if_true, Bool.true_and, decide_eq_true_eq] at h ⊢
    rw [← Nat.mod_add_mod]
    split
    · next hlast =>
      have hend : frames % (r.duration + 1) + 1 = r.duration + 1 :=
        Nat.le_antisymm (Nat.succ_le_succ h) hlast
      rw [hend, Nat.mod_self]
    · next hgoes => exact Nat.mod_eq_of_lt (Nat.lt_succ_of_le (Nat.le_of_not_lt hgoes))

/-- A routine is over when it has had its last frame, or has no hit points left. -/
theorem isFinished_iff (htime : r.time = r.clock frames) :
    r.isFinished = true ↔ r.IsSpent frames := by
  rw [isFinished, Bool.or_eq_true, decide_eq_true_eq, IsSpent, htime]
  refine or_congr ?_ ?_
  · unfold clock
    cases r.loops with
    | false => simp
    | true =>
      have hle := Nat.le_of_lt_succ (Nat.mod_lt frames (Nat.succ_pos r.duration))
      simpa using hle
  · rw [Option.any_eq_true]
    exact exists_congr fun hp => by rw [beq_iff_eq]

/-- A routine that is not over is not past its last frame. -/
theorem time_le_of_not_finished (h : r.isFinished = false) : r.time ≤ r.duration := by
  rw [isFinished, Bool.or_eq_false_iff, decide_eq_false_iff_not] at h
  exact Nat.le_of_not_lt h.1

/-- A hit does not bring a routine back that is over. -/
theorem isFinished_damage (h : r.isFinished = true) (amount : Nat) :
    (r.damage amount).isFinished = true := by
  rw [isFinished, Bool.or_eq_true] at h ⊢
  refine h.imp id fun hempty => ?_
  rw [damage, Option.any_map]
  rw [Option.any_eq_true] at hempty ⊢
  obtain ⟨hp, hhp, hzero⟩ := hempty
  refine ⟨hp, hhp, ?_⟩
  rw [beq_iff_eq] at hzero
  simp only [hzero, Nat.zero_sub, beq_self_eq_true]

/-- Damage in two portions is damage in one. -/
theorem damage_damage (r : Routine K) (first second : Nat) :
    (r.damage first).damage second = r.damage (first + second) := by
  simp only [damage, Option.map_map, Function.comp_def, Nat.sub_sub]

/-- Without damage nothing happens. -/
theorem damage_zero (r : Routine K) : r.damage 0 = r :=
  congrArg (fun hitPoints => { r with hitPoints }) Option.map_id'

/-- A routine that is not past its last frame moves on by one frame. -/
theorem time_advance (htime : r.time = r.clock frames) (hle : r.time ≤ r.duration)
    (hlt : r.duration < lastTime) : r.advance.time = r.clock (frames + 1) := by
  have hadd : addTime r.time 1 = r.time + 1 :=
    Nat.min_eq_left (Nat.succ_le_of_lt (Nat.lt_of_le_of_lt hle hlt))
  rw [clock_succ (htime ▸ hle), ← htime, ← hadd]
  rfl

variable [Scalar K]

/-- The routine as it was before its first frame. -/
def rewind (r : Routine K) : Routine K :=
  { r with time := 0, ongoing := .still, hitPoints := r.hitPoints.map fun hp => ⟨hp.max, hp.max⟩ }

/-- Rewinding a routine makes up for its damage. -/
theorem rewind_damage (r : Routine K) (amount : Nat) : (r.damage amount).rewind = r.rewind := by
  rw [damage, rewind, rewind, Option.map_map]
  rfl

/-- Routines that are one routine at different times have the same clock. -/
theorem clock_eq_of_rewind (h : r.rewind = r₀.rewind) : r.clock = r₀.clock := by
  show r.rewind.clock = r₀.rewind.clock
  rw [h]

/-- What holds of the routine without moves and shots, and is kept by each entry of a script, holds
of the routine of the script. -/
theorem ofScript_induction {P : Routine K → Prop} (s : RoutineScript K)
    (hnew : P (new s.name s.loops s.duration s.hitPoints))
    (hmove : ∀ r, ∀ entry ∈ s.moves, P r → P (r.addMove entry))
    (hpattern : ∀ r pattern, P r → P (r.addPattern pattern)) : P (ofScript s) := by
  have hmoves : P (s.moves.foldl addMove (new s.name s.loops s.duration s.hitPoints)) :=
    List.foldlRecOn s.moves addMove hnew fun r hr entry hentry =>
      hmove r entry hentry hr
  exact List.foldlRecOn s.patterns addPattern hmoves fun r hr pattern _ => hpattern r pattern hr

/-- A maneuver of the routine of a script is that of an entry of the script, at one of its times. -/
theorem exists_entry_of_moves {s : RoutineScript K} {time : Nat} {maneuver : Maneuver K}
    (h : (ofScript s).moves[time]? = some maneuver) : ∃ entry ∈ s.moves, ∃ times,
      entry.maneuver? = some (times, maneuver) ∧ time ∈ times := by
  refine ofScript_induction (P := fun r => ∀ {maneuver}, r.moves[time]? = some maneuver →
    ∃ entry ∈ s.moves, ∃ times, entry.maneuver? = some (times, maneuver) ∧ time ∈ times) s ?_ ?_
    (fun _ _ hr => hr) h
  · intro maneuver hmaneuver
    simp [new] at hmaneuver
  · intro r entry hentry hr maneuver hmaneuver
    rw [addMove, MoveTable.add] at hmaneuver
    split at hmaneuver
    · exact hr hmaneuver
    · next times added hadded =>
      rw [MoveTable.getElem?_insertAt] at hmaneuver
      split at hmaneuver
      · next htime =>
        cases hmaneuver
        exact ⟨entry, hentry, times, hadded, htime⟩
      · exact hr hmaneuver

/-- A routine is built in the state to which it is wound back. -/
theorem rewind_ofScript (s : RoutineScript K) : (ofScript s).rewind = ofScript s := by
  refine ofScript_induction (P := fun r => r.rewind = r) s ?_
    (fun _ entry _ h => congrArg (·.addMove entry) h)
    (fun _ pattern h => congrArg (·.addPattern pattern) h)
  rw [new, rewind]
  cases s.hitPoints <;> rfl

/-- A routine has the name of its script. -/
theorem name_ofScript (s : RoutineScript K) : (ofScript s).name = s.name :=
  ofScript_induction (P := fun r => r.name = s.name) s rfl (fun _ _ _ h => h) (fun _ _ h => h)

end Routine

namespace Sequence

section
variable {s : Sequence K} {r : Routine K} {f g : Routine K → Routine K}

/-- Two changes of the current routine are one. -/
theorem modifyCurrent_modifyCurrent (s : Sequence K) (f g : Routine K → Routine K) :
    (s.modifyCurrent f).modifyCurrent g = s.modifyCurrent (g ∘ f) := by
  unfold modifyCurrent
  rw [List.modify_modify_eq]

/-- A change of the current routine is found there. -/
theorem current?_modifyCurrent (s : Sequence K) (f : Routine K → Routine K) :
    (s.modifyCurrent f).current? = s.current?.map f := by
  show (s.routines.modify s.cursor f)[s.cursor]? = s.routines[s.cursor]?.map f
  rw [List.getElem?_modify_eq]
  rfl

/-- A change of the current routine leaves the next one in place. -/
theorem hasNext_modifyCurrent (s : Sequence K) (f : Routine K → Routine K) :
    (s.modifyCurrent f).hasNext = s.hasNext := by
  rw [hasNext, hasNext, modifyCurrent, List.length_modify]

/-- Routines other than the current one are left alone. -/
theorem routines_modifyCurrent_of_ne {i : Nat} (h : s.cursor ≠ i) (f : Routine K → Routine K) :
    (s.modifyCurrent f).routines[i]? = s.routines[i]? := List.getElem?_modify_ne f s.routines h

/-- What a change of the current routine leaves, it leaves of all routines. -/
theorem map_modifyCurrent {β : Type} {read : Routine K → β}
    (hread : ∀ r, s.current? = some r → read (f r) = read r) :
    (s.modifyCurrent f).routines.map read = s.routines.map read := by
  refine List.ext_getElem? fun i => ?_
  rw [List.getElem?_map, List.getElem?_map]
  by_cases hi : s.cursor = i
  · subst hi
    show ((s.modifyCurrent f).current?).map read = s.current?.map read
    rw [current?_modifyCurrent]
    cases hr : s.current? with
    | none => rfl
    | some r => exact congrArg some (hread r hr)
  · rw [routines_modifyCurrent_of_ne hi]

/-- A hit does not bring back a sequence whose routine is over. -/
theorem isFinished_damage (h : s.isFinished = true) (amount : Nat) :
    (s.damage amount).isFinished = true := by
  rw [isFinished, damage, current?_modifyCurrent]
  rw [isFinished] at h
  cases hr : s.current? with
  | none => rfl
  | some r =>
    rw [hr] at h
    exact Routine.isFinished_damage h amount

end

variable [Scalar K]

/-- The routines behind the current one are as they were built, and the current one has had a number
of frames. -/
structure OnCourse (routines : List (Routine K)) (s : Sequence K) (frames : Nat) : Prop where
  rewind_eq : s.routines.map Routine.rewind = routines
  later_eq : ∀ i, s.cursor < i → s.routines[i]? = routines[i]?
  current : ∃ r, s.current? = some r ∧ r.time = r.clock frames

variable {routines : List (Routine K)} {s : Sequence K} {r : Routine K} {frames : Nat}

/-- The current routine, wound back, is the one that was built. -/
theorem OnCourse.rewind_current (h : s.OnCourse routines frames) (hr : s.current? = some r) :
    routines[s.cursor]? = some r.rewind := by
  have hget := congrArg (·[s.cursor]?) h.rewind_eq
  rw [List.getElem?_map] at hget
  exact hget.symm.trans (congrArg (Option.map Routine.rewind) hr)

/-- A sequence on its course is at one of its routines. -/
theorem OnCourse.cursor_lt (h : s.OnCourse routines frames) : s.cursor < routines.length := by
  obtain ⟨r, hr, -⟩ := h.current
  exact (List.getElem?_eq_some_iff.1 (h.rewind_current hr)).1

/-- There is a next routine up to the last one. -/
theorem OnCourse.hasNext_iff (h : s.OnCourse routines frames) :
    s.hasNext = true ↔ s.cursor + 1 < routines.length := by
  rw [hasNext, decide_eq_true_eq, ← h.rewind_eq, List.length_map]

/-- A change of the current routine that can be wound back. -/
theorem OnCourse.modifyCurrent (h : s.OnCourse routines frames) {f : Routine K → Routine K}
    {frames' : Nat} (hf : ∀ r, s.current? = some r → r.time = r.clock frames →
      (f r).rewind = r.rewind ∧ (f r).time = r.clock frames') :
    (s.modifyCurrent f).OnCourse routines frames' := by
  obtain ⟨r, hr, htime⟩ := h.current
  obtain ⟨hrewind, htime⟩ := hf r hr htime
  have hcurrent : (s.modifyCurrent f).current? = some (f r) :=
    (s.current?_modifyCurrent f).trans (congrArg (Option.map f) hr)
  refine ⟨?_, ?_, f r, hcurrent, ?_⟩
  · rw [← h.rewind_eq]
    exact map_modifyCurrent fun r' hr' => by rw [Option.some.inj (hr'.symm.trans hr), hrewind]
  · intro i hi
    have hne : s.cursor ≠ i := Nat.ne_of_lt hi
    exact (routines_modifyCurrent_of_ne hne f).trans (h.later_eq i hi)
  · rw [htime, Routine.clock_eq_of_rewind hrewind]

/-- The next routine has had no frames. -/
theorem OnCourse.toNext (h : s.OnCourse routines frames) (hnext : s.hasNext = true)
    (hbuilt : ∀ r ∈ routines, r.rewind = r) : s.toNext.OnCourse routines 0 := by
  have hlt : s.cursor + 1 < routines.length := h.hasNext_iff.1 hnext
  have hcurrent : s.routines[s.cursor + 1]? = some routines[s.cursor + 1] := by
    rw [h.later_eq _ (Nat.lt_succ_self _), List.getElem?_eq_getElem hlt]
  rw [Sequence.toNext, if_pos hnext]
  refine ⟨h.rewind_eq, fun i hi => h.later_eq i (Nat.lt_of_succ_lt hi), _, hcurrent, ?_⟩
  rw [← hbuilt _ (List.getElem_mem hlt), Routine.clock, Nat.zero_mod, ite_self]
  rfl

/-- A sequence starts on course. -/
theorem onCourse_new (hbuilt : ∀ r ∈ routines, r.rewind = r) (hne : routines ≠ []) :
    (new routines).OnCourse routines 0 := by
  obtain ⟨r, rest, rfl⟩ := List.exists_cons_of_ne_nil hne
  refine ⟨(List.map_congr_left hbuilt).trans (List.map_id' _), fun _ _ => rfl, r, rfl, ?_⟩
  rw [← hbuilt r List.mem_cons_self, Routine.clock, Nat.zero_mod, ite_self]
  rfl

end Sequence

end Barrage
