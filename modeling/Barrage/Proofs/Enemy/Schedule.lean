import Barrage.Number.Binary64
import Barrage.Proofs.Enemy.Update

/-!
# An enemy keeps to its schedule

An enemy is updated frame by frame and damaged in between, in any order and with any world around
it. Each update that finds a routine reads the tables of this routine at one time
(`Enemy.reading?`), takes up what it reads (`Enemy.Performs`), and moves the routine on.

The readings of each routine are those of its clock, from its first frame on and without a gap
(`Scheduled`). One update does not leave more than one routine behind, what is left behind is
not touched any more, and what comes is as it was built. `Enemy.run_schedule` says all this of
every run.
-/

namespace Barrage

variable {K : Type}

/-- The tables of a routine were read at a time. -/
structure Reading where
  /-- The place of the routine. -/
  routine : Nat
  time : Nat
  deriving DecidableEq

/-- The times at which a routine was read. -/
def timesOf (routine : Nat) (read : List Reading) : List Nat :=
  (read.filter (·.routine == routine)).map (·.time)

/-- The times that were read of a routine come one after the other. -/
theorem timesOf_append (routine : Nat) (read later : List Reading) :
    timesOf routine (read ++ later) = timesOf routine read ++ timesOf routine later := by
  rw [timesOf, List.filter_append, List.map_append]
  rfl

/-- A reading adds its time to those of its routine only. -/
theorem timesOf_concat (routine : Nat) (read : List Reading) (x : Reading) :
    timesOf routine (read ++ [x]) =
      timesOf routine read ++ if x.routine = routine then [x.time] else [] := by
  rw [timesOf_append]
  refine congrArg (timesOf routine read ++ ·) ?_
  unfold timesOf
  by_cases h : x.routine = routine
  · simp [h]
  · simp [h]

variable [Scalar K]

namespace Enemy

/-- What can be done with an enemy. -/
inductive Act (K : Type) where
  | frame (scene : Scene K)
  | damage (amount : Nat)

/-- What is left of an enemy. -/
def act (e : Enemy K) : Act K → Enemy K
  | .frame s => (e.play s).enemy
  | .damage amount => e.damage amount

/-- What is left of an enemy after several things were done with it. -/
def run (e : Enemy K) (acts : List (Act K)) : Enemy K := acts.foldl act e

/-- Where the next update reads, if it does. -/
def reading? (e : Enemy K) : Option Reading :=
  e.transition?.bind fun e => e.sequence.current?.map fun r => ⟨e.sequence.cursor, r.time⟩

/-- What is read when something is done with an enemy. -/
def reads (e : Enemy K) : Act K → List Reading
  | .frame _ => e.reading?.toList
  | .damage _ => []

/-- What is read when several things are done with it. -/
def readings (e : Enemy K) : List (Act K) → List Reading
  | [] => []
  | a :: rest => e.reads a ++ (e.act a).readings rest

end Enemy

/-! ## Routines that are read on time -/

/-- A sequence is on course, and its routines were read on time so far: each of them by its clock,
and one routine after the other. -/
structure Scheduled (routines : List (Routine K)) (s : Sequence K) (read : List Reading) :
    Prop where
  course : s.OnCourse routines (timesOf s.cursor read).length
  times_eq : ∀ i r, routines[i]? = some r →
    timesOf i read = (List.range (timesOf i read).length).map r.clock
  routine_le : ∀ x ∈ read, x.routine ≤ s.cursor
  ascending : (read.map (·.routine)).Pairwise (· ≤ ·)

namespace Scheduled

variable {routines : List (Routine K)} {s : Sequence K} {read : List Reading} {r : Routine K}

/-- The routines behind the current one were not read yet. -/
theorem timesOf_eq_nil (h : Scheduled routines s read) {i : Nat} (hi : s.cursor < i) :
    timesOf i read = [] := by
  rw [timesOf, List.filter_eq_nil_iff.2, List.map_nil]
  intro x hx heq
  have hle := h.routine_le x hx
  rw [beq_iff_eq.1 heq] at hle
  exact Nat.lt_irrefl _ (Nat.lt_of_lt_of_le hi hle)

/-- The next routine starts from its beginning, and what was read stays. -/
theorem toNext (h : Scheduled routines s read) (hnext : s.hasNext = true)
    (hbuilt : ∀ r ∈ routines, r.rewind = r) : Scheduled routines s.toNext read := by
  have hcursor : s.toNext.cursor = s.cursor + 1 := by rw [Sequence.toNext, if_pos hnext]
  have hcourse := h.course.toNext hnext hbuilt
  have hnone := h.timesOf_eq_nil (Nat.lt_succ_self s.cursor)
  refine ⟨?_, h.times_eq, ?_, h.ascending⟩
  · rw [hcursor, hnone]
    exact hcourse
  · intro x hx
    rw [hcursor]
    exact Nat.le_succ_of_le (h.routine_le x hx)

/-- A frame of a routine that is not past its last frame adds one reading. -/
theorem frame (h : Scheduled routines s read) (hdurations : ∀ r ∈ routines, r.duration < lastTime)
    (hr : s.current? = some r) (hle : r.time ≤ r.duration) (ongoing : Movement K) :
    Scheduled routines (s.modifyCurrent fun _ => ({ r with ongoing }).advance)
      (read ++ [⟨s.cursor, r.time⟩]) := by
  obtain ⟨r', hr', htime⟩ := h.course.current
  obtain rfl : r = r' := Option.some.inj (hr.symm.trans hr')
  have hbuilt := h.course.rewind_current hr
  have hduration : r.duration < lastTime :=
    hdurations r.rewind (List.mem_of_getElem? hbuilt)
  have hcursor : timesOf s.cursor (read ++ [⟨s.cursor, r.time⟩]) =
      timesOf s.cursor read ++ [r.time] := by
    rw [timesOf_concat, if_pos rfl]
  refine ⟨?_, ?_, ?_, ?_⟩
  · refine h.course.modifyCurrent ?_
    intro r' hr' _
    obtain rfl : r = r' := Option.some.inj (hr.symm.trans hr')
    refine ⟨rfl, ?_⟩
    show _ = r.clock (timesOf s.cursor (read ++ [⟨s.cursor, r.time⟩])).length
    rw [hcursor, List.length_append, List.length_singleton]
    exact Routine.time_advance (r := { r with ongoing }) htime hle hduration
  · intro i r₀ hr₀
    by_cases hi : i = s.cursor
    · subst hi
      obtain rfl : r.rewind = r₀ := Option.some.inj (hbuilt.symm.trans hr₀)
      have hold := h.times_eq s.cursor r.rewind hbuilt
      rw [hcursor, List.length_append, List.length_singleton, List.range_succ, List.map_append,
        ← hold, htime]
      rfl
    · rw [timesOf_concat, if_neg (Ne.symm hi), List.append_nil]
      exact h.times_eq i r₀ hr₀
  · intro x hx
    rcases List.mem_append.1 hx with hx | hx
    · exact h.routine_le x hx
    · obtain rfl := List.mem_singleton.1 hx
      exact Nat.le_refl _
  · rw [List.map_append, List.pairwise_append]
    refine ⟨h.ascending, List.pairwise_singleton _ _, ?_⟩
    intro a ha b hb
    obtain ⟨x, hx, rfl⟩ := List.mem_map.1 ha
    obtain rfl := List.mem_singleton.1 hb
    exact h.routine_le x hx

/-- Damage changes no time and no routine. -/
theorem damage (h : Scheduled routines s read) (amount : Nat) :
    Scheduled routines (s.damage amount) read := by
  refine ⟨h.course.modifyCurrent ?_, h.times_eq, h.routine_le, h.ascending⟩
  intro r _ htime
  exact ⟨r.rewind_damage amount, htime⟩

/-- The current routine is over when it has had its last frame, or has no hit points left. -/
theorem isFinished_iff (h : Scheduled routines s read) : s.isFinished = true ↔
    ∃ r, s.current? = some r ∧ r.IsSpent (timesOf s.cursor read).length := by
  obtain ⟨r, hr, htime⟩ := h.course.current
  have hfinished : s.isFinished = r.isFinished := by
    rw [Sequence.isFinished, hr]
    rfl
  rw [hfinished, Routine.isFinished_iff htime]
  constructor
  · exact fun hspent => ⟨r, hr, hspent⟩
  · rintro ⟨r', hr', hspent⟩
    rw [Option.some.inj (hr.symm.trans hr')]
    exact hspent

end Scheduled

/-! ## What is done with an enemy -/

namespace Enemy

variable {routines : List (Routine K)} {e e' : Enemy K} {read : List Reading}

/-- What an update finds is on schedule, and not past the last frame of its routine. -/
theorem transition?_scheduled (h : Scheduled routines e.sequence read)
    (hbuilt : ∀ r ∈ routines, r.rewind = r) (hfound : e.transition? = some e') :
    Scheduled routines e'.sequence read ∧
      ∃ r, e'.sequence.current? = some r ∧ r.time ≤ r.duration := by
  rcases transition?_eq_some hfound with ⟨hgoes, rfl⟩ | ⟨-, hnext, rfl⟩
  · obtain ⟨r, hr, -⟩ := h.course.current
    rw [Sequence.isFinished, hr] at hgoes
    exact ⟨h, r, hr, Routine.time_le_of_not_finished hgoes⟩
  · obtain ⟨r, hr, htime⟩ := (h.course.toNext hnext hbuilt).current
    rw [Routine.clock, Nat.zero_mod, ite_self] at htime
    exact ⟨h.toNext hnext hbuilt, r, hr, htime ▸ Nat.zero_le _⟩

/-- An update that finds a routine fires something or nothing, and changes no other routine. -/
theorem play_scheduled (h : Scheduled routines e.sequence read)
    (hbuilt : ∀ r ∈ routines, r.rewind = r) (hfound : e.transition? = some e') (s : Scene K) :
    ∃ shots f, (e.play s).report = .active shots ∧
      (e.play s).enemy.sequence = e'.sequence.modifyCurrent f := by
  obtain ⟨-, r, hr, -⟩ := transition?_scheduled h hbuilt hfound
  obtain ⟨ongoing, x, y, w', -, henemy, -, hactive, -⟩ := play_of_some hfound hr s
  exact ⟨_, _, hactive, congrArg Enemy.sequence henemy⟩

/-- Whatever is done with an enemy keeps it on schedule. -/
theorem act_scheduled (h : Scheduled routines e.sequence read)
    (hbuilt : ∀ r ∈ routines, r.rewind = r) (hdurations : ∀ r ∈ routines, r.duration < lastTime)
    (a : Act K) : Scheduled routines (e.act a).sequence (read ++ e.reads a) := by
  cases a with
  | damage amount =>
    rw [reads, List.append_nil]
    exact h.damage amount
  | frame s =>
    rw [act, reads, reading?]
    cases hfound : e.transition? with
    | none =>
      rw [play_of_none hfound]
      dsimp only [Option.bind_none, Option.toList_none]
      rw [List.append_nil]
      exact h
    | some e' =>
      obtain ⟨hready, r, hr, hle⟩ := transition?_scheduled h hbuilt hfound
      obtain ⟨ongoing, x, y, w', -, henemy, -⟩ := play_of_some hfound hr s
      rw [henemy, Option.bind_some, hr]
      exact hready.frame hdurations hr hle ongoing

/-- Whatever is done with an enemy, it has read what its schedule says. -/
theorem run_scheduled (h : Scheduled routines e.sequence read)
    (hbuilt : ∀ r ∈ routines, r.rewind = r) (hdurations : ∀ r ∈ routines, r.duration < lastTime)
    (acts : List (Act K)) :
    Scheduled routines (e.run acts).sequence (read ++ e.readings acts) := by
  induction acts generalizing e read with
  | nil =>
    rw [readings, List.append_nil]
    exact h
  | cons a rest ih =>
    rw [readings, ← List.append_assoc]
    exact ih (act_scheduled h hbuilt hdurations a)

/-- An update moves the cursor when the routine is over and another one follows. -/
theorem cursor_play (h : Scheduled routines e.sequence read)
    (hbuilt : ∀ r ∈ routines, r.rewind = r) (s : Scene K) :
    (e.play s).enemy.sequence.cursor = if e.sequence.isFinished && e.sequence.hasNext then
      e.sequence.cursor + 1 else e.sequence.cursor := by
  cases hfound : e.transition? with
  | none =>
    obtain ⟨-, hlast⟩ := transition?_eq_none_iff.1 hfound
    rw [play_of_none hfound, hlast, Bool.and_false]
    rfl
  | some e' =>
    obtain ⟨-, f, -, hsequence⟩ := play_scheduled h hbuilt hfound s
    rw [hsequence, ← cursor_transition? hfound]
    rfl

/-- Nothing moves the cursor back, or by more than one. -/
theorem act_cursor (h : Scheduled routines e.sequence read) (hbuilt : ∀ r ∈ routines, r.rewind = r)
    (a : Act K) : e.sequence.cursor ≤ (e.act a).sequence.cursor ∧
      (e.act a).sequence.cursor ≤ e.sequence.cursor + 1 := by
  cases a with
  | damage amount => exact ⟨Nat.le_refl _, Nat.le_succ _⟩
  | frame s =>
    rw [act, cursor_play h hbuilt]
    split
    · exact ⟨Nat.le_succ _, Nat.le_refl _⟩
    · exact ⟨Nat.le_refl _, Nat.le_succ _⟩

/-- Nothing touches the routines before the cursor. -/
theorem act_earlier (h : Scheduled routines e.sequence read) (hbuilt : ∀ r ∈ routines, r.rewind = r)
    (a : Act K) {i : Nat} (hi : i < e.sequence.cursor) :
    (e.act a).sequence.routines[i]? = e.sequence.routines[i]? := by
  cases a with
  | damage amount => exact Sequence.routines_modifyCurrent_of_ne (Nat.ne_of_gt hi) _
  | frame s =>
    rw [act]
    cases hfound : e.transition? with
    | none => rw [play_of_none hfound]
    | some e' =>
      obtain ⟨-, f, -, hsequence⟩ := play_scheduled h hbuilt hfound s
      have hcursor : e'.sequence.cursor = (e.act (.frame s)).sequence.cursor := by
        rw [act, hsequence]
        rfl
      have hlt : i < e'.sequence.cursor := by
        rw [hcursor]
        exact Nat.lt_of_lt_of_le hi (act_cursor h hbuilt (.frame s)).1
      rw [hsequence, Sequence.routines_modifyCurrent_of_ne (Nat.ne_of_gt hlt),
        routines_transition? hfound]

/-- What was left behind stays as it is. -/
theorem run_earlier (h : Scheduled routines e.sequence read) (hbuilt : ∀ r ∈ routines, r.rewind = r)
    (hdurations : ∀ r ∈ routines, r.duration < lastTime) (acts : List (Act K)) {i : Nat}
    (hi : i < e.sequence.cursor) :
    (e.run acts).sequence.routines[i]? = e.sequence.routines[i]? := by
  induction acts generalizing e read with
  | nil => rfl
  | cons a rest ih =>
    obtain ⟨hle, -⟩ := act_cursor h hbuilt a
    exact (ih (act_scheduled h hbuilt hdurations a) (Nat.lt_of_lt_of_le hi hle)).trans
      (act_earlier h hbuilt a hi)

/-- An enemy that has run out of routines finds none any more, whatever is done with it. -/
theorem transition?_act (h : e.transition? = none) (a : Act K) : (e.act a).transition? = none := by
  cases a with
  | frame s =>
    rw [act, play_of_none h]
    exact h
  | damage amount =>
    obtain ⟨hover, hlast⟩ := transition?_eq_none_iff.1 h
    refine transition?_eq_none_iff.2 ⟨Sequence.isFinished_damage hover amount, ?_⟩
    exact (e.sequence.hasNext_modifyCurrent _).trans hlast

/-- An enemy that finds no routine finds none later either. -/
theorem transition?_run (h : e.transition? = none) (acts : List (Act K)) :
    (e.run acts).transition? = none := by
  induction acts generalizing e with
  | nil => exact h
  | cons a rest ih => exact ih (transition?_act h a)

/-- Whether the routine of an enemy is over, after so many readings. -/
def IsSpent (e : Enemy K) (read : List Reading) : Prop :=
  ∃ r, e.sequence.current? = some r ∧ r.IsSpent (timesOf e.sequence.cursor read).length

/-- What holds of an enemy that was built with some routines, after some readings, and of all that
can be done with it from then on. -/
structure OnSchedule (routines : List (Routine K)) (e : Enemy K) (read : List Reading) : Prop where
  cursor_lt : e.sequence.cursor < routines.length
  /-- Nothing moves the cursor back, or by more than one. -/
  cursor_act : ∀ a, e.sequence.cursor ≤ (e.act a).sequence.cursor ∧
    (e.act a).sequence.cursor ≤ e.sequence.cursor + 1
  cursor_damage : ∀ amount, (e.damage amount).sequence.cursor = e.sequence.cursor
  /-- The routines to come are as they were built. -/
  later_eq : ∀ i, e.sequence.cursor < i → e.sequence.routines[i]? = routines[i]?
  /-- Nothing touches the routines that are over. -/
  earlier_eq : ∀ (acts : List (Act K)) (i : Nat), i < e.sequence.cursor →
    (e.run acts).sequence.routines[i]? = e.sequence.routines[i]?
  /-- Each routine was read on its frames, from the first one on, and none of them was left out. -/
  times_eq : ∀ i r, routines[i]? = some r →
    timesOf i read = (List.range (timesOf i read).length).map r.clock
  /-- The routines were read one after the other. -/
  ascending : (read.map (·.routine)).Pairwise (· ≤ ·)
  performs : ∀ x, e.reading? = some x →
    ∃ r, routines[x.routine]? = some r ∧ ∀ s, e.Performs s r x.routine x.time
  /-- An update moves on when the routine is over and another one follows ... -/
  moves_iff : ∀ s, (e.play s).enemy.sequence.cursor = e.sequence.cursor + 1 ↔
    e.IsSpent read ∧ e.sequence.cursor + 1 < routines.length
  /-- ... and it reads nothing and is the end when none does. -/
  reading_none_iff : e.reading? = none ↔ e.IsSpent read ∧ e.sequence.cursor + 1 = routines.length
  finished_iff : ∀ s, (e.play s).report = .finished ↔
    e.IsSpent read ∧ e.sequence.cursor + 1 = routines.length
  /-- The end changes nothing, and it is the end of all updates. -/
  finished : ∀ s, (e.play s).report = .finished → e.play s = ⟨.finished, e, s.world, s.rng⟩ ∧
    ∀ (acts : List (Act K)) (s' : Scene K), ((e.run acts).play s').report = .finished

/-- An update is the end when it finds nothing. -/
theorem report_play_iff (h : Scheduled routines e.sequence read)
    (hbuilt : ∀ r ∈ routines, r.rewind = r) (s : Scene K) :
    (e.play s).report = .finished ↔ e.transition? = none := by
  refine ⟨fun hreport => ?_, fun hnone => by rw [play_of_none hnone]⟩
  cases hfound : e.transition? with
  | none => rfl
  | some e' =>
    obtain ⟨shots, f, hactive, -⟩ := play_scheduled h hbuilt hfound s
    rw [hreport] at hactive
    cases hactive

/-- An enemy reads nothing exactly when it finds no routine. -/
theorem reading?_eq_none_iff (h : Scheduled routines e.sequence read)
    (hbuilt : ∀ r ∈ routines, r.rewind = r) : e.reading? = none ↔ e.transition? = none := by
  rw [reading?, Option.bind_eq_none_iff]
  refine ⟨fun hall => ?_, fun hnone e' hfound => nomatch hnone.symm.trans hfound⟩
  cases hfound : e.transition? with
  | none => rfl
  | some e' =>
    obtain ⟨-, r, hr, -⟩ := transition?_scheduled h hbuilt hfound
    have hread := hall e' hfound
    rw [hr] at hread
    cases hread

/-- An update finds nothing when the last routine is over. -/
theorem transition?_eq_none_iff_isSpent (h : Scheduled routines e.sequence read) :
    e.transition? = none ↔ e.IsSpent read ∧ e.sequence.cursor + 1 = routines.length := by
  have hlt := h.course.cursor_lt
  have hlast : e.sequence.hasNext = false ↔ e.sequence.cursor + 1 = routines.length := by
    rw [← Bool.not_eq_true, h.course.hasNext_iff]
    omega
  rw [transition?_eq_none_iff, h.isFinished_iff, hlast]
  rfl

/-- What follows from being on schedule. -/
theorem onSchedule_of_scheduled (h : Scheduled routines e.sequence read)
    (hbuilt : ∀ r ∈ routines, r.rewind = r) (hdurations : ∀ r ∈ routines, r.duration < lastTime) :
    OnSchedule routines e read where
  cursor_lt := h.course.cursor_lt
  cursor_act := act_cursor h hbuilt
  cursor_damage _ := rfl
  later_eq := h.course.later_eq
  earlier_eq acts _ hi := run_earlier h hbuilt hdurations acts hi
  times_eq := h.times_eq
  ascending := h.ascending
  performs x hx := by
    obtain ⟨e', hfound, hx⟩ := Option.bind_eq_some_iff.1 hx
    obtain ⟨r, hr, rfl⟩ := Option.map_eq_some_iff.1 hx
    obtain ⟨hready, -⟩ := transition?_scheduled h hbuilt hfound
    exact ⟨r.rewind, hready.course.rewind_current hr, fun s => performs_of_transition? hfound hr s⟩
  moves_iff s := by
    have hspent : e.sequence.isFinished = true ↔ e.IsSpent read := h.isFinished_iff
    rw [cursor_play h hbuilt, ← hspent, ← h.course.hasNext_iff, ← Bool.and_eq_true]
    cases e.sequence.isFinished && e.sequence.hasNext <;> simp
  reading_none_iff := by
    rw [reading?_eq_none_iff h hbuilt, transition?_eq_none_iff_isSpent h]
  finished_iff s := by
    rw [report_play_iff h hbuilt, transition?_eq_none_iff_isSpent h]
  finished s hreport := by
    have hnone := (report_play_iff h hbuilt s).1 hreport
    refine ⟨play_of_none hnone s, fun acts s' => ?_⟩
    rw [play_of_none (transition?_run hnone acts)]

/-- An enemy whose routines are as they were built, and are not too long for their frames to be
counted, keeps to its schedule, whatever is done with it. -/
theorem run_schedule (hsequence : e.sequence = .new routines) (hne : routines ≠ [])
    (hbuilt : ∀ r ∈ routines, r.rewind = r) (hdurations : ∀ r ∈ routines, r.duration < lastTime)
    (acts : List (Act K)) : OnSchedule routines (e.run acts) (e.readings acts) := by
  have hstart : Scheduled routines e.sequence [] := by
    rw [hsequence]
    exact ⟨Sequence.onCourse_new hbuilt hne, fun _ _ _ => rfl, nofun, List.Pairwise.nil⟩
  have hrun := run_scheduled hstart hbuilt hdurations acts
  exact onSchedule_of_scheduled hrun hbuilt hdurations

end Enemy

/-! ## A patrol -/

namespace Patrol

/-- A shot straight down. -/
def pellet : Shot Binary64 :=
  { image := "pellet", offset := .zero, anchor := .middle, damage := none
    velocity := .components 0 (Scalar.whole 1) }

/-- The first routine of the patrol: it has hit points and fires two shots on its last frame. -/
def approach : RoutineScript Binary64 :=
  { name := "approach", loops := false, duration := 1, hitPoints := some 3, moves := [.stop [0]]
    patterns := [.volley ⟨[1], [pellet, pellet], .middle⟩] }

/-- The second one, which goes on until its hit points are gone. -/
def rounds : RoutineScript Binary64 :=
  { name := "rounds", loops := true, duration := 1, hitPoints := some 1, moves := []
    patterns := [.volley ⟨[0], [pellet], .middle⟩] }

/-- The routines of the patrol. -/
def routines : List (Routine Binary64) := [.ofScript approach, .ofScript rounds]

/-- The enemy on patrol. -/
def sentry : Enemy Binary64 :=
  { kind := .ordinary, image := "sentry", body := 0, sequence := .new routines
    limits := .unbounded }

/-- The world around it on each frame. -/
def scene : Scene Binary64 where
  world := ((World.empty ⟨0, 0, 0, 0⟩).create "sentry" .zero ⟨0, 0⟩).2
  rng := .seeded 0
  group := 0
  dt := Scalar.whole 1
  sizeOf _ := ⟨0, 0⟩

/-- What is done with it: it is hit once in its first routine, and for the last time in its second
one. -/
def acts : List (Enemy.Act Binary64) :=
  [.frame scene, .damage 2, .frame scene, .frame scene, .frame scene, .frame scene, .damage 1]

/-- A sentry with two routines reads the times of the first one, then those of the second one, which
loops, and is finished once it is hit enough. -/
theorem run_schedule_acts :
    sentry.readings acts = [⟨0, 0⟩, ⟨0, 1⟩, ⟨1, 0⟩, ⟨1, 1⟩, ⟨1, 0⟩] ∧
    ((sentry.run acts).play scene).report = .finished ∧
    Enemy.OnSchedule routines (sentry.run acts) (sentry.readings acts) := by
  refine ⟨by decide +kernel, by decide +kernel,
    Enemy.run_schedule rfl (List.cons_ne_nil _ _) ?_ ?_ acts⟩
  · intro r hr
    rcases List.mem_cons.1 hr with rfl | hr
    · exact Routine.rewind_ofScript _
    · obtain rfl := List.mem_singleton.1 hr
      exact Routine.rewind_ofScript _
  · decide +kernel

end Patrol

end Barrage
