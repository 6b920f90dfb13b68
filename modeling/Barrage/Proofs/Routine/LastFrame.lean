import Mathlib.Data.List.Sort
import Barrage.Number.Binary64
import Barrage.Proofs.Routine.SpawnTimes

/-!
# The last frame

A routine is over only past its duration, so its last frame is played, and a row or a circle that is
repeated is fired on it. The loop that repeats the shots of a sweep stops one frame earlier. A shot
of a sweep and a row that accompanies it (`Timing.Accompanies`) start together and go on in the same
steps, but the times of the shot are those of the row before the last frame
(`TwisterScript.timesAt_eq_filter`).

`lastFrameLaw_addPattern` says what this does to the table of shots: the sweep is in it on all
frames of the rows but the last one. So the sweep and its rows agree unless some shot would be fired
there.
-/

namespace Barrage

/-! ## Up to the last frame, and before it -/

section
variable {start interval last x : Nat}

/-- The times before a frame are those up to it, without the frame itself. -/
theorem timesBefore_eq_filter (h : 0 < interval) :
    timesBefore start interval last = (timesThrough start interval last).filter (· < last) := by
  have hbefore : (timesBefore start interval last).Pairwise (· < ·) :=
    List.pairwise_lt_range' interval h
  refine hbefore.eq_of_mem_iff ((pairwise_timesThrough h).filter _) fun x => ?_
  rw [List.mem_filter, mem_timesBefore h, mem_timesThrough h, decide_eq_true_eq]
  constructor
  · rintro ⟨k, hx, hlt⟩
    exact ⟨⟨k, hx, hlt.le⟩, hlt⟩
  · rintro ⟨⟨k, hx, -⟩, hlt⟩
    exact ⟨k, hx, hlt⟩

end

variable {K : Type} [Scalar K]

/-- A row or a circle that starts with a shot of a sweep and is fired as often as the sweep is
repeated. -/
structure Timing.Accompanies (timing : Timing) (t : TwisterScript K) (i : Nat) : Prop where
  continuous_eq : timing.continuous = true
  start_eq : timing.start = t.firstAt i
  interval_eq : timing.interval = t.cycle

section
variable {timing : Timing} {t : TwisterScript K} {duration i x : Nat}

/-- A row that accompanies a shot of a sweep is fired at the multiples of the cycle, the last frame
included. -/
theorem Timing.Accompanies.spawnTimes_eq (h : timing.Accompanies t i) (hcycle : 0 < t.cycle) :
    timing.spawnTimes duration = timesThrough (t.firstAt i) t.cycle duration := by
  have hpos : 0 < timing.interval := h.interval_eq ▸ hcycle
  rw [spawnTimes_of_interval h.continuous_eq hpos, h.start_eq, h.interval_eq]

/-- The times of the row are those at which its shot would be fired, the last frame included. -/
theorem Timing.Accompanies.mem_spawnTimes (h : timing.Accompanies t i) (hcycle : 0 < t.cycle) :
    x ∈ timing.spawnTimes duration ↔ ∃ k, x = t.firstAt i + k * t.cycle ∧ x ≤ duration := by
  rw [h.spawnTimes_eq hcycle, mem_timesThrough hcycle]

/-- The shot is fired with the row, up to the last frame. -/
theorem TwisterScript.timesAt_eq_filter (hcontinuous : t.continuous = true) (hcycle : 0 < t.cycle)
    (hduration : duration ≤ lastTime) (h : timing.Accompanies t i) :
    t.timesAt duration i = (timing.spawnTimes duration).filter (· < duration) := by
  rw [(repeats_timesAt hcontinuous hduration i).eq_timesBefore hcycle hduration,
    timesBefore_eq_filter hcycle, h.spawnTimes_eq hcycle]

/-- A sweep is fired on a frame if that is one of the times of its shots. -/
theorem Routine.getD_addPattern_twister {r : Routine K} {shot : Nat → Shot K}
    (hcomplete : t.complete = true) (hshot : ∀ i, t.shot? i (t.degreesAt i) = some (shot i))
    (hduration : r.duration ≤ lastTime) (x : Nat) :
    (r.addPattern (.twister t)).shots[x]?.getD [] = r.shots[x]?.getD [] ++
      ((List.range t.count).filter (x ∈ t.timesAt r.duration ·)).map shot := by
  have hcues : PatternScript.cues r.duration (.twister t) = t.cues r.duration := if_pos hcomplete
  rw [addPattern, ShotTable.getD_addAll, hcues, TwisterScript.cues_eq hshot,
    filter_flatMap_cuesAt (TwisterScript.pairwise_timesAt hduration)]

end

omit [Scalar K] in
/-- Up to its last frame, time is all that changes in a routine. -/
theorem Routine.advance_iterate {r : Routine K} (htime : r.time = 0)
    (hduration : r.duration ≤ lastTime) {frames : Nat} (hframes : frames ≤ r.duration) :
    advance^[frames] r = { r with time := frames } := by
  induction frames with
  | zero =>
    rw [Function.iterate_zero, id]
    exact congrArg (fun time => { r with time }) htime
  | succ frames ih =>
    have hsucc : addTime frames 1 = frames + 1 := Nat.min_eq_left (hframes.trans hduration)
    have hnot : ¬r.duration < frames + 1 := Nat.not_lt.2 hframes
    rw [Function.iterate_succ_apply', ih (Nat.le_of_succ_le hframes)]
    simp [advance, hsucc, hnot]

/-- What is known of a sweep that is repeated in a routine, and of rows that accompany its shots. -/
structure LastFrameLaw (r : Routine K) (t : TwisterScript K) (timing : Nat → Timing)
    (shot : Nat → Shot K) : Prop where
  shot_eq : ∀ i, t.shot? i (t.degreesAt i) = some (shot i)
  /-- Each row starts when it is the turn of its shot, -/
  start_eq : ∀ i, t.start + i * t.interval ≤ lastTime →
    (timing i).start = t.start + i * t.interval
  /-- and is fired after whole cycles from then on, also on the last frame. -/
  mem_spawnTimes : ∀ i x, x ∈ (timing i).spawnTimes r.duration ↔
    ∃ k, x = (timing i).start + k * t.cycle ∧ x ≤ r.duration
  /-- The shot is fired at the times of its row that are before the last frame. -/
  timesAt_eq : ∀ i, t.timesAt r.duration i =
    ((timing i).spawnTimes r.duration).filter (· < r.duration)
  /-- So the two agree unless the last frame is a whole number of cycles after the start. -/
  agree_iff : ∀ i, t.timesAt r.duration i = (timing i).spawnTimes r.duration ↔
    ∀ k, (timing i).start + k * t.cycle ≠ r.duration
  /-- On all frames but the last one the routine gains the shots whose rows are fired then. -/
  shots_eq : ∀ x, x ≠ r.duration → (r.addPattern (.twister t)).shots[x]?.getD [] =
    r.shots[x]?.getD [] ++
      ((List.range t.count).filter fun i => x ∈ (timing i).spawnTimes r.duration).map shot
  /-- The last frame gains none, -/
  last_eq : (r.addPattern (.twister t)).shots[r.duration]?.getD [] = r.shots[r.duration]?.getD []
  /-- though the routine comes to it, and is over on it only without hit points. -/
  last_played : r.time = 0 → (Routine.advance^[r.duration] r).time = r.duration ∧
    (Routine.advance^[r.duration] r).isFinished = r.hitPoints.any (·.current == 0)

/-- A sweep that is repeated follows the law in any routine. -/
theorem lastFrameLaw_addPattern {r : Routine K} {t : TwisterScript K} {timing : Nat → Timing}
    (hcomplete : t.complete = true) (hcontinuous : t.continuous = true) (hcycle : 0 < t.cycle)
    (hstart : t.start ≤ lastTime) (hduration : r.duration ≤ lastTime)
    (htiming : ∀ i, (timing i).Accompanies t i) : ∃ shot, LastFrameLaw r t timing shot := by
  obtain ⟨shot, hshot⟩ := TwisterScript.exists_shot hcomplete
  have hmem : ∀ i x, x ∈ (timing i).spawnTimes r.duration ↔
      ∃ k, x = (timing i).start + k * t.cycle ∧ x ≤ r.duration := fun i x => by
    rw [(htiming i).mem_spawnTimes hcycle, (htiming i).start_eq]
  have htimes : ∀ i, t.timesAt r.duration i =
      ((timing i).spawnTimes r.duration).filter (· < r.duration) := fun i =>
    TwisterScript.timesAt_eq_filter hcontinuous hcycle hduration (htiming i)
  have hshots := Routine.getD_addPattern_twister hcomplete hshot hduration
  refine ⟨shot, hshot, fun i hle => ?_, hmem, htimes, fun i => ?_, fun x hx => ?_, ?_, ?_⟩
  · rw [(htiming i).start_eq, TwisterScript.firstAt_eq hstart, Nat.min_eq_left hle]
  · rw [htimes i, List.filter_eq_self]
    constructor
    · intro hall k hk
      have hlt := hall r.duration ((hmem i _).2 ⟨k, hk.symm, le_rfl⟩)
      exact absurd (of_decide_eq_true hlt) (Nat.lt_irrefl _)
    · intro hne x hx
      obtain ⟨k, rfl, hle⟩ := (hmem i x).1 hx
      exact decide_eq_true (Nat.lt_of_le_of_ne hle (hne k))
  · rw [hshots]
    refine congrArg (fun places => _ ++ places.map shot) (List.filter_congr fun i _ => ?_)
    rw [htimes i, decide_eq_decide, List.mem_filter]
    exact and_iff_left_of_imp fun hmem' =>
      decide_eq_true (Nat.lt_of_le_of_ne ((hmem i x).1 hmem').choose_spec.2 hx)
  · have hnone : (List.range t.count).filter (r.duration ∈ t.timesAt r.duration ·) = [] := by
      refine List.filter_eq_nil_iff.2 fun i _ => ?_
      simp [htimes i]
    rw [hshots, hnone, List.map_nil, List.append_nil]
  · intro htime
    rw [Routine.advance_iterate htime hduration le_rfl]
    simp [Routine.isFinished]

/-! ## A shot that is due on the last frame -/

/-- A sweep of one shot, every five frames. -/
def drumbeat : TwisterScript Binary64 where
  anchor := .middle
  offset := .zero
  speeds := [Scalar.whole 1]
  startDegree := 0
  finishDegree := Scalar.whole 1
  direction := .clockwise
  step := Scalar.whole 1
  images := ["drop"]
  start := 0
  interval := 0
  radius := 0
  continuous := true
  pause := 5
  damage := none

/-- A routine whose last frame is two cycles after its first one. -/
def march : Routine Binary64 := .new "march" false 10 none

/-- A row that is fired every five frames. -/
def drumline : Timing := ⟨true, [], 5, 0⟩

/-- The sweep comes back every five frames. -/
theorem cycle_drumbeat : drumbeat.cycle = 5 := by decide +kernel

/-- The sweep starts with the row, whatever the place of its shot is. -/
theorem accompanies_drumline (i : Nat) : drumline.Accompanies drumbeat i := by
  refine ⟨rfl, ?_, cycle_drumbeat.symm⟩
  rw [TwisterScript.firstAt_eq (Nat.zero_le _)]
  simp [drumline, drumbeat]

/-- The row is fired on the last frame, and the sweep is not. -/
theorem drumbeat_not_last : drumline.Accompanies drumbeat 0 ∧
    drumline.spawnTimes march.duration = [0, 5, 10] ∧
    drumbeat.timesAt march.duration 0 = [0, 5] ∧
    (Routine.advance^[10] (march.addPattern (.twister drumbeat))).time = 10 ∧
    (Routine.advance^[10] (march.addPattern (.twister drumbeat))).isFinished = false ∧
    (Routine.advance^[10] (march.addPattern (.twister drumbeat))).currentShots.getD [] = [] := by
  have haccompanies := accompanies_drumline 0
  have htimes : drumbeat.timesAt march.duration 0 = [0, 5] := by
    rw [TwisterScript.timesAt_eq_filter rfl (by simp [cycle_drumbeat]) (by decide) haccompanies]
    decide
  obtain ⟨shot, hshot⟩ := TwisterScript.exists_shot (t := drumbeat) rfl
  have hcount : drumbeat.count = 1 := by decide +kernel
  have hlast := Routine.getD_addPattern_twister (r := march) rfl hshot (by decide) 10
  have hgo := Routine.advance_iterate (r := march.addPattern (.twister drumbeat)) rfl (by decide)
    (le_refl 10)
  rw [hcount, List.range_one, List.filter_singleton, htimes] at hlast
  refine ⟨haccompanies, by decide, htimes, ?_, ?_, ?_⟩
  · rw [hgo]
  · rw [hgo]
    rfl
  · rw [hgo]
    exact hlast

/-- The row and the sweep differ as the law says. -/
theorem lastFrameLaw_drumbeat :
    (drumbeat.complete = true ∧ drumbeat.continuous = true ∧ 0 < drumbeat.cycle ∧
      drumbeat.start ≤ lastTime ∧ march.duration ≤ lastTime ∧
      ∀ i, ((fun _ => drumline : Nat → Timing) i).Accompanies drumbeat i) ∧
    ∃ shot, LastFrameLaw march drumbeat (fun _ => drumline) shot := by
  have hcomplete : drumbeat.complete = true := rfl
  have hcycle : 0 < drumbeat.cycle := by simp [cycle_drumbeat]
  have hduration : march.duration ≤ lastTime := by decide
  exact ⟨⟨hcomplete, rfl, hcycle, Nat.zero_le _, hduration, accompanies_drumline⟩,
    lastFrameLaw_addPattern hcomplete rfl hcycle (Nat.zero_le _) hduration accompanies_drumline⟩

end Barrage
