import Barrage.Proofs.Number.Exact
import Barrage.Proofs.Routine.Expansion
import Barrage.Routine.Basic

/-!
# The times of a sweep

The shots of a sweep are `interval` frames apart, and a sweep that is repeated starts again after
its cycle. All sums of times stop at the last time. A shot that is first fired there, or that would
be repeated there, is not fired before the end of any routine, so stopping loses nothing: the loop
that repeats a shot ends (`repeats_repeatBefore`), and it has passed the true multiples of the cycle
(`Repeats.eq_timesBefore`).

`sweepLaw_addPattern` says for each shot of a sweep when it is fired, and that the table of shots of
a routine gains these shots and no others.
-/

namespace Barrage

/-! ## Repeating one shot -/

/-- Sums of times stop at the last time. -/
theorem addTime_le_lastTime (a b : Nat) : addTime a b ≤ lastTime := Nat.min_le_right _ _

/-- How the loop goes that repeats a shot: the next time, and the times at which the shot is fired
from then on. It looks at nothing but the end of the routine, so that it could go on forever if the
times did not grow. -/
inductive Repeats (cycle stop : Nat) : Nat → List Nat → Prop
  | ended {next : Nat} : stop ≤ next → Repeats cycle stop next []
  | once {next : Nat} : next < stop → cycle = 0 → Repeats cycle stop next [next]
  | again {next : Nat} {times : List Nat} : next < stop → 0 < cycle →
      Repeats cycle stop (addTime next cycle) times → Repeats cycle stop next (next :: times)

/-- Every `interval`-th time from `start` on that is before `stop`. -/
def timesBefore (start interval stop : Nat) : List Nat :=
  List.range' start ((stop - start + interval - 1) / interval) interval

section
variable {start interval cycle stop next x : Nat} {times : List Nat}

/-- The times before a frame are the first one and those whole intervals later. -/
theorem mem_timesBefore (h : 0 < interval) :
    x ∈ timesBefore start interval stop ↔ ∃ k, x = start + k * interval ∧ x < stop := by
  unfold timesBefore
  rw [List.mem_range']
  constructor
  · rintro ⟨i, hi, rfl⟩
    refine ⟨i, by rw [Nat.mul_comm], ?_⟩
    have := (Nat.lt_div_iff_mul_lt h).1 hi
    rw [Nat.mul_comm] at this
    omega
  · rintro ⟨k, rfl, hk⟩
    exact ⟨k, (Nat.lt_div_iff_mul_lt h).2 (by omega), by rw [Nat.mul_comm]⟩

/-- There is no time before a frame that comes no later than the first time. -/
theorem timesBefore_of_le (hinterval : 0 < interval) (h : stop ≤ start) :
    timesBefore start interval stop = [] := by
  refine List.eq_nil_iff_forall_not_mem.2 fun x hx => ?_
  obtain ⟨k, rfl, hk⟩ := (mem_timesBefore hinterval).1 hx
  omega

/-- The first time comes before those from the next one on. -/
theorem timesBefore_of_lt (hinterval : 0 < interval) (h : start < stop) :
    timesBefore start interval stop =
      start :: timesBefore (start + interval) interval stop := by
  have hcount : (stop - start + interval - 1) / interval =
      (stop - (start + interval) + interval - 1) / interval + 1 := by
    rcases Nat.lt_or_ge (start + interval) stop with hlt | hge
    · rw [← Nat.add_div_right _ hinterval]
      congr 1
      omega
    · rw [Nat.div_eq_of_lt (by omega : stop - (start + interval) + interval - 1 < interval)]
      exact Nat.div_eq_of_lt_le (by omega) (by omega)
  rw [timesBefore, hcount, List.range'_succ, timesBefore]

/-- The loop ends, whatever the cycle is: a time before the end of a routine is not the last one, so
the next time is a later one. -/
theorem repeats_repeatBefore (hstop : stop ≤ lastTime) (cycle next : Nat) (known : Array Nat) :
    ∃ times, (repeatBefore cycle stop next known).toList = known.toList ++ times ∧
      Repeats cycle stop next times := by
  fun_induction repeatBefore cycle stop next known with
  | case1 next known hlt known' hzero =>
    exact ⟨[next], Array.toList_push, .once (Nat.lt_min.1 hlt).1 hzero⟩
  | case2 next known hlt known' hpos ih =>
    obtain ⟨times, htimes, hrepeats⟩ := ih
    refine ⟨next :: times, ?_, .again (Nat.lt_min.1 hlt).1 (Nat.pos_of_ne_zero hpos) hrepeats⟩
    rw [htimes, Array.toList_push, List.append_assoc, List.singleton_append]
  | case3 next known hge =>
    rw [Nat.min_eq_left hstop] at hge
    exact ⟨[], (List.append_nil _).symm, .ended (Nat.le_of_not_lt hge)⟩

/-- Shots are repeated at the multiples of the cycle, though the sums of times stop. -/
theorem Repeats.eq_timesBefore (h : Repeats cycle stop next times) (hcycle : 0 < cycle)
    (hstop : stop ≤ lastTime) : times = timesBefore next cycle stop := by
  induction h with
  | ended hle => exact (timesBefore_of_le hcycle hle).symm
  | once _ hzero => omega
  | @again next times hlt _ _ ih =>
    rw [ih, timesBefore_of_lt hcycle hlt, addTime]
    rcases Nat.le_total (next + cycle) lastTime with hle | hle
    · rw [Nat.min_eq_left hle]
    · rw [Nat.min_eq_right hle, timesBefore_of_le hcycle hstop,
        timesBefore_of_le hcycle (hstop.trans hle)]

/-- Without a cycle a shot is fired once at most. -/
theorem Repeats.eq_of_zero (h : Repeats 0 stop next times) :
    times = if next < stop then [next] else [] := by
  cases h with
  | ended hle => exact (if_neg (Nat.not_lt.2 hle)).symm
  | once hlt _ => exact (if_pos hlt).symm
  | again _ hpos _ => exact absurd hpos (Nat.lt_irrefl 0)

/-- A shot is repeated before the end only. -/
theorem Repeats.lt_stop (h : Repeats cycle stop next times) (hx : x ∈ times) : x < stop := by
  induction h with
  | ended _ => cases hx
  | once hlt _ => exact List.mem_singleton.1 hx ▸ hlt
  | again hlt _ _ ih =>
    rcases List.mem_cons.1 hx with rfl | hx
    · exact hlt
    · exact ih hx

/-- The repetitions of a shot are in order. -/
theorem Repeats.pairwise_lt (h : Repeats cycle stop next times) (hstop : stop ≤ lastTime) :
    times.Pairwise (· < ·) := by
  rcases Nat.eq_zero_or_pos cycle with rfl | hpos
  · rw [h.eq_of_zero]
    split
    · exact List.pairwise_singleton _ _
    · exact .nil
  · rw [h.eq_timesBefore hpos hstop, timesBefore]
    exact List.pairwise_lt_range' cycle hpos

end

/-! ## One sweep -/

variable {K : Type} [Scalar K]

namespace TwisterScript

/-- The angle of the shot at a place of the sweep. -/
def degreesAt (t : TwisterScript K) : Nat → K
  | 0 => t.startDegree
  | i + 1 => t.degreesAt i + t.direction.sign * t.step

/-- The time at which the shot at a place of the sweep is fired first. -/
def firstAt (t : TwisterScript K) : Nat → Nat
  | 0 => t.start
  | i + 1 => addTime (t.firstAt i) t.interval

/-- All times of the shot at a place of the sweep. -/
def timesAt (t : TwisterScript K) (duration i : Nat) : List Nat :=
  t.times duration (t.firstAt i)

section
variable {t : TwisterScript K} {duration : Nat}

omit [Scalar K] in
/-- The shots of a sweep follow each other in its interval, up to the last time. -/
theorem firstAt_eq (hstart : t.start ≤ lastTime) (i : Nat) :
    t.firstAt i = min (t.start + i * t.interval) lastTime := by
  induction i with
  | zero => rw [firstAt, Nat.zero_mul, Nat.add_zero, Nat.min_eq_left hstart]
  | succ i ih =>
    rw [firstAt, ih, addTime, Nat.add_one_mul]
    omega

/-- A sweep that is not continuous fires each shot once. -/
theorem timesAt_eq_singleton (h : t.continuous = false) (i : Nat) :
    t.timesAt duration i = [t.firstAt i] := by
  rw [timesAt, times, h]
  rfl

/-- A continuous sweep repeats each shot in its cycle. -/
theorem repeats_timesAt (h : t.continuous = true) (hduration : duration ≤ lastTime) (i : Nat) :
    Repeats t.cycle duration (t.firstAt i) (t.timesAt duration i) := by
  obtain ⟨times, htimes, hrepeats⟩ := repeats_repeatBefore hduration t.cycle (t.firstAt i) #[]
  rw [timesAt, TwisterScript.times, h]
  exact htimes ▸ hrepeats

/-- The times of a repeated shot are whole cycles after its first one. -/
theorem mem_timesAt (h : t.continuous = true) (hcycle : 0 < t.cycle)
    (hduration : duration ≤ lastTime) (i x : Nat) : x ∈ t.timesAt duration i ↔
      ∃ k, x = t.firstAt i + k * t.cycle ∧ x < duration := by
  rw [(repeats_timesAt h hduration i).eq_timesBefore hcycle hduration]
  exact mem_timesBefore hcycle

/-- Without a cycle a continuous sweep fires each shot once, if it is before the end. -/
theorem timesAt_of_cycle_eq_zero (h : t.continuous = true) (hcycle : t.cycle = 0)
    (hduration : duration ≤ lastTime) (i : Nat) :
    t.timesAt duration i = if t.firstAt i < duration then [t.firstAt i] else [] := by
  have hrepeats := repeats_timesAt h hduration i
  rw [hcycle] at hrepeats
  exact hrepeats.eq_of_zero

/-- A shot is not fired twice at one time. -/
theorem pairwise_timesAt (hduration : duration ≤ lastTime) (i : Nat) :
    (t.timesAt duration i).Pairwise (· < ·) := by
  cases hcontinuous : t.continuous with
  | false =>
    rw [timesAt_eq_singleton hcontinuous]
    exact List.pairwise_singleton _ _
  | true => exact (repeats_timesAt hcontinuous hduration i).pairwise_lt hduration

omit [Scalar K] in
/-- No shot comes after the last time. -/
theorem firstAt_le_lastTime (hstart : t.start ≤ lastTime) (i : Nat) : t.firstAt i ≤ lastTime := by
  rw [firstAt_eq hstart]
  exact Nat.min_le_right _ _

/-- No repetition comes after the last time. -/
theorem le_lastTime_of_mem_timesAt (hstart : t.start ≤ lastTime) (hduration : duration ≤ lastTime)
    {i x : Nat} (hx : x ∈ t.timesAt duration i) : x ≤ lastTime := by
  cases hcontinuous : t.continuous with
  | false =>
    rw [timesAt_eq_singleton hcontinuous, List.mem_singleton] at hx
    exact hx ▸ firstAt_le_lastTime hstart i
  | true =>
    exact ((repeats_timesAt hcontinuous hduration i).lt_stop hx).le.trans hduration

/-- There is a shot for each place of a sweep that has its lists. -/
theorem exists_shot (hcomplete : t.complete = true) :
    ∃ shot : Nat → Shot K, ∀ i, t.shot? i (t.degreesAt i) = some (shot i) := by
  have hsome : ∀ i, ∃ shot, t.shot? i (t.degreesAt i) = some shot := fun i =>
    Option.isSome_iff_exists.1 (t.isSome_shot? hcomplete i (t.degreesAt i))
  exact Classical.skolem.1 hsome

/-- A sweep goes through its places in order, with the angle and the first time of each. -/
theorem sweep_eq (t : TwisterScript K) (duration count i : Nat) :
    t.sweep duration count i (t.degreesAt i) (t.firstAt i) =
      (List.range' i count).flatMap fun j =>
        ((t.shot? j (t.degreesAt j)).map (cuesAt (t.timesAt duration j))).getD [] := by
  induction count generalizing i with
  | zero => rfl
  | succ count ih =>
    rw [sweep, List.range'_succ, List.flatMap_cons]
    exact congrArg _ (ih (i + 1))

/-- A sweep is expanded place by place, each place at its times. -/
theorem cues_eq {shot : Nat → Shot K} (hshot : ∀ i, t.shot? i (t.degreesAt i) = some (shot i)) :
    t.cues duration = (List.range t.count).flatMap fun i =>
      cuesAt (t.timesAt duration i) (shot i) := by
  rw [List.range_eq_range']
  refine (sweep_eq t duration t.count 0).trans ?_
  simp only [hshot, Option.map_some, Option.getD_some]

end

end TwisterScript

/-! ## The table of shots -/

omit [Scalar K] in
/-- A shot is found at a time as often as that is one of its times. -/
theorem filter_cuesAt_eq_replicate (times : List Nat) (shot : Shot K) (x : Nat) :
    ((cuesAt times shot).filter (·.time == x)).map (·.shot) =
      List.replicate (times.count x) shot := by
  rw [cuesAt, List.filter_map, List.map_map]
  show (times.filter (· == x)).map (fun _ => shot) = _
  rw [List.filter_beq, List.map_replicate]

omit [Scalar K] in
/-- At one time a shot is fired once or not at all. -/
theorem filter_cuesAt {times : List Nat} (htimes : times.Pairwise (· < ·)) (shot : Shot K)
    (x : Nat) : ((cuesAt times shot).filter (·.time == x)).map (·.shot) =
      if x ∈ times then [shot] else [] := by
  have hnodup : times.Nodup := htimes.imp Nat.ne_of_lt
  rw [filter_cuesAt_eq_replicate, hnodup.count]
  split
  · exact List.replicate_one
  · rfl

omit [Scalar K] in
/-- At one time those shots are fired that have this time, in the order of their places. -/
theorem filter_flatMap_cuesAt {times : Nat → List Nat} (htimes : ∀ i, (times i).Pairwise (· < ·))
    (shot : Nat → Shot K) (x : Nat) (places : List Nat) :
    ((places.flatMap fun i => cuesAt (times i) (shot i)).filter (·.time == x)).map (·.shot) =
      (places.filter (x ∈ times ·)).map shot := by
  induction places with
  | nil => rfl
  | cons i places ih =>
    rw [List.flatMap_cons, List.filter_append, List.map_append, ih, filter_cuesAt (htimes i),
      List.filter_cons]
    by_cases hmem : x ∈ times i <;> simp [hmem]

/-- What is known of a sweep of some shots in a routine. -/
structure SweepLaw (r : Routine K) (t : TwisterScript K) (count : Nat) (shot : Nat → Shot K) :
    Prop where
  /-- These are its shots, at the times that follow. -/
  shot_eq : ∀ i, t.shot? i (t.degreesAt i) = some (shot i)
  cues_eq : PatternScript.cues r.duration (.twister t) =
    (List.range count).flatMap fun i => cuesAt (t.timesAt r.duration i) (shot i)
  first_eq : ∀ i, t.firstAt i = min (t.start + i * t.interval) lastTime
  cycle_eq : t.cycle = min (min ((count - 1) * t.interval) lastTime + t.pause) lastTime
  /-- A sweep that is not repeated fires each shot when its turn comes. -/
  of_not_continuous : t.continuous = false → ∀ i, t.timesAt r.duration i = [t.firstAt i]
  /-- If the sweep is repeated the loop ends for each shot, with its times. -/
  repeats : t.continuous = true → ∀ i,
    Repeats t.cycle r.duration (t.firstAt i) (t.timesAt r.duration i)
  /-- They are whole cycles after the first one, as long as the routine lasts. -/
  of_cycle : t.continuous = true → 0 < t.cycle → ∀ i x, x ∈ t.timesAt r.duration i ↔
    ∃ k, x = t.firstAt i + k * t.cycle ∧ x < r.duration
  /-- A cycle of no frames is not repeated. -/
  of_no_cycle : t.continuous = true → t.cycle = 0 → ∀ i,
    t.timesAt r.duration i = if t.firstAt i < r.duration then [t.firstAt i] else []
  /-- No shot is fired twice at one time. -/
  pairwise : ∀ i, (t.timesAt r.duration i).Pairwise (· < ·)
  /-- No number of shots or frames is larger than the last time. -/
  count_le : count ≤ lastTime
  cycle_le : t.cycle ≤ lastTime
  time_le : ∀ i, t.firstAt i ≤ lastTime ∧ ∀ x ∈ t.timesAt r.duration i, x ≤ lastTime
  /-- The routine gains the shots at their times, in their order and behind those it has. -/
  shots_eq : ∀ x, (r.addPattern (.twister t)).shots[x]?.getD [] = r.shots[x]?.getD [] ++
    ((List.range count).filter (x ∈ t.timesAt r.duration ·)).map shot

/-- A sweep of at least one shot follows the law in any routine. -/
theorem sweepLaw_addPattern {r : Routine K} {t : TwisterScript K} {quotient : Int}
    (hquotient : Scalar.floor? ((t.finishDegree - t.startDegree) / t.step) = some quotient)
    (hpos : 0 < quotient) (himages : t.images ≠ []) (hspeeds : t.speeds ≠ [])
    (hstart : t.start ≤ lastTime) (hduration : r.duration ≤ lastTime) :
    ∃ shot, 0 < min quotient.toNat lastTime ∧ SweepLaw r t (min quotient.toNat lastTime) shot := by
  have hcount : t.count = min quotient.toNat lastTime := by
    rw [TwisterScript.count, hquotient]
  have hcomplete : t.complete = true := by
    rw [TwisterScript.complete, List.isEmpty_eq_false_iff.2 himages,
      List.isEmpty_eq_false_iff.2 hspeeds]
    rfl
  obtain ⟨shot, hshot⟩ := TwisterScript.exists_shot hcomplete
  have hcues : PatternScript.cues r.duration (.twister t) =
      (List.range t.count).flatMap fun i => cuesAt (t.timesAt r.duration i) (shot i) :=
    (if_pos hcomplete).trans (TwisterScript.cues_eq hshot)
  have hcountPos : 0 < min quotient.toNat lastTime :=
    Nat.lt_min.2 ⟨Int.pos_iff_toNat_pos.1 hpos, by decide⟩
  refine ⟨shot, hcountPos, hcount ▸ ?_⟩
  exact {
    shot_eq := hshot
    cues_eq := hcues
    first_eq := TwisterScript.firstAt_eq hstart
    cycle_eq := rfl
    of_not_continuous := fun h => TwisterScript.timesAt_eq_singleton h
    repeats := fun h => TwisterScript.repeats_timesAt h hduration
    of_cycle := fun h hcycle => TwisterScript.mem_timesAt h hcycle hduration
    of_no_cycle := fun h hcycle => TwisterScript.timesAt_of_cycle_eq_zero h hcycle hduration
    pairwise := TwisterScript.pairwise_timesAt hduration
    count_le := hcount ▸ Nat.min_le_right _ _
    cycle_le := addTime_le_lastTime _ _
    time_le := fun i => ⟨TwisterScript.firstAt_le_lastTime hstart i,
      fun x => TwisterScript.le_lastTime_of_mem_timesAt hstart hduration⟩
    shots_eq := fun x => by
      rw [Routine.addPattern, ShotTable.getD_addAll, hcues,
        filter_flatMap_cuesAt (TwisterScript.pairwise_timesAt hduration)] }

/-- A sweep of two shots just before the last time. -/
def lateSweep : TwisterScript ℚ where
  anchor := .middle
  offset := .zero
  speeds := [1]
  startDegree := 0
  finishDegree := 2
  direction := .clockwise
  step := 1
  images := ["seed", "leaf"]
  start := lastTime - 3
  interval := 2
  radius := 0
  continuous := true
  pause := 1
  damage := none

/-- A routine that lasts until then. -/
def finale : Routine ℚ := .new "finale" false lastTime none

/-- The sums of the times of the sweep stop, and each shot is fired once. -/
theorem sweepLaw_lateSweep :
    (Scalar.floor? ((lateSweep.finishDegree - lateSweep.startDegree) / lateSweep.step) = some 2 ∧
      (0 : Int) < 2 ∧ lateSweep.images ≠ [] ∧ lateSweep.speeds ≠ [] ∧
      lateSweep.start ≤ lastTime ∧ finale.duration ≤ lastTime) ∧
    ∃ shot, 0 < min (2 : Int).toNat lastTime ∧
      SweepLaw finale lateSweep (min (2 : Int).toNat lastTime) shot := by
  have hquotient : Scalar.floor? ((lateSweep.finishDegree - lateSweep.startDegree) /
      lateSweep.step) = some 2 := by
    decide +kernel
  have himages : lateSweep.images ≠ [] := by simp [lateSweep]
  have hspeeds : lateSweep.speeds ≠ [] := by simp [lateSweep]
  have hstart : lateSweep.start ≤ lastTime := Nat.sub_le _ _
  exact ⟨⟨hquotient, by decide, himages, hspeeds, hstart, le_rfl⟩,
    sweepLaw_addPattern hquotient (by decide) himages hspeeds hstart le_rfl⟩

end Barrage
