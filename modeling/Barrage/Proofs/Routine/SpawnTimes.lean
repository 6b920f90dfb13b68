import Barrage.Proofs.Routine.ShotTable

/-!
# The times of a row or a circle

A row or a circle that is fired again and again is fired on every `interval`-th frame from its start
on, and the last frame of the routine is one of them if an interval ends there. Frames are counted
in words of 32 bits. Near the largest word a walk through the frames (`Walk`) could go wrong in two
ways: a sum that wraps around leads back to early frames, and the last frame may have no next one to
stop at. A step of the walk is seen by the first number that is not passed yet (`Walk.place`), which
may be no word any more: the step goes on by what it is told to leave out, or the walk is at its end
(`Walk.take?_of_le`, `Walk.take?_of_lt`). So the words that are taken are the times
(`Walk.takes_iff`).

`spawnLaw_spawnTimes` says this of every timing, and that a routine fires each shot of a row or a
circle as often on a frame as that is one of its times.
-/

namespace Barrage

/-! ## Up to the last frame -/

section
variable {start interval last : Nat}

/-- There is no time if the last frame comes before the first time. -/
theorem timesThrough_of_lt (h : last < start) : timesThrough start interval last = [] := if_pos h

/-- To come up to the last frame is to stop before the next one. -/
theorem timesThrough_eq_timesBefore (hinterval : 0 < interval) :
    timesThrough start interval last = timesBefore start interval (last + 1) := by
  rcases Nat.lt_or_ge last start with hlt | hle
  · rw [timesThrough_of_lt hlt, timesBefore_of_le hinterval hlt]
  · have hcount : last + 1 - start + interval - 1 = last - start + interval := by omega
    rw [timesThrough, if_neg (Nat.not_lt.2 hle), timesBefore, hcount,
      Nat.add_div_right _ hinterval]

/-- The first time comes before those from the next one on. -/
theorem timesThrough_of_le (hinterval : 0 < interval) (h : start ≤ last) :
    timesThrough start interval last =
      start :: timesThrough (start + interval) interval last := by
  rw [timesThrough_eq_timesBefore hinterval, timesBefore_of_lt hinterval (Nat.lt_succ_of_le h),
    ← timesThrough_eq_timesBefore hinterval]

/-- The times are counted by the intervals that fit in. -/
theorem length_timesThrough : (timesThrough start interval last).length =
    if last < start then 0 else (last - start) / interval + 1 := by
  unfold timesThrough
  split
  · rfl
  · exact List.length_range'

/-- The times one by one. -/
theorem getElem?_timesThrough (hinterval : 0 < interval) (k : Nat) :
    (timesThrough start interval last)[k]? =
      if start + k * interval ≤ last then some (start + k * interval) else none := by
  induction k generalizing start with
  | zero =>
    rcases Nat.lt_or_ge last start with hlt | hle
    · simp [timesThrough_of_lt hlt, Nat.not_le.2 hlt]
    · simp [timesThrough_of_le hinterval hle, hle]
  | succ k ih =>
    have hnext : start + interval + k * interval = start + (k + 1) * interval := by
      rw [Nat.add_one_mul]
      omega
    rcases Nat.lt_or_ge last start with hlt | hle
    · rw [timesThrough_of_lt hlt, List.getElem?_nil, if_neg (by omega)]
    · rw [timesThrough_of_le hinterval hle, List.getElem?_cons_succ, ih, hnext]

/-- The times are in order. -/
theorem pairwise_timesThrough (hinterval : 0 < interval) :
    (timesThrough start interval last).Pairwise (· < ·) := by
  rw [timesThrough_eq_timesBefore hinterval]
  exact List.pairwise_lt_range' interval hinterval

end

namespace Timing

variable {timing : Timing} {last : Nat}

/-- A timing that is not continuous gives the times that it lists. -/
theorem spawnTimes_of_listed (h : timing.continuous = false) :
    timing.spawnTimes last = timing.times := by
  simp [spawnTimes, h]

/-- A continuous timing gives the times in its interval, the last one included. -/
theorem spawnTimes_of_interval (h : timing.continuous = true) (hinterval : 0 < timing.interval) :
    timing.spawnTimes last = timesThrough timing.start timing.interval last := by
  simp [spawnTimes, h, Nat.ne_of_gt hinterval]

/-- Without an interval only the first time is left. -/
theorem spawnTimes_of_no_interval (h : timing.continuous = true) (hinterval : timing.interval = 0) :
    timing.spawnTimes last = if timing.start ≤ last then [timing.start] else [] := by
  simp [spawnTimes, h, hinterval]

/-- The times of a continuous timing are in order. -/
theorem pairwise_spawnTimes (h : timing.continuous = true) :
    (timing.spawnTimes last).Pairwise (· < ·) := by
  rcases Nat.eq_zero_or_pos timing.interval with hzero | hpos
  · rw [spawnTimes_of_no_interval h hzero]
    split
    · exact List.pairwise_singleton _ _
    · exact .nil
  · exact spawnTimes_of_interval h hpos ▸ pairwise_timesThrough hpos

/-- A continuous timing that starts too late gives no time. -/
theorem spawnTimes_of_late (h : timing.continuous = true) (hlate : last < timing.start) :
    timing.spawnTimes last = [] := by
  rcases Nat.eq_zero_or_pos timing.interval with hzero | hpos
  · exact (spawnTimes_of_no_interval h hzero).trans (if_neg (Nat.not_le.2 hlate))
  · exact (spawnTimes_of_interval h hpos).trans (timesThrough_of_lt hlate)

end Timing

/-! ## A walk through words -/

/-- A walk through the words from `next` to `last`, both included. There need not be a word behind
`last`, so it is noted when the walk is spent. -/
structure Walk where
  next : UInt32
  last : UInt32
  spent : Bool

namespace Walk

/-- Leaves out some words and takes the next one, if the walk has so many. A sum that wraps around
is less than what was added to. -/
def take? (w : Walk) (skipped : UInt32) : Option (UInt32 × Walk) :=
  let word := w.next + skipped
  if w.spent || word < w.next || w.last < word then none
  else some (word, if word = w.last then { w with spent := true } else { w with next := word + 1 })

/-- The words that are taken when some are left out first, and then all but each `interval`-th one
from there. -/
inductive Takes (interval : UInt32) : Walk → UInt32 → List UInt32 → Prop
  | ended {w : Walk} {skipped : UInt32} : w.take? skipped = none → Takes interval w skipped []
  | taken {w rest : Walk} {skipped word : UInt32} {words : List UInt32} :
      w.take? skipped = some (word, rest) → Takes interval rest (interval - 1) words →
        Takes interval w skipped (word :: words)

/-- The first number that the walk has not passed. -/
def place (w : Walk) : Nat := if w.spent then w.last.toNat + 1 else w.next.toNat

section
variable {w : Walk} {skipped interval : UInt32} {words : List UInt32}

/-- A walk that is spent has passed all words, and the sum wraps around only behind the last one. -/
theorem take?_of_lt (h : w.last.toNat < w.place + skipped.toNat) : w.take? skipped = none := by
  cases hspent : w.spent with
  | true => simp [take?, hspent]
  | false =>
    have hword := UInt32.toNat_add w.next skipped
    have hlast := w.last.toNat_lt
    have hskipped := skipped.toNat_lt
    have hplace : w.place = w.next.toNat := by simp [place, hspent]
    rw [take?, if_pos]
    simp only [hspent, Bool.false_or, Bool.or_eq_true, decide_eq_true_eq, UInt32.lt_iff_toNat_lt]
    omega

/-- A word that is taken is passed. If it is the last one, the first number behind it may be no
word. -/
theorem take?_of_le (h : w.place + skipped.toNat ≤ w.last.toNat) :
    ∃ word rest, w.take? skipped = some (word, rest) ∧ word.toNat = w.place + skipped.toNat ∧
      rest.place = word.toNat + 1 ∧ rest.last = w.last := by
  have hlast := w.last.toNat_lt
  have hspent : w.spent = false := by
    refine Bool.eq_false_iff.2 fun hspent => ?_
    simp only [place, hspent, if_true] at h
    omega
  have hplace : w.place = w.next.toNat := by simp [place, hspent]
  have hword : (w.next + skipped).toNat = w.next.toNat + skipped.toNat := by
    rw [UInt32.toNat_add]
    omega
  refine ⟨w.next + skipped, _, if_neg ?_, hplace ▸ hword, ?_, ?_⟩
  · simp only [hspent, Bool.false_or, Bool.or_eq_true, decide_eq_true_eq, UInt32.lt_iff_toNat_lt]
    omega
  · split
    · next heq => simp [place, heq]
    · next hne =>
      -- only a walk that goes on adds one, and then there is a word behind
      rw [← UInt32.toNat_inj] at hne
      simp only [place, hspent, Bool.false_eq_true, if_false, UInt32.toNat_add, UInt32.toNat_one]
      omega
  · split <;> rfl

/-- Each word that is taken is passed, so a walk comes to its end, whatever is left out. -/
theorem exists_takes (interval : UInt32) (w : Walk) (skipped : UInt32) :
    ∃ words, Takes interval w skipped words := by
  induction hleft : w.last.toNat + 1 - w.place using Nat.strong_induction_on
    generalizing w skipped with
  | _ left ih =>
    rcases Nat.lt_or_ge w.last.toNat (w.place + skipped.toNat) with hlt | hle
    · exact ⟨[], .ended (take?_of_lt hlt)⟩
    · obtain ⟨word, rest, htake, hword, hplace, hlast⟩ := take?_of_le hle
      obtain ⟨words, hwords⟩ := ih (rest.last.toNat + 1 - rest.place)
        (by rw [hlast]; omega) rest (interval - 1) rfl
      exact ⟨word :: words, .taken htake hwords⟩

/-- Every step unrolls the times once. -/
theorem Takes.map_toNat (h : Takes interval w skipped words) (hinterval : 0 < interval.toNat) :
    words.map UInt32.toNat =
      timesThrough (w.place + skipped.toNat) interval.toNat w.last.toNat := by
  induction h with
  | @ended w skipped htake =>
    rcases Nat.lt_or_ge w.last.toNat (w.place + skipped.toNat) with hlt | hle
    · exact (timesThrough_of_lt hlt).symm
    · obtain ⟨word, rest, hsome, -⟩ := take?_of_le hle
      cases htake.symm.trans hsome
  | @taken w rest skipped word words htake _ ih =>
    rcases Nat.lt_or_ge w.last.toNat (w.place + skipped.toNat) with hlt | hle
    · cases htake.symm.trans (take?_of_lt hlt)
    · obtain ⟨word', rest', hsome, hword, hplace, hlast⟩ := take?_of_le hle
      cases htake.symm.trans hsome
      have hone : 1 ≤ interval := UInt32.le_iff_toNat_le.2 hinterval
      have hstep : rest.place + (interval - 1).toNat = word.toNat + interval.toNat := by
        rw [hplace, UInt32.toNat_sub_of_le _ _ hone, UInt32.toNat_one]
        omega
      rw [List.map_cons, ih, hstep, hlast, hword, timesThrough_of_le hinterval hle]

/-- The words that are taken are the times, and no sum of theirs wraps around. -/
theorem takes_iff (hinterval : 0 < interval.toNat) : Takes interval w skipped words ↔
    words.map UInt32.toNat =
      timesThrough (w.place + skipped.toNat) interval.toNat w.last.toNat := by
  refine ⟨fun h => h.map_toNat hinterval, fun h => ?_⟩
  obtain ⟨taken, htaken⟩ := exists_takes interval w skipped
  rw [← htaken.map_toNat hinterval] at h
  exact List.map_injective_iff.2 (fun _ _ => UInt32.toNat_inj.1) h ▸ htaken

end

end Walk

/-! ## The shots of a row or a circle -/

variable {K : Type} [Scalar K]

namespace PatternScript

/-- The timing of a row or a circle. -/
def timing? : PatternScript K → Option Timing
  | row r => some r.timing
  | circle c => some c.timing
  | volley _ | twister _ | unknown => none

/-- All shots of a row or a circle are fired at its times. -/
theorem exists_fires_spawnTimes {p : PatternScript K} {timing : Timing}
    (htiming : p.timing? = some timing) (hcomplete : p.complete = true) (duration : Nat) :
    ∃ shots : List (Shot K),
      p.Fires duration (shots.flatMap (cuesAt (timing.spawnTimes duration))) := by
  cases p with
  | volley _ | twister _ | unknown => cases htiming
  | row r =>
    cases htiming
    obtain ⟨shot, hplaces⟩ := RowScript.exists_places hcomplete
    refine ⟨(List.range r.count.toNat).map shot, ?_⟩
    rw [List.flatMap_map]
    exact .row hcomplete hplaces
  | circle c =>
    cases htiming
    obtain ⟨shot, hplaces⟩ := CircleScript.exists_places hcomplete
    refine ⟨(List.range c.count.toNat).map shot, ?_⟩
    rw [List.flatMap_map]
    exact .circle hcomplete hplaces

end PatternScript

omit [Scalar K] in
/-- Shots that have all their times in common are found at each time as often as it is one. -/
theorem filter_flatMap_cuesAt_const (shots : List (Shot K)) (times : List Nat) (x : Nat) :
    ((shots.flatMap (cuesAt times)).filter (·.time == x)).map (·.shot) =
      shots.flatMap (List.replicate (times.count x)) := by
  rw [List.filter_flatMap, List.map_flatMap]
  exact List.flatMap_congr fun shot _ => filter_cuesAt_eq_replicate times shot x

/-- What is known of the times of a row or a circle in a routine with the last frame `last`. -/
structure SpawnLaw (K : Type) [Scalar K] (timing : Timing) (last : Nat) : Prop where
  /-- Listed times are kept as they are listed. -/
  of_listed : timing.continuous = false → timing.spawnTimes last = timing.times
  /-- Times in intervals are, one by one, those that are not after the last frame, -/
  getElem?_eq : timing.continuous = true → 0 < timing.interval → ∀ k,
    (timing.spawnTimes last)[k]? =
      if timing.start + k * timing.interval ≤ last then some (timing.start + k * timing.interval)
      else none
  /-- so no other frame is among them, -/
  mem_iff : timing.continuous = true → 0 < timing.interval → ∀ x,
    x ∈ timing.spawnTimes last ↔ ∃ k, x = timing.start + k * timing.interval ∧ x ≤ last
  /-- and they are as many as there are whole intervals left at the start, and one. -/
  length_eq : timing.continuous = true → 0 < timing.interval →
    (timing.spawnTimes last).length =
      if last < timing.start then 0 else (last - timing.start) / timing.interval + 1
  /-- Intervals of no frames are no reason to fire again. -/
  of_no_interval : timing.continuous = true → timing.interval = 0 →
    timing.spawnTimes last = if timing.start ≤ last then [timing.start] else []
  /-- Times that are not listed go up, -/
  pairwise : timing.continuous = true → (timing.spawnTimes last).Pairwise (· < ·)
  /-- and there are none if the start is late. -/
  of_late : timing.continuous = true → last < timing.start → timing.spawnTimes last = []
  /-- Frames that are words are walked through in words, up to the largest one. -/
  takes_iff : timing.continuous = true → 0 < timing.interval →
    ∀ start interval stop : UInt32, start.toNat = timing.start →
      interval.toNat = timing.interval → stop.toNat = last → ∀ words,
        Walk.Takes interval ⟨start, stop, false⟩ 0 words ↔
          words.map UInt32.toNat = timing.spawnTimes last
  /-- A routine gains the shots of a row or a circle at these times, behind those it has: each of
  them as often as the frame is one of the times. -/
  fired : ∀ (r : Routine K) (p : PatternScript K), r.duration = last →
    p.timing? = some timing → p.complete = true → ∃ shots : List (Shot K),
      p.Fires last (shots.flatMap (cuesAt (timing.spawnTimes last))) ∧
      ∀ x, (r.addPattern p).shots[x]?.getD [] = r.shots[x]?.getD [] ++
        shots.flatMap (List.replicate ((timing.spawnTimes last).count x))

/-- Every timing follows the law, whatever the last frame is. -/
theorem spawnLaw_spawnTimes (K : Type) [Scalar K] (timing : Timing) (last : Nat) :
    SpawnLaw K timing last where
  of_listed := Timing.spawnTimes_of_listed
  getElem?_eq := fun h hpos k => by
    rw [Timing.spawnTimes_of_interval h hpos, getElem?_timesThrough hpos]
  mem_iff := fun h hpos x => by
    rw [Timing.spawnTimes_of_interval h hpos, mem_timesThrough hpos]
  length_eq := fun h hpos => by
    rw [Timing.spawnTimes_of_interval h hpos, length_timesThrough]
  of_no_interval := Timing.spawnTimes_of_no_interval
  pairwise := Timing.pairwise_spawnTimes
  of_late := Timing.spawnTimes_of_late
  takes_iff := fun h hpos start interval stop hstart hinterval hstop words => by
    rw [Timing.spawnTimes_of_interval h hpos, ← hstart, ← hinterval, ← hstop]
    exact Walk.takes_iff (hinterval ▸ hpos)
  fired := fun r p hduration htiming hcomplete => by
    obtain ⟨shots, hfires⟩ := PatternScript.exists_fires_spawnTimes htiming hcomplete last
    refine ⟨shots, hfires, fun x => ?_⟩
    rw [Routine.addPattern, ShotTable.getD_addAll, hduration, ← hfires.eq_cues,
      filter_flatMap_cuesAt_const]

/-- The largest word is a time if an interval ends there. -/
example : (⟨true, [], 3, lastTime - 6⟩ : Timing).spawnTimes lastTime =
    [lastTime - 6, lastTime - 3, lastTime] := by decide

end Barrage
