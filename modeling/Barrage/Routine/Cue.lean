import Std.Data.ExtTreeMap
import Barrage.Script.Pattern
import Barrage.Fault
import Barrage.Warning

/-!
# Expansion of shot patterns

A pattern is expanded into cues when its routine is built: single shots with the time at which each
of them is fired. The order of the cues is the order in which shots of one frame are fired. All
velocities are given by components from then on.

Times stop at `lastTime`; no sum of times goes beyond it.
-/

namespace Barrage

variable {K : Type} [Scalar K]

/-- A shot and the time at which it is fired. -/
structure Cue (K : Type) where
  time : Nat
  shot : Shot K
  deriving DecidableEq

/-- The sum of two times, or the last time if it is beyond. -/
def addTime (a b : Nat) : Nat := min (a + b) lastTime

/-- The member at a place of a list that is used in turn. -/
def turn? {α : Type} (items : List α) (i : Nat) : Option α := items[i % items.length]?

/-- Every `interval`-th time from `start` on that is not after `last`. -/
def timesThrough (start interval last : Nat) : List Nat :=
  if last < start then [] else List.range' start ((last - start) / interval + 1) interval

/-- The times up to a last one are the first one and those whole intervals later. -/
theorem mem_timesThrough {start interval last t : Nat} (h : 0 < interval) :
    t ∈ timesThrough start interval last ↔ ∃ k, t = start + k * interval ∧ t ≤ last := by
  unfold timesThrough
  split
  · next hlt =>
    simp only [List.not_mem_nil, false_iff, not_exists, not_and]
    intro k hk
    omega
  · next hle =>
    rw [List.mem_range']
    constructor
    · rintro ⟨i, hi, rfl⟩
      refine ⟨i, by rw [Nat.mul_comm], ?_⟩
      have : interval * i ≤ last - start :=
        Nat.le_trans (Nat.mul_le_mul_left interval (Nat.le_of_lt_succ hi)) (Nat.mul_div_le _ _)
      omega
    · rintro ⟨k, rfl, hk⟩
      refine ⟨k, ?_, by rw [Nat.mul_comm]⟩
      have : k ≤ (last - start) / interval := (Nat.le_div_iff_mul_le h).2 (by omega)
      omega

/-- The times of a row or a circle in a routine that ends with frame `last`. The last frame is
included. Firings that are no frames apart are one. -/
def Timing.spawnTimes (t : Timing) (last : Nat) : List Nat :=
  if !t.continuous then t.times
  else if t.interval = 0 then
    if t.start ≤ last then [t.start] else []
  else timesThrough t.start t.interval last

/-- The times of a shot that is repeated every `cycle` frames from `next` on, behind those that are
known. It is repeated before frame `stop`, and a cycle of no frames is not repeated. No time before
`stop` is the last one, so the next time is a later one. -/
def repeatBefore (cycle stop next : Nat) (times : Array Nat) : Array Nat :=
  if next < min stop lastTime then
    let times := times.push next
    if cycle = 0 then times else repeatBefore cycle stop (addTime next cycle) times
  else times
termination_by stop - next
decreasing_by
  have hlater : next < addTime next cycle := by
    rw [addTime]
    omega
  omega

/-- A shot of a pattern, given by speed and angle. -/
def patternShot (image : String) (speed degrees : K) (offset : Vec K) (anchor : Anchor)
    (damage : Option Nat) : Shot K :=
  { image, offset, anchor, damage, velocity := (ShotVelocity.polar speed degrees).resolved }

/-- A shot at each of some times. -/
def cuesAt (times : List Nat) (shot : Shot K) : List (Cue K) := times.map (⟨·, shot⟩)

namespace VolleyScript

/-- Each shot in turn, at each of the times. -/
def cues (v : VolleyScript K) : List (Cue K) :=
  v.shots.flatMap fun shot =>
    cuesAt v.times { shot with anchor := v.anchor, velocity := shot.velocity.resolved }

end VolleyScript

namespace RowScript

/-- Whether the row has all lists it draws from. -/
def complete (r : RowScript K) : Bool :=
  !r.images.isEmpty && !r.speeds.isEmpty && !r.degrees.isEmpty

/-- The shot at a place of the row. -/
def shot? (r : RowScript K) (i : Nat) : Option (Shot K) := do
  let step := (r.xEnd - r.xStart) / Scalar.ofInt r.count
  return patternShot (← turn? r.images i) (← turn? r.speeds i) (← turn? r.degrees i)
    ⟨r.xStart + step * Scalar.whole i, r.yOffset⟩ r.anchor r.damage

/-- Each shot of the row, at each of its times. -/
def cues (r : RowScript K) (last : Nat) : List (Cue K) :=
  let times := r.timing.spawnTimes last
  ((List.range r.count.toNat).filterMap r.shot?).flatMap (cuesAt times)

end RowScript

namespace CircleScript

/-- Whether the circle has all lists it draws from. -/
def complete (c : CircleScript K) : Bool :=
  !c.images.isEmpty && !c.speeds.isEmpty && (c.spread || !c.degrees.isEmpty)

/-- The angle at which a shot of the circle appears. -/
def spawnDegree (c : CircleScript K) (i : Nat) : K :=
  let start := c.startDegree.getD 0
  let step := (c.endDegree.getD (Scalar.whole 360) - start) / Scalar.ofInt c.count
  start + step * Scalar.whole i

/-- The shot at a place of the circle. -/
def shot? (c : CircleScript K) (i : Nat) : Option (Shot K) := do
  let spawnDegree := c.spawnDegree i
  let offset := Vec.polar c.radius spawnDegree
  let degrees ← if c.spread then some spawnDegree else turn? c.degrees i
  return patternShot (← turn? c.images i) (← turn? c.speeds i) degrees
    ⟨c.offset.x + offset.x, c.offset.y + offset.y⟩ c.anchor c.damage

/-- Each shot of the circle, at each of its times. -/
def cues (c : CircleScript K) (last : Nat) : List (Cue K) :=
  let times := c.timing.spawnTimes last
  ((List.range c.count.toNat).filterMap c.shot?).flatMap (cuesAt times)

end CircleScript

namespace Direction

/-- The sign that a direction gives to the angle between two shots. -/
def sign : Direction → K
  | clockwise => Scalar.ofInt 1
  | counterclockwise => Scalar.ofInt (-1)

end Direction

namespace TwisterScript

/-- Whether the sweep has all lists it draws from. -/
def complete (t : TwisterScript K) : Bool := !t.images.isEmpty && !t.speeds.isEmpty

/-- The number of shots: how often the angle between two shots goes into the whole sweep. -/
def count (t : TwisterScript K) : Nat :=
  match Scalar.floor? ((t.finishDegree - t.startDegree) / t.step) with
  | none => 0
  | some n => min n.toNat lastTime

/-- Frames from the start of one sweep to the start of the next one. -/
def cycle (t : TwisterScript K) : Nat :=
  addTime (min ((t.count - 1) * t.interval) lastTime) t.pause

/-- The shot at a place of the sweep, whose angle is `degrees`. -/
def shot? (t : TwisterScript K) (i : Nat) (degrees : K) : Option (Shot K) := do
  let offset := Vec.polar t.radius degrees
  return patternShot (← turn? t.images i) (← turn? t.speeds i) degrees
    ⟨t.offset.x + offset.x, t.offset.y + offset.y⟩ t.anchor t.damage

/-- The times of the shot that is first fired at `first`, in a routine of the given duration. A
repeated sweep is fired before frame `duration`. -/
def times (t : TwisterScript K) (duration first : Nat) : List Nat :=
  if !t.continuous then [first] else (repeatBefore t.cycle duration first #[]).toList

/-- The cues of `count` shots from the place `i` on, when the next angle is `degrees` and the next
first time is `first`. -/
def sweep (t : TwisterScript K) (duration : Nat) :
    (count i : Nat) → (degrees : K) → (first : Nat) → List (Cue K)
  | 0, _, _, _ => []
  | count + 1, i, degrees, first =>
    ((t.shot? i degrees).map (cuesAt (t.times duration first))).getD [] ++
      t.sweep duration count (i + 1) (degrees + t.direction.sign * t.step)
        (addTime first t.interval)

/-- Each shot of the sweep, at each of its times. -/
def cues (t : TwisterScript K) (duration : Nat) : List (Cue K) :=
  t.sweep duration t.count 0 t.startDegree t.start

end TwisterScript

namespace PatternScript

/-- The cues of a pattern in a routine of the given duration. A pattern without the lists it draws
from has none. -/
def cues (duration : Nat) : PatternScript K → List (Cue K)
  | volley v => v.cues
  | row r => if r.complete then r.cues duration else []
  | circle c => if c.complete then c.cues duration else []
  | twister t => if t.complete then t.cues duration else []
  | unknown => []

/-- The warning about the timing of a row or a circle, if there is one. -/
def timingWarnings (routine : String) (p : PatternScript K) (t : Timing) : List Warning :=
  if t.continuous && t.interval == 0 then [.zeroInterval routine p.kind] else []

/-- What has to be said about a pattern when it is expanded. A pattern without shots passes in
silence. -/
def warnings (routine : String) (p : PatternScript K) : List Warning :=
  match p with
  | volley _ => []
  | row r =>
    if r.count ≤ 0 then []
    else if r.complete then p.timingWarnings routine r.timing
    else [.incomplete routine p.kind "shot_ids, speeds and degrees"]
  | circle c =>
    if c.count ≤ 0 then []
    else if c.complete then p.timingWarnings routine c.timing
    else [.incomplete routine p.kind "shot_ids, speeds and degrees"]
  | twister t =>
    if t.count = 0 then []
    else if !t.complete then [.incomplete routine p.kind "shot_ids and speeds"]
    else if t.continuous && t.cycle == 0 then [.zeroCycle routine]
    else []
  | unknown => [.unknownPattern routine]

end PatternScript

/-- Shots by the times at which they are fired. A time without shots is not in the table. -/
abbrev ShotTable (K : Type) := Std.ExtTreeMap Nat (List (Shot K))

namespace ShotTable

/-- Puts a cue behind those of its time. -/
def add (table : ShotTable K) (cue : Cue K) : ShotTable K :=
  table.alter cue.time fun shots => some (shots.getD [] ++ [cue.shot])

/-- Puts cues into the table in order. -/
def addAll (table : ShotTable K) (cues : List (Cue K)) : ShotTable K := cues.foldl add table

/-- Number of shots at all times. -/
def count (table : ShotTable K) : Nat := table.values.flatten.length

omit [Scalar K] in
/-- A cue adds its shot behind the others of its time. -/
theorem getElem?_add (table : ShotTable K) (cue : Cue K) (time : Nat) :
    (table.add cue)[time]? =
      if cue.time = time then some (table[time]?.getD [] ++ [cue.shot]) else table[time]? := by
  simp only [add, Std.ExtTreeMap.getElem?_alter, Std.LawfulEqOrd.compare_eq_iff_eq]
  split
  · next h => rw [h]
  · rfl

omit [Scalar K] in
/-- At each time, the table holds the shots of the cues for that time, in the order of the cues. -/
theorem getD_addAll (table : ShotTable K) (cues : List (Cue K)) (time : Nat) :
    (table.addAll cues)[time]?.getD [] =
      table[time]?.getD [] ++ (cues.filter (·.time == time)).map (·.shot) := by
  unfold addAll
  induction cues generalizing table with
  | nil => simp
  | cons cue rest ih =>
    rw [List.foldl_cons, ih, getElem?_add, List.filter_cons]
    by_cases h : cue.time = time <;> simp [h]

end ShotTable

end Barrage
