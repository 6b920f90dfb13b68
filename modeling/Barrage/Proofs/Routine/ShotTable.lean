import Mathlib.Data.List.Perm.Basic
import Mathlib.Tactic.Choose
import Barrage.Proofs.Routine.Course
import Barrage.Proofs.Routine.Sweep

/-!
# The table of shots of a routine

All patterns of a routine put their shots into one table by time. What a pattern puts down, and in
which order, is said without the expansion by `PatternScript.Fires`; there is one such list for each
pattern, and the expansion finds it (`PatternScript.fires_iff`). A shot is put behind those of its
time, so whatever the order of the times is, the shots of one time stay in the order in which they
were put down (`ShotTable.getD_addAll`), and the shots of all times are those that were put down
(`ShotTable.count_addAll`).

`shotTableLaw_ofScript` puts this together for the routine of a script.
-/

namespace Barrage

variable {K : Type} [Scalar K]

/-! ## What a pattern fires -/

/-- A shot at the place `i` of a pattern that draws its images and speeds from lists in turn. -/
structure Drawn (images : List String) (speeds : List K) (i : Nat) (degrees : K) (offset : Vec K)
    (anchor : Anchor) (damage : Option Nat) (shot : Shot K) : Prop where
  image_eq : images[i % images.length]? = some shot.image
  velocity_eq : ∃ speed, speeds[i % speeds.length]? = some speed ∧
    shot.velocity = .components (Vec.polar speed degrees).x (Vec.polar speed degrees).y
  offset_eq : shot.offset = offset
  anchor_eq : shot.anchor = anchor
  damage_eq : shot.damage = damage

/-- A shot at a place of a row. -/
def RowScript.Places (r : RowScript K) (i : Nat) (shot : Shot K) : Prop :=
  ∃ degrees, r.degrees[i % r.degrees.length]? = some degrees ∧
    Drawn r.images r.speeds i degrees
      ⟨r.xStart + (r.xEnd - r.xStart) / Scalar.ofInt r.count * Scalar.whole i, r.yOffset⟩
      r.anchor r.damage shot

/-- A shot at a place of a circle. It travels away from the centre if the shots spread. -/
def CircleScript.Places (c : CircleScript K) (i : Nat) (shot : Shot K) : Prop :=
  ∃ degrees, (if c.spread then degrees = c.spawnDegree i
      else c.degrees[i % c.degrees.length]? = some degrees) ∧
    Drawn c.images c.speeds i degrees (c.offset.add (.polar c.radius (c.spawnDegree i)))
      c.anchor c.damage shot

/-- A shot at a place of a sweep. -/
def TwisterScript.Places (t : TwisterScript K) (i : Nat) (shot : Shot K) : Prop :=
  Drawn t.images t.speeds i (t.degreesAt i) (t.offset.add (.polar t.radius (t.degreesAt i)))
    t.anchor t.damage shot

namespace PatternScript

/-- Whether a pattern has all lists it draws from. -/
def complete : PatternScript K → Bool
  | row r => r.complete
  | circle c => c.complete
  | twister t => t.complete
  | volley _ | unknown => true

/-- What a pattern puts down in a routine of the given duration: its shots in order, and each of
them at its times in order. -/
inductive Fires (duration : Nat) : PatternScript K → List (Cue K) → Prop
  | volley (v : VolleyScript K) : Fires duration (.volley v) (v.shots.flatMap fun shot =>
      cuesAt v.times { shot with anchor := v.anchor, velocity := shot.velocity.resolved })
  | row {r : RowScript K} {shot : Nat → Shot K} : r.complete = true →
      (∀ i, r.Places i (shot i)) → Fires duration (.row r)
        ((List.range r.count.toNat).flatMap fun i =>
          cuesAt (r.timing.spawnTimes duration) (shot i))
  | circle {c : CircleScript K} {shot : Nat → Shot K} : c.complete = true →
      (∀ i, c.Places i (shot i)) → Fires duration (.circle c)
        ((List.range c.count.toNat).flatMap fun i =>
          cuesAt (c.timing.spawnTimes duration) (shot i))
  | twister {t : TwisterScript K} {shot : Nat → Shot K} : t.complete = true →
      (∀ i, t.Places i (shot i)) → Fires duration (.twister t)
        ((List.range t.count).flatMap fun i => cuesAt (t.timesAt duration i) (shot i))
  | lacking {p : PatternScript K} : p.complete = false → Fires duration p []
  | unknown : Fires duration .unknown []

/-- The number of shots that a pattern puts down. -/
def fireCount (duration : Nat) (p : PatternScript K) : Nat :=
  if p.complete then
    match p with
    | volley v => v.shots.length * v.times.length
    | row r => r.count.toNat * (r.timing.spawnTimes duration).length
    | circle c => c.count.toNat * (c.timing.spawnTimes duration).length
    | twister t => ((List.range t.count).flatMap (t.timesAt duration)).length
    | unknown => 0
  else 0

end PatternScript

/-- A shot that is drawn has its velocity by components. -/
theorem Drawn.components {images : List String} {speeds : List K} {i : Nat} {degrees : K}
    {offset : Vec K} {anchor : Anchor} {damage : Option Nat} {shot : Shot K}
    (h : Drawn images speeds i degrees offset anchor damage shot) :
    ∃ x y, shot.velocity = .components x y := by
  obtain ⟨speed, -, hvelocity⟩ := h.velocity_eq
  exact ⟨_, _, hvelocity⟩

/-- A shot is drawn at a place when it is made of the image and the speed whose turn it is there. -/
theorem drawn_iff {images : List String} {speeds : List K} {i : Nat} {degrees : K} {offset : Vec K}
    {anchor : Anchor} {damage : Option Nat} {shot : Shot K} :
    Drawn images speeds i degrees offset anchor damage shot ↔
      ∃ image, turn? images i = some image ∧ ∃ speed, turn? speeds i = some speed ∧
        patternShot image speed degrees offset anchor damage = shot := by
  constructor
  · rintro ⟨himage, ⟨speed, hspeed, hvelocity⟩, hoffset, hanchor, hdamage⟩
    refine ⟨shot.image, himage, speed, hspeed, ?_⟩
    cases shot
    cases hvelocity
    cases hoffset
    cases hanchor
    cases hdamage
    rfl
  · rintro ⟨image, himage, speed, hspeed, rfl⟩
    exact ⟨himage, ⟨speed, hspeed, rfl⟩, rfl, rfl, rfl⟩

/-- What a row finds for a place is the shot that belongs there. -/
theorem RowScript.shot?_eq_some_iff {r : RowScript K} {i : Nat} {shot : Shot K} :
    r.shot? i = some shot ↔ r.Places i shot := by
  simp only [shot?, Places, drawn_iff, turn?, Option.bind_eq_bind, Option.pure_def,
    Option.bind_eq_some_iff, Option.some.injEq]
  constructor
  · rintro ⟨image, himage, speed, hspeed, degrees, hdegrees, rfl⟩
    exact ⟨degrees, hdegrees, image, himage, speed, hspeed, rfl⟩
  · rintro ⟨degrees, hdegrees, image, himage, speed, hspeed, rfl⟩
    exact ⟨image, himage, speed, hspeed, degrees, hdegrees, rfl⟩

/-- What a circle finds for a place is the shot that belongs there. -/
theorem CircleScript.shot?_eq_some_iff {c : CircleScript K} {i : Nat} {shot : Shot K} :
    c.shot? i = some shot ↔ c.Places i shot := by
  simp only [shot?, Places, drawn_iff, Option.bind_eq_bind, Option.pure_def]
  cases c.spread with
  | false =>
    simp only [Bool.false_eq_true, if_false, Option.bind_eq_some_iff, Option.some.injEq]
    rfl
  | true =>
    simp only [if_true, Option.bind_some, exists_eq_left, Option.bind_eq_some_iff,
      Option.some.injEq]
    rfl

/-- What a sweep finds for a place is the shot that belongs there. -/
theorem TwisterScript.shot?_eq_some_iff {t : TwisterScript K} {i : Nat} {shot : Shot K} :
    t.shot? i (t.degreesAt i) = some shot ↔ t.Places i shot := by
  simp only [shot?, Places, drawn_iff, Option.bind_eq_bind, Option.pure_def,
    Option.bind_eq_some_iff, Option.some.injEq]
  rfl

/-- There is a shot for each place of a row that has its lists. -/
theorem RowScript.exists_places {r : RowScript K} (h : r.complete = true) :
    ∃ shot : Nat → Shot K, ∀ i, r.Places i (shot i) := by
  choose shot hshot using fun i => Option.isSome_iff_exists.1 (r.isSome_shot? h i)
  exact ⟨shot, fun i => shot?_eq_some_iff.1 (hshot i)⟩

/-- There is a shot for each place of a circle that has its lists. -/
theorem CircleScript.exists_places {c : CircleScript K} (h : c.complete = true) :
    ∃ shot : Nat → Shot K, ∀ i, c.Places i (shot i) := by
  choose shot hshot using fun i => Option.isSome_iff_exists.1 (c.isSome_shot? h i)
  exact ⟨shot, fun i => shot?_eq_some_iff.1 (hshot i)⟩

omit [Scalar K] in
/-- Every cue is for the shot of some place. -/
theorem exists_shot_of_mem {α : Type} {places : List α} {times : α → List Nat} {shot : α → Shot K}
    {cue : Cue K} (h : cue ∈ places.flatMap fun a => cuesAt (times a) (shot a)) :
    ∃ a, shot a = cue.shot := by
  obtain ⟨a, -, hcue⟩ := List.mem_flatMap.1 h
  obtain ⟨time, -, rfl⟩ := List.mem_map.1 hcue
  exact ⟨a, rfl⟩

omit [Scalar K] in
/-- There is a cue for each time of each place. -/
theorem length_flatMap_cuesAt {α : Type} (places : List α) (times : α → List Nat)
    (shot : α → Shot K) : (places.flatMap fun a => cuesAt (times a) (shot a)).length =
      (places.flatMap times).length := by
  simp [List.length_flatMap, cuesAt]

/-- Places with the same times have as many cues as there are pairs of both. -/
theorem length_flatMap_const {α : Type} (places : List α) (times : List Nat) :
    (places.flatMap fun _ => times).length = places.length * times.length := by
  simp [List.length_flatMap]

omit [Scalar K] in
/-- If no place lacks a shot, the cues of the shots that are found are those of all places. -/
theorem flatMap_filterMap_cuesAt {shot? : Nat → Option (Shot K)} {shot : Nat → Shot K}
    (h : ∀ i, shot? i = some (shot i)) (times places : List Nat) :
    (places.filterMap shot?).flatMap (cuesAt times) =
      places.flatMap fun i => cuesAt times (shot i) := by
  obtain rfl : shot? = some ∘ shot := funext h
  rw [List.filterMap_eq_map, List.flatMap_map]

namespace PatternScript

section
variable {p : PatternScript K} {duration : Nat} {cues : List (Cue K)}

/-- A pattern that lacks a list is not expanded. -/
theorem cues_of_lacking (h : p.complete = false) : p.cues duration = [] := by
  cases p with
  | volley _ => cases h
  | unknown => rfl
  | row _ | circle _ | twister _ => exact if_neg (Bool.eq_false_iff.1 h)

/-- A pattern fires nothing but its expansion. -/
theorem Fires.eq_cues (h : p.Fires duration cues) : cues = p.cues duration := by
  cases h with
  | volley v => rfl
  | row hcomplete hplaces =>
    have hshot := fun i => RowScript.shot?_eq_some_iff.2 (hplaces i)
    exact (flatMap_filterMap_cuesAt hshot ..).symm.trans (if_pos hcomplete).symm
  | circle hcomplete hplaces =>
    have hshot := fun i => CircleScript.shot?_eq_some_iff.2 (hplaces i)
    exact (flatMap_filterMap_cuesAt hshot ..).symm.trans (if_pos hcomplete).symm
  | twister hcomplete hplaces =>
    have hshot := fun i => TwisterScript.shot?_eq_some_iff.2 (hplaces i)
    exact (TwisterScript.cues_eq hshot).symm.trans (if_pos hcomplete).symm
  | lacking hlacking => exact (cues_of_lacking hlacking).symm
  | unknown => rfl

/-- There are shots for all places of a pattern that has its lists. -/
theorem exists_fires (duration : Nat) (p : PatternScript K) : ∃ cues, p.Fires duration cues := by
  cases hcomplete : p.complete with
  | false => exact ⟨[], .lacking hcomplete⟩
  | true =>
    cases p with
    | volley v => exact ⟨_, .volley v⟩
    | row r =>
      obtain ⟨shot, hplaces⟩ := RowScript.exists_places hcomplete
      exact ⟨_, .row hcomplete hplaces⟩
    | circle c =>
      obtain ⟨shot, hplaces⟩ := CircleScript.exists_places hcomplete
      exact ⟨_, .circle hcomplete hplaces⟩
    | twister t =>
      obtain ⟨shot, hshot⟩ := TwisterScript.exists_shot hcomplete
      exact ⟨_, .twister hcomplete fun i => TwisterScript.shot?_eq_some_iff.1 (hshot i)⟩
    | unknown => exact ⟨_, .unknown⟩

/-- What a pattern puts down is what its expansion gives. -/
theorem fires_iff : p.Fires duration cues ↔ cues = p.cues duration := by
  refine ⟨Fires.eq_cues, ?_⟩
  rintro rfl
  obtain ⟨cues, hfires⟩ := exists_fires duration p
  exact hfires.eq_cues ▸ hfires

/-- All velocities are put down by components. -/
theorem Fires.components (h : p.Fires duration cues) {cue : Cue K} (hcue : cue ∈ cues) :
    ∃ x y, cue.shot.velocity = .components x y := by
  cases h with
  | volley v =>
    obtain ⟨shot, hshot⟩ := exists_shot_of_mem hcue
    exact hshot ▸ ⟨_, _, rfl⟩
  | row _ hplaces =>
    obtain ⟨i, hshot⟩ := exists_shot_of_mem hcue
    obtain ⟨degrees, -, hdrawn⟩ := hplaces i
    exact hshot ▸ hdrawn.components
  | circle _ hplaces =>
    obtain ⟨i, hshot⟩ := exists_shot_of_mem hcue
    obtain ⟨degrees, -, hdrawn⟩ := hplaces i
    exact hshot ▸ hdrawn.components
  | twister _ hplaces =>
    obtain ⟨i, hshot⟩ := exists_shot_of_mem hcue
    exact hshot ▸ (hplaces i).components
  | lacking _ => cases hcue
  | unknown => cases hcue

/-- A pattern fires as often as its lists and times say. -/
theorem Fires.length_eq (h : p.Fires duration cues) : cues.length = p.fireCount duration := by
  unfold fireCount
  cases h with
  | volley v => exact (length_flatMap_cuesAt ..).trans (length_flatMap_const ..)
  | row hcomplete _ | circle hcomplete _ =>
    rw [complete, if_pos hcomplete, length_flatMap_cuesAt, length_flatMap_const, List.length_range]
  | twister hcomplete _ => rw [complete, if_pos hcomplete, length_flatMap_cuesAt]
  | lacking hlacking =>
    rw [hlacking]
    rfl
  | unknown => rfl

/-- Several patterns fire their expansions, each its own. -/
theorem forall₂_fires_iff {patterns : List (PatternScript K)} {cues : List (List (Cue K))} :
    List.Forall₂ (Fires duration) patterns cues ↔
      cues = patterns.map (PatternScript.cues duration) := by
  induction patterns generalizing cues with
  | nil => exact List.forall₂_nil_left_iff
  | cons p patterns ih =>
    simp only [List.forall₂_cons_left_iff, fires_iff, ih, exists_and_left, exists_eq_left,
      List.map_cons]

end

end PatternScript

/-! ## The table -/

omit [Scalar K] in
/-- Cues that are taken by their times are the same cues. -/
theorem perm_flatMap_filter {times : List Nat} (htimes : times.Nodup) {cues : List (Cue K)}
    (hcovered : ∀ cue ∈ cues, cue.time ∈ times) :
    (times.flatMap fun time => cues.filter (·.time == time)).Perm cues := by
  induction times generalizing cues with
  | nil =>
    obtain rfl : cues = [] := List.eq_nil_iff_forall_not_mem.2 fun cue hcue =>
      List.not_mem_nil (hcovered cue hcue)
    rfl
  | cons time times ih =>
    obtain ⟨hnot, htimes⟩ := List.nodup_cons.1 htimes
    have hothers : ∀ cue ∈ cues.filter (!·.time == time), cue.time ∈ times := by
      intro cue hcue
      obtain ⟨hmem, hne⟩ := List.mem_filter.1 hcue
      exact (List.mem_cons.1 (hcovered cue hmem)).resolve_left (by simpa using hne)
    -- without the cues for the first time, those for the others are the same
    have hrest : (times.flatMap fun other => cues.filter (·.time == other)) =
        times.flatMap fun other => (cues.filter (!·.time == time)).filter (·.time == other) := by
      refine List.flatMap_congr fun other hother => ?_
      rw [List.filter_filter]
      refine List.filter_congr fun cue _ => ?_
      have hne : other ≠ time := fun h => hnot (h ▸ hother)
      cases htime : cue.time == other with
      | false => rfl
      | true => simp [beq_iff_eq.1 htime, hne]
    rw [List.flatMap_cons, hrest]
    exact ((ih htimes hothers).append_left _).trans (List.filter_append_perm _ _)

namespace ShotTable

omit [Scalar K] in
/-- Cues that follow others are put down after them. -/
theorem addAll_append (table : ShotTable K) (first second : List (Cue K)) :
    table.addAll (first ++ second) = (table.addAll first).addAll second := List.foldl_append

omit [Scalar K] in
/-- At each time a table has the shots of the cues for that time, in their order. -/
theorem getD_addAll_empty (cues : List (Cue K)) (time : Nat) :
    (addAll ∅ cues)[time]?.getD [] = (cues.filter (·.time == time)).map (·.shot) := by
  rw [getD_addAll, Std.ExtTreeMap.getElem?_empty, Option.getD_none, List.nil_append]

/-- No time is in the table without shots. -/
def Stocked (table : ShotTable K) : Prop :=
  ∀ (time : Nat) (shots : List (Shot K)), table[time]? = some shots → shots ≠ []

omit [Scalar K] in
/-- An empty table has no empty entry. -/
theorem stocked_empty : Stocked (∅ : ShotTable K) := by
  intro time shots hshots
  rw [Std.ExtTreeMap.getElem?_empty] at hshots
  cases hshots

omit [Scalar K] in
/-- A cue leaves no empty entry. -/
theorem Stocked.add {table : ShotTable K} (h : Stocked table) (cue : Cue K) :
    Stocked (ShotTable.add table cue) := by
  intro time shots hshots
  rw [getElem?_add] at hshots
  split at hshots
  · cases hshots
    exact List.append_ne_nil_of_right_ne_nil _ (List.cons_ne_nil _ _)
  · exact h time shots hshots

omit [Scalar K] in
/-- Cues leave no empty entry. -/
theorem Stocked.addAll {table : ShotTable K} (h : Stocked table) (cues : List (Cue K)) :
    Stocked (ShotTable.addAll table cues) :=
  List.foldlRecOn cues ShotTable.add h fun _ hstocked cue _ => hstocked.add cue

omit [Scalar K] in
/-- The values of a table are its entries at its keys. -/
theorem values_eq (table : ShotTable K) :
    table.values = table.keys.map fun time => table[time]?.getD [] := by
  have hvalues : table.values = table.foldr (fun _ shots values => shots :: values) [] := by
    obtain ⟨⟨table⟩⟩ := table
    induction table using Quotient.ind
    rfl
  rw [hvalues, Std.ExtTreeMap.foldr_eq_foldr_toList, ← Std.ExtTreeMap.map_fst_toList_eq_keys,
    List.map_map, List.foldr_cons_eq_append (f := Prod.snd), List.append_nil]
  refine List.map_congr_left fun entry hentry => ?_
  rw [Function.comp_apply, Std.ExtTreeMap.mem_toList_iff_getElem?_eq_some.1 hentry,
    Option.getD_some]

omit [Scalar K] in
/-- The time of every cue is a key. -/
theorem mem_keys_addAll {cues : List (Cue K)} {cue : Cue K} (h : cue ∈ cues) :
    cue.time ∈ (addAll ∅ cues).keys := by
  rw [Std.ExtTreeMap.mem_keys, ← Std.ExtTreeMap.isSome_getElem?_iff_mem]
  by_contra hnone
  have hshots := getD_addAll_empty cues cue.time
  rw [Option.not_isSome_iff_eq_none.1 hnone, Option.getD_none, eq_comm, List.map_eq_nil_iff,
    List.filter_eq_nil_iff] at hshots
  exact hshots cue h (beq_self_eq_true _)

omit [Scalar K] in
/-- All shots that are put down are in the table once. -/
theorem count_addAll (cues : List (Cue K)) : (addAll ∅ cues).count = cues.length := by
  have hperm := perm_flatMap_filter (addAll ∅ cues).nodup_keys fun cue hcue =>
    mem_keys_addAll hcue
  have hshots : (addAll ∅ cues).values.flatten = ((addAll ∅ cues).keys.flatMap fun time =>
      cues.filter (·.time == time)).map (·.shot) := by
    rw [values_eq, ← List.flatMap_def, List.map_flatMap]
    exact List.flatMap_congr fun time _ => getD_addAll_empty cues time
  rw [count, hshots, List.length_map, hperm.length_eq]

end ShotTable

namespace Routine

/-- The table of a routine has the cues of all of its patterns, pattern by pattern. -/
theorem shots_addPatterns (r : Routine K) (patterns : List (PatternScript K)) :
    (patterns.foldl addPattern r).shots =
      r.shots.addAll (patterns.flatMap (PatternScript.cues r.duration)) := by
  induction patterns generalizing r with
  | nil => rfl
  | cons pattern patterns ih =>
    rw [List.foldl_cons, ih, List.flatMap_cons, ShotTable.addAll_append]
    rfl

/-- The patterns put their shots into an empty table, one after another. -/
theorem shots_ofScript (s : RoutineScript K) :
    (ofScript s).shots = .addAll ∅ (s.patterns.flatMap (PatternScript.cues s.duration)) := by
  have hmoves : ∀ r : Routine K, (s.moves.foldl addMove r).shots = r.shots ∧
      (s.moves.foldl addMove r).duration = r.duration := fun r =>
    List.foldlRecOn (motive := fun moved : Routine K =>
      moved.shots = r.shots ∧ moved.duration = r.duration) s.moves addMove ⟨rfl, rfl⟩
      fun _ h _ _ => h
  rw [ofScript, shots_addPatterns, (hmoves _).1, (hmoves _).2]
  rfl

end Routine

/-- What is known of the table of shots of a routine. The cues are those of its patterns, a list for
each pattern. -/
structure ShotTableLaw (s : RoutineScript K) (cues : List (List (Cue K))) : Prop where
  /-- They are what the patterns put down, in the order of the patterns. -/
  fires_iff : ∀ other, List.Forall₂ (PatternScript.Fires s.duration) s.patterns other ↔
    other = cues
  lengths : List.Forall₂ (fun pattern cues => cues.length = pattern.fireCount s.duration)
    s.patterns cues
  /-- At each time there are the shots of the cues for that time, in the order of the cues. -/
  shots_eq : ∀ time : Nat, (Routine.ofScript s).shots[time]?.getD [] =
    (cues.flatten.filter (·.time == time)).map (·.shot)
  stocked : ShotTable.Stocked (Routine.ofScript s).shots
  /-- Nothing is lost, and nothing is there twice. -/
  count_eq : ShotTable.count (Routine.ofScript s).shots = cues.flatten.length
  /-- All velocities are given by components. -/
  components : ∀ (time : Nat) (shots : List (Shot K)),
    (Routine.ofScript s).shots[time]? = some shots →
      ∀ shot ∈ shots, ∃ x y, shot.velocity = .components x y

/-- The table of shots of the routine of a script follows the law. -/
theorem shotTableLaw_ofScript (s : RoutineScript K) : ∃ cues, ShotTableLaw s cues := by
  have hshots : ∀ time : Nat, (Routine.ofScript s).shots[time]?.getD [] =
      ((s.patterns.map (PatternScript.cues s.duration)).flatten.filter (·.time == time)).map
        (·.shot) := by
    intro time
    rw [Routine.shots_ofScript, ShotTable.getD_addAll_empty, List.flatMap_def]
  refine ⟨s.patterns.map (PatternScript.cues s.duration), ?_⟩
  exact {
    fires_iff := fun _ => PatternScript.forall₂_fires_iff
    lengths := (PatternScript.forall₂_fires_iff.2 rfl).imp fun _ _ h => h.length_eq
    shots_eq := hshots
    stocked := by
      rw [Routine.shots_ofScript]
      exact ShotTable.stocked_empty.addAll _
    count_eq := by
      rw [Routine.shots_ofScript, ShotTable.count_addAll, List.flatMap_def]
    components := by
      intro time shots htime shot hshot
      have hmem := hshots time
      rw [htime, Option.getD_some] at hmem
      obtain ⟨cue, hcue, rfl⟩ := List.mem_map.1 (hmem ▸ hshot)
      rw [← List.flatMap_def] at hcue
      obtain ⟨pattern, -, hcue⟩ := List.mem_flatMap.1 (List.mem_filter.1 hcue).1
      exact (PatternScript.fires_iff.2 rfl).components hcue }

end Barrage
