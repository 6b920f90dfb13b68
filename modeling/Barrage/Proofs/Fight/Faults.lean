import Barrage.Proofs.Fight.Lives
import Barrage.Proofs.Fight.Pause
import Barrage.Proofs.Fight.Windows
import Barrage.Proofs.Routine.Expansion
import Barrage.Proofs.TimerQueue.Sums

/-!
# The one fault of a fight

A tick fails where a counter leaves its width. Frames and bodies can be counted in every run that is
not too long, so one counter is left: a hit of the player sets a timer that is due a window later,
and the window is as long as the sheet of the player says. This is said of a tick of any fight by
`Fight.tick_eq_error_iff`, and of all ticks that a run can come to by `Fight.run_faults`.

A tick makes more sums than it checks. The timers count their frames, and those that repeat are due
again; a check of these sums would find nothing (`TimerQueue.advanceChecked`). No number of a body
is taken back (`Fight.keptByPhases_nextBody`), so all of them fit when the last one does. And what
the look-ups, the divisions and the bounds of a frame rely on is there (`Supplied`).
-/

namespace Barrage

variable {K : Type}

/-- The timers of a fight give out one number for each hit and one for energy. -/
theorem Windows.nextId_le {interval : Nat} {timers : TimerQueue TimerAction}
    {player : Player K} {hits : List Nat} (h : Windows interval timers player hits) :
    timers.nextId ≤ timers.frame + 1 := by
  have hnodup : hits.Nodup := h.spaced.imp fun hle => by omega
  have hrange : hits ⊆ List.range timers.frame := fun hit hin => List.mem_range.2 (h.past hit hin)
  have hlength := (hnodup.subperm hrange).length_le
  rw [List.length_range] at hlength
  rw [h.follows.nextId_eq, Fight.timetable, List.length_cons, List.length_map]
  omega

variable [Scalar K]

namespace Fight

variable {f g m : Fight K} {keys : ActionSet} {raw : ActionSet}

/-! ## Hits that count -/

/-- Whether a tick simulates a frame: the fight is not over, and no pause is asked for. -/
def plays (f : Fight K) (raw : ActionSet) : Bool :=
  !f.ended && !(f.keys.update raw).active.has .pause

/-- Whether something hostile overlaps the player outside of a window. -/
def isStruck (f : Fight K) : Bool :=
  !f.player.invincible && f.world.hitsOf f.player.body [enemyGroup, enemyBullets] != 0

/-- Whether a tick counts a hit of the player: it simulates a frame, and the player is struck when
the timers have acted and the bodies have moved. -/
def hitCounts (f : Fight K) (raw : ActionSet) : Bool :=
  f.plays raw && (f.withKeys (f.keys.update raw)).runTimers.1.moveBodies.isStruck

/-- How many bodies have been created when a tick is over, or has failed. -/
def bodiesAfter (f : Fight K) (raw : ActionSet) : Nat :=
  let keys := f.keys.update raw
  if f.plays raw then
    match (f.withKeys keys).approach keys.active with
    | .error _ => f.world.nextBody
    | .ok (m, _) => m.enemyPhase.1.world.nextBody
  else f.world.nextBody

/-- The hits of the player fail when one of them counts and the end of its window cannot be set. -/
theorem hitPlayerPhase_eq_error_iff : f.hitPlayerPhase = .error .counterOverflow ↔
    f.isStruck = true ∧ timerCapacity ≤ f.timers.frame + max f.player.window 1 := by
  rw [hitPlayerPhase, isStruck]
  cases hinvincible : f.player.invincible with
  | true =>
    rw [takeHits_of_invincible hinvincible]
    refine iff_of_false ?_ fun h => Bool.false_ne_true h.1
    rintro ⟨⟩
  | false =>
    cases f.world.hitsOf f.player.body [enemyGroup, enemyBullets] with
    | zero =>
      refine iff_of_false ?_ fun h => Bool.false_ne_true h.1
      rintro ⟨⟩
    | succ count =>
      rw [takeHits_succ hinvincible, map_eq_error_iff, Player.startWindow, map_eq_error_iff,
        TimerQueue.once_eq_error_iff]
      exact ⟨fun h => ⟨rfl, h⟩, fun h => h.2⟩

/-- When they do not fail, they tell of a hit if one counts. -/
theorem isStruck_iff_of_ok {events : List Event} (h : f.hitPlayerPhase = .ok (g, events)) :
    f.isStruck = true ↔ events.filterMap Event.playerHit? ≠ [] := by
  rw [isStruck, Bool.and_eq_true, Bool.not_eq_true', bne_iff_ne]
  rcases hitPlayerPhase_cases h with ⟨-, rfl, hnot⟩ | ⟨hopen, hhits, -, -, -, -, rfl⟩
  · refine ⟨fun ⟨hopen, hhits⟩ => ?_, fun hne => absurd rfl hne⟩
    rcases hnot with hinvincible | hzero
    · rw [hopen] at hinvincible
      cases hinvincible
    · exact absurd hzero hhits
  · exact ⟨fun _ => List.cons_ne_nil _ _, fun _ => ⟨hopen, hhits⟩⟩

/-! ## Ticks that fail -/

/-- Up to the turns of the enemies, a frame fails with the hits of the player. -/
theorem approach_eq_error_iff {fault : Fault} : f.approach keys = .error fault ↔
    f.runTimers.1.moveBodies.hitPlayerPhase = .error fault := by
  refine bind_eq_error_iff.trans ⟨fun h => ?_, .inl⟩
  obtain h | ⟨_, -, ⟨⟩⟩ := h
  exact h

/-- Up to there a frame is not counted. -/
theorem frame_approach {before : List Event} (h : f.approach keys = .ok (m, before)) :
    m.frame = f.frame := by
  obtain ⟨⟨hit, playerHits⟩, hhit, h⟩ := bind_eq_ok_iff.1 h
  cases h
  obtain ⟨_, htimed⟩ := f.runTimers_eq
  have hframe : hit.frame = f.frame := by
    rcases hitPlayerPhase_cases hhit with ⟨rfl, -⟩ | ⟨-, -, -, -, -, rfl, -⟩
    · exact congrArg (·.1.frame) htimed
    · exact congrArg (·.1.frame) htimed
  obtain ⟨⟨_, _, hstruck⟩, -⟩ := hit.hitEnemies_eq (hit.world.overlapPairs playerBullets enemyGroup)
  obtain ⟨⟨_, _, _, _, hacted⟩, -⟩ := hit.hitEnemyPhase.1.playerPhase_eq keys
  obtain ⟨⟨_, _, _, hjoined⟩, -⟩ := bringInAll_eq (hit.hitEnemyPhase.1.playerPhase keys).1
    ((hit.hitEnemyPhase.1.playerPhase keys).1.arrivals.filter
      (·.time == (hit.hitEnemyPhase.1.playerPhase keys).1.frame))
  calc
    _ = (hit.hitEnemyPhase.1.playerPhase keys).1.frame := (congrArg Fight.frame hjoined :)
    _ = hit.hitEnemyPhase.1.frame := (congrArg Fight.frame hacted :)
    _ = hit.frame := (congrArg Fight.frame hstruck :)
    _ = f.frame := hframe

/-- No body is created behind the turns of the enemies. -/
theorem nextBody_countFrame_sweepPhase (m : Fight K) :
    m.sweepPhase.countFrame.1.world.nextBody = m.world.nextBody := by
  rw [countFrame_eq]
  simp only [sweepPhase, World.sweep, World.nextBody_foldl_destroy]

/-- From there on it does not fail, as long as frames and bodies can be counted. -/
theorem exists_conclude_eq_ok (hframe : m.frame + 1 < counterCapacity)
    (hbodies : m.enemyPhase.1.world.nextBody < counterCapacity) (before : List Event) :
    ∃ r, m.conclude before = .ok r := by
  have hframe' : m.enemyPhase.1.sweepPhase.countFrame.1.frame = m.frame + 1 := by
    rw [countFrame_eq]
    rfl
  have hfits : m.enemyPhase.1.sweepPhase.countFrame.1.fits = true := by
    rw [fits, hframe', nextBody_countFrame_sweepPhase, decide_eq_true hframe,
      decide_eq_true hbodies]
    rfl
  exact ⟨_, if_pos hfits⟩

/-- After the enemies have moved no number is given out. -/
theorem nextBody_of_conclude {before events : List Event}
    (h : m.conclude before = .ok (g, events)) :
    g.world.nextBody = m.enemyPhase.1.world.nextBody := by
  rw [conclude] at h
  dsimp only at h
  split at h
  · cases h
    exact nextBody_countFrame_sweepPhase _
  · cases h

/-- When its number and its bodies can be counted, the one way for a frame to fail is that a hit
counts and the end of its window is beyond what a timer can express. -/
theorem simulate_eq_error_iff (hframe : f.frame + 1 < counterCapacity)
    (hbodies : ∀ {m : Fight K} {before : List Event}, f.approach keys = .ok (m, before) →
      m.enemyPhase.1.world.nextBody < counterCapacity) :
    f.simulate keys = .error .counterOverflow ↔ f.runTimers.1.moveBodies.isStruck = true ∧
      timerCapacity ≤ f.timers.frame + 1 + max f.player.window 1 := by
  obtain ⟨energy, htimed⟩ := f.runTimers_eq
  have hnow : f.runTimers.1.moveBodies.timers.frame = f.timers.frame + 1 := by
    rw [htimed]
    exact TimerQueue.frame_fire _
  have hwindow : f.runTimers.1.moveBodies.player.window = f.player.window := by
    rw [htimed]
    dsimp only [moveBodies]
    split <;> rfl
  rw [simulate_eq_bind, bind_eq_error_iff, approach_eq_error_iff, hitPlayerPhase_eq_error_iff, hnow,
    hwindow]
  refine ⟨fun h => h.elim id ?_, .inl⟩
  rintro ⟨⟨m, before⟩, happroach, hfault⟩
  have hcount : m.frame + 1 < counterCapacity := by
    rw [frame_approach happroach]
    exact hframe
  obtain ⟨r, hr⟩ := exists_conclude_eq_ok hcount (hbodies happroach) before
  rw [hr] at hfault
  cases hfault

omit [Scalar K] in
/-- A fight that plays on is not over. -/
theorem ended_of_plays (h : f.plays raw = true) : f.ended = false := by
  rw [plays, Bool.and_eq_true, Bool.not_eq_true'] at h
  exact h.1

/-- A tick that simulates nothing does not fail, tells nothing and creates no body. -/
theorem exists_tick_eq_ok (h : f.plays raw = false) :
    ∃ g report, f.tick raw = .ok (g, report) ∧ report.events = [] ∧
      g.world.nextBody = f.world.nextBody := by
  cases hended : f.ended with
  | true => exact ⟨f, _, tick_of_ended hended raw, rfl, rfl⟩
  | false =>
    rw [plays, hended, Bool.not_false, Bool.true_and, Bool.not_eq_false'] at h
    exact ⟨_, _, tick_of_pause hended h, rfl, rfl⟩

/-- Any other tick simulates a frame. -/
theorem tick_of_plays (h : f.plays raw = true) : f.tick raw =
    ((f.withKeys (f.keys.update raw)).simulate (f.keys.update raw).active).map
      fun (r : Fight K × List Event) => (r.1, ⟨Event.sort r.2, false, r.1.ended⟩) := by
  rw [plays, Bool.and_eq_true, Bool.not_eq_true', Bool.not_eq_true'] at h
  exact tick_of_play h.1 h.2

/-- A tick fails exactly when it counts a hit whose window would end beyond the last frame. -/
theorem tick_eq_error_iff (hframe : f.ended = false → f.frame + 1 < counterCapacity)
    (hbodies : f.bodiesAfter raw < counterCapacity) :
    f.tick raw = .error .counterOverflow ↔
      f.hitCounts raw = true ∧ timerCapacity ≤ f.timers.frame + 1 + max f.player.window 1 := by
  rw [hitCounts]
  cases hplays : f.plays raw with
  | false =>
    obtain ⟨g, report, htick, -⟩ := exists_tick_eq_ok hplays
    rw [htick, Bool.false_and]
    refine iff_of_false ?_ fun h => Bool.false_ne_true h.1
    rintro ⟨⟩
  | true =>
    rw [tick_of_plays hplays, map_eq_error_iff, Bool.true_and]
    refine simulate_eq_error_iff (hframe (ended_of_plays hplays)) fun happroach => ?_
    rw [bodiesAfter, if_pos hplays, happroach] at hbodies
    exact hbodies

/-- A tick that does not fail creates the bodies that it is said to create, and tells of a hit if
one counts. -/
theorem tick_eq_ok {report : TickReport} (h : f.tick raw = .ok (g, report)) :
    g.world.nextBody = f.bodiesAfter raw ∧
      (f.hitCounts raw = true ↔ hitFrames report.events ≠ []) := by
  rw [hitCounts, bodiesAfter]
  cases hplays : f.plays raw with
  | false =>
    obtain ⟨g', report', htick, hnone, hsame⟩ := exists_tick_eq_ok hplays
    rw [h] at htick
    cases htick
    rw [hnone]
    exact ⟨hsame, nofun, fun hne => absurd rfl hne⟩
  | true =>
    rw [tick_of_plays hplays] at h
    obtain ⟨⟨g', events⟩, hsim, h⟩ := map_eq_ok_iff.1 h
    cases h
    obtain ⟨s⟩ := simulate_stages hsim
    rw [Bool.true_and, hitFrames, s.filterMap_playerHit?, Ne, List.map_eq_nil_iff]
    have htimed : (f.withKeys (f.keys.update raw)).runTimers.1 = s.timed :=
      congrArg Prod.fst s.timed_eq
    refine ⟨?_, htimed ▸ isStruck_iff_of_ok s.hit_eq⟩
    rw [simulate_eq_bind] at hsim
    obtain ⟨⟨m, before⟩, happroach, hconclude⟩ := bind_eq_ok_iff.1 hsim
    rw [if_pos rfl]
    dsimp only
    rw [happroach]
    exact nextBody_of_conclude hconclude

/-! ## The timers of a run -/

/-- No key is debounced in a run, and the timers of the keyboard count its ticks at most. -/
theorem exists_calm_run {held : Bool} (hcalm : f.keys.Calm held) {calls : List Call}
    {reports : List TickReport} (h : f.run calls = .ok (g, reports)) :
    (∃ held, g.keys.Calm held) ∧
      g.keys.debounce.frame ≤ f.keys.debounce.frame + reports.length := by
  induction calls generalizing f held reports with
  | nil =>
    cases h
    exact ⟨⟨held, hcalm⟩, Nat.le_refl _⟩
  | cons call rest ih =>
    cases call with
    | resume =>
      rw [run, resume_of_calm hcalm] at h
      exact ih hcalm h
    | tick raw =>
      obtain ⟨f', report, later, htick, hrest, rfl⟩ := run_tick_eq_ok h
      rw [List.length_cons]
      cases hended : f.ended with
      | true =>
        rw [tick_of_ended hended] at htick
        cases htick
        obtain ⟨hafter, hle⟩ := ih hcalm hrest
        exact ⟨hafter, by omega⟩
      | false =>
        have hkeys := keys_tick hended htick
        obtain ⟨hafter, hle⟩ := ih (hkeys ▸ hcalm.update raw) hrest
        rw [hkeys, hcalm.frame_update] at hle
        exact ⟨hafter, by omega⟩

section
variable {assets : Assets K} {settings : Settings K} {calls : List Call} {reports : List TickReport}

/-- The timer that a fight is set up with can be set. -/
theorem repeating_of_start (hstart : start assets settings = .ok f)
    (hinterval : settings.energyInterval < timerCapacity) :
    TimerQueue.empty.repeating settings.energyInterval TimerAction.gainEnergy =
      .ok (0, f.timers) := by
  obtain ⟨level, -, rfl⟩ := map_eq_ok_iff.1 hstart
  exact TimerQueue.repeating_empty hinterval TimerAction.gainEnergy

/-- As long as a fight that was set up goes on, its timers count the ticks without a pause. -/
theorem frame_timers_run (hstart : start assets settings = .ok f)
    (hrun : f.run calls = .ok (g, reports)) (hended : g.ended = false) :
    g.timers.frame = reports.countP (fun report => !report.pauseRequested) ∧
      g.frame = g.timers.frame := by
  obtain ⟨sheet, -, hbefore⟩ := windowsTold_of_start hstart
  have hsame := ((chronicle_windowsTold _ _).run_start hrun hbefore).frame_eq
  have hcounted : g.frame = reports.countP fun report => !report.pauseRequested := by
    refine chronicle_counted.run_start hrun (fun _ => ?_) hended
    obtain ⟨level, -, rfl⟩ := map_eq_ok_iff.1 hstart
    rfl
  exact ⟨hsame.trans hcounted, hsame.symm⟩

/-- Nor do the timers of its keyboard need a check. -/
theorem advanceChecked_debounce_run (hstart : start assets settings = .ok f)
    (hrun : f.run calls = .ok (g, reports)) (hticks : reports.length + 1 < timerCapacity) :
    g.keys.debounce.advanceChecked = .ok g.keys.debounce.advance := by
  obtain ⟨⟨held, hcalm⟩, hle⟩ := exists_calm_run (calm_of_start hstart) hrun
  have hnone : f.keys.debounce.frame = 0 := by
    obtain ⟨level, -, rfl⟩ := map_eq_ok_iff.1 hstart
    rfl
  exact TimerQueue.advanceChecked_eq_of_queue_eq hcalm.queue_eq (by omega)

/-- The bounds between which lives are kept are in order. -/
theorem maxLives_nonneg_run (hstart : start assets settings = .ok f)
    (hrun : f.run calls = .ok (g, reports)) : 0 ≤ g.status.maxLives := by
  obtain ⟨sheet, -, hbefore⟩ := livesTold_of_start hstart
  have hafter := (chronicle_livesTold _).run_start hrun hbefore
  exact Int.le_trans hafter.lives_nonneg hafter.le_maxLives

/-- What can fail in a tick that comes after some others, and what cannot, when the hits of the
player open windows of a length. -/
structure FaultsKept (window : Nat) (g : Fight K) (reports : List TickReport) (raw : ActionSet) :
    Prop where
  /-- A tick fails when a hit counts and the end of its window cannot be expressed. The frame from
  which it is counted is the number of ticks without a pause, this one included. -/
  error_iff : g.tick raw = .error .counterOverflow ↔ g.hitCounts raw = true ∧
    timerCapacity ≤ (reports.countP fun report => !report.pauseRequested) + 1 + max window 1
  frame_eq : g.plays raw = true →
    g.timers.frame = reports.countP fun report => !report.pauseRequested
  /-- So no tick fails when windows are not too long. -/
  ok_of_le : window ≤ timerCapacity - counterCapacity → ∃ g' report, g.tick raw = .ok (g', report)
  /-- A tick that does not fail creates the bodies that are counted here, and tells of a hit that
  counts. -/
  told : ∀ {g' : Fight K} {report : TickReport}, g.tick raw = .ok (g', report) →
    g'.world.nextBody = g.bodiesAfter raw ∧
      (g.hitCounts raw = true ↔ hitFrames report.events ≠ [])
  /-- A check of the sums in both timer queues finds nothing. -/
  timers_advance : g.plays raw = true → g.timers.advanceChecked = .ok g.timers.advance
  debounce_advance : g.keys.debounce.advanceChecked = .ok g.keys.debounce.advance
  nextId_lt : g.plays raw = true → g.timers.nextId + 1 < timerCapacity
  maxLives_nonneg : 0 ≤ g.status.maxLives

/-- In a run of fewer than `2 ^ 32 - 1` ticks that creates fewer than `2 ^ 32` bodies, a tick fails
exactly when a hit counts in it and the end of its window is beyond what a timer can express.
Nothing else fails, and neither does setting up the fight. -/
theorem run_faults (hstart : start assets settings = .ok f)
    (hrun : f.run calls = .ok (g, reports)) {raw : ActionSet}
    (hticks : reports.length + 1 < counterCapacity - 1)
    (hbodies : g.bodiesAfter raw < counterCapacity) :
    Supplied K ∧
    (settings.energyInterval < timerCapacity →
      TimerQueue.empty.repeating settings.energyInterval TimerAction.gainEnergy =
        .ok (0, f.timers)) ∧
    ∃ sheet, assets.player = .ok sheet ∧ FaultsKept sheet.invincibility g reports raw := by
  obtain ⟨sheet, hsheet, hbefore⟩ := windowsTold_of_start hstart
  have hwindows := (chronicle_windowsTold _ _).run_start hrun hbefore
  have hcount : (reports.countP fun report => !report.pauseRequested) ≤ reports.length :=
    List.countP_le_length
  have hwidths : 2 * counterCapacity < timerCapacity := by decide
  have hframe (hplays : g.plays raw = true) :=
    (frame_timers_run hstart hrun (ended_of_plays hplays)).1
  have herror : g.tick raw = .error .counterOverflow ↔ g.hitCounts raw = true ∧
      timerCapacity ≤
        (reports.countP fun report => !report.pauseRequested) + 1 + max sheet.invincibility 1 := by
    refine (tick_eq_error_iff (fun hended => ?_) hbodies).trans (and_congr_right fun hcounts => ?_)
    · obtain ⟨htimers, hsame⟩ := frame_timers_run hstart hrun hended
      omega
    · rw [hwindows.window_eq, hframe (Bool.and_eq_true_iff.1 hcounts).1]
  refine ⟨supplied, repeating_of_start hstart, sheet, hsheet, herror, hframe, fun hwindow => ?_,
    tick_eq_ok, fun hplays => ?_, advanceChecked_debounce_run hstart hrun (by omega),
    fun hplays => ?_, maxLives_nonneg_run hstart hrun⟩
  · cases htick : g.tick raw with
    | ok r => exact ⟨r.1, r.2, rfl⟩
    | error fault =>
      obtain ⟨-, hbeyond⟩ := herror.1 htick
      omega
  · have hnow := hframe hplays
    exact hwindows.windows.follows.advanceChecked_eq (by omega)
  · have hnow := hframe hplays
    have hids := hwindows.windows.nextId_le
    omega

end

end Fight

namespace Siege

open Demo

/-- The player of the siege, with a window as long as a sheet can say. -/
def lastingShip : Json Binary64 :=
  record [("asset_folder", .str "ship"),
    ("weapon", record [("fire_rate", .int 2), ("shots", .arr [])]),
    ("movement", record [("normal", .int 240), ("slowed", .int 90)]),
    ("invincibility_window", .int 0xffffffffffffffff), ("lives", .int 2),
    ("special", record [("name", .str "none"), ("energy_required", .int 2)])]

/-- The assets of the siege with this player. -/
def lastingAssets : Assets Binary64 := assets.insert Assets.playerKey lastingShip

/-- The first hit comes in the second tick, and the end of its window cannot be expressed. -/
theorem run_faults_lasting : ∃ f g reports, Fight.start lastingAssets settings = .ok f ∧
    f.run [.tick .empty] = .ok (g, reports) ∧ reports.length + 1 < counterCapacity - 1 ∧
    g.bodiesAfter .empty < counterCapacity ∧ settings.energyInterval < timerCapacity ∧
    g.tick .empty = .error .counterOverflow ∧
    ∃ sheet, lastingAssets.player = .ok sheet ∧
      Fight.FaultsKept sheet.invincibility g reports .empty := by
  have hrun : ((Fight.start lastingAssets settings).toOption.bind fun f =>
      (f.run [.tick .empty]).toOption.map fun r =>
        (r.2.map (·.pauseRequested), r.1.bodiesAfter .empty, r.1.hitCounts .empty)) =
      some ([false], 3, true) := by
    decide +kernel
  obtain ⟨f, hstart, hrun⟩ := toOption_bind_eq_some_iff.1 hrun
  obtain ⟨⟨g, reports⟩, hrun, hend⟩ := toOption_map_eq_some_iff.1 hrun
  simp only [Prod.mk.injEq] at hend
  obtain ⟨htold, hbodies, hcounts⟩ := hend
  have hlength : reports.length = 1 := by
    rw [← List.length_map (·.pauseRequested), htold]
    rfl
  have hticks : reports.length + 1 < counterCapacity - 1 := by
    rw [hlength]
    decide
  have hfew : g.bodiesAfter .empty < counterCapacity := by
    rw [hbodies]
    decide
  have hplayer : lastingAssets.player.toOption.map (·.invincibility) = some 0xffffffffffffffff := by
    decide +kernel
  obtain ⟨-, -, sheet, hsheet, hkept⟩ := Fight.run_faults hstart hrun hticks hfew
  rw [hsheet] at hplayer
  have hwindow : sheet.invincibility = 0xffffffffffffffff := Option.some.inj hplayer
  refine ⟨f, g, reports, hstart, hrun, hticks, hfew, by decide, hkept.error_iff.2 ⟨hcounts, ?_⟩,
    sheet, hsheet, hkept⟩
  rw [hwindow, Nat.add_assoc]
  exact Nat.le_add_left_of_le (by decide)

end Siege

end Barrage
