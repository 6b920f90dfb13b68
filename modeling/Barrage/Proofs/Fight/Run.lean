import Barrage.Fight.Basic
import Barrage.Number.Binary64
import Barrage.Runner.Demo
import Barrage.Proofs.Level

/-!
# Runs of a fight

A fight that was set up is moved on by calls: ticks, each of them with the keys that are held, and
resumptions after a pause. What a tick can do is said once, by `Fight.tick_cases`: nothing when the
fight is over, nothing but to take the keys when it asks for a pause, and otherwise the phases of a
frame one after the other (`Fight.simulate_eq_ok`). What a bullet can do to an enemy is said by
`Fight.hitEnemyBy_cases`.

So a property that is kept by every phase and does not depend on the keys (`Fight.KeptByPhases`)
holds after every run of a fight for which it held before (`Fight.KeptByPhases.run`).
-/

namespace Barrage

variable {K : Type} [Scalar K]

namespace Fight

/-- What the owner of a fight can do with it. -/
inductive Call where
  /-- One frame, with the keys that are held. -/
  | tick (raw : ActionSet)
  /-- The fight goes on after a pause. -/
  | resume

/-- Makes calls in order, and gives the reports of the ticks. -/
def run (f : Fight K) : List Call → Except Fault (Fight K × List TickReport)
  | [] => .ok (f, [])
  | .tick raw :: rest => do
    let (f, report) ← f.tick raw
    let (f, reports) ← f.run rest
    return (f, report :: reports)
  | .resume :: rest => f.resume.run rest

variable {f g : Fight K}

/-- A run that begins with a tick is the tick and the rest of the run. -/
theorem run_tick_eq_ok {raw : ActionSet} {rest : List Call} {reports : List TickReport}
    (h : f.run (.tick raw :: rest) = .ok (g, reports)) :
    ∃ f' report later, f.tick raw = .ok (f', report) ∧ f'.run rest = .ok (g, later) ∧
      reports = report :: later := by
  obtain ⟨⟨f', report⟩, htick, h⟩ := bind_eq_ok_iff.1 h
  obtain ⟨⟨g, later⟩, hrest, h⟩ := bind_eq_ok_iff.1 h
  cases h
  exact ⟨f', report, later, htick, hrest, rfl⟩

/-- A run is the run of its first calls and then that of the others. -/
theorem run_append_eq_ok {calls later : List Call} {reports : List TickReport}
    (h : f.run (calls ++ later) = .ok (g, reports)) :
    ∃ m earlier rest, f.run calls = .ok (m, earlier) ∧ m.run later = .ok (g, rest) ∧
      reports = earlier ++ rest := by
  induction calls generalizing f reports with
  | nil => exact ⟨f, [], reports, rfl, h, rfl⟩
  | cons call rest ih =>
    cases call with
    | tick raw =>
      obtain ⟨f', report, told, htick, hrest, rfl⟩ := run_tick_eq_ok h
      obtain ⟨m, earlier, later, hfirst, hlater, rfl⟩ := ih hrest
      refine ⟨m, report :: earlier, later, ?_, hlater, rfl⟩
      rw [run, htick]
      simp only [bind, Except.bind, hfirst]
      rfl
    | resume => exact ih h

/-- What a tick can do. -/
theorem tick_cases {raw : ActionSet} {report : TickReport} (h : f.tick raw = .ok (g, report)) :
    (f.ended = true ∧ g = f ∧ report = ⟨[], false, true⟩) ∨
    (f.ended = false ∧ (f.keys.update raw).active.has .pause = true ∧
      g = { f with keys := f.keys.update raw } ∧ report = ⟨[], true, false⟩) ∨
    (f.ended = false ∧ (f.keys.update raw).active.has .pause = false ∧
      ∃ events, { f with keys := f.keys.update raw }.simulate (f.keys.update raw).active =
        .ok (g, events) ∧ report = ⟨Event.sort events, false, g.ended⟩) := by
  rw [tick] at h
  split at h
  · next hended =>
    cases h
    exact .inl ⟨hended, rfl, rfl⟩
  · next hended =>
    have hended := Bool.eq_false_iff.2 hended
    dsimp only at h
    split at h
    · next hpause =>
      cases h
      exact .inr (.inl ⟨hended, hpause, rfl, rfl⟩)
    · next hpause =>
      obtain ⟨⟨g, events⟩, hsim, hg⟩ := map_eq_ok_iff.1 h
      cases hg
      exact .inr (.inr ⟨hended, Bool.eq_false_iff.2 hpause, events, hsim, rfl⟩)

/-- A fight that is over stays as it is. -/
theorem tick_of_ended (hended : f.ended = true) (raw : ActionSet) :
    f.tick raw = .ok (f, ⟨[], false, true⟩) := by
  rw [tick, if_pos hended]

/-- When the pause key goes down, a tick takes the keys and asks for a pause, and that is all. -/
theorem tick_of_pause {raw : ActionSet} (hended : f.ended = false)
    (hpause : (f.keys.update raw).active.has .pause = true) :
    f.tick raw = .ok ({ f with keys := f.keys.update raw }, ⟨[], true, false⟩) := by
  rw [tick, if_neg (Bool.eq_false_iff.1 hended)]
  exact if_pos hpause

/-- Otherwise it takes the keys and simulates a frame. -/
theorem tick_of_play {raw : ActionSet} (hended : f.ended = false)
    (hpause : (f.keys.update raw).active.has .pause = false) :
    f.tick raw =
      ({ f with keys := f.keys.update raw }.simulate (f.keys.update raw).active).map
        fun (r : Fight K × List Event) => (r.1, ⟨Event.sort r.2, false, r.1.ended⟩) := by
  rw [tick, if_neg (Bool.eq_false_iff.1 hended)]
  exact if_neg (Bool.eq_false_iff.1 hpause)

/-- What a simulated frame does: one phase after the other, and the counters of the fight at the end
fit. -/
theorem simulate_eq_ok {keys : ActionSet} {events : List Event}
    (h : f.simulate keys = .ok (g, events)) :
    ∃ hit playerHits, f.runTimers.1.moveBodies.hitPlayerPhase = .ok (hit, playerHits) ∧
      g =
        (hit.hitEnemyPhase.1.playerPhase keys).1.arrivalPhase.1.enemyPhase.1.sweepPhase.countFrame.1
      ∧ g.fits = true := by
  obtain ⟨⟨hit, playerHits⟩, hhit, h⟩ := bind_eq_ok_iff.1 h
  refine ⟨hit, playerHits, hhit, ?_⟩
  dsimp only at h
  split at h
  · next hfits =>
    cases h
    exact ⟨rfl, hfits⟩
  · cases h

omit [Scalar K] in
/-- What a bullet that meets an enemy can do: nothing, when it is gone or the enemy is not in the
fight. Otherwise the enemy takes the damage of the bullet, and the bullet is destroyed. -/
theorem hitEnemyBy_cases (f : Fight K) (bullet enemy : BodyId) :
    ((bullet ∉ f.world.bodies ∨ ∀ e ∈ f.enemies, e.body ≠ enemy) ∧
      f.hitEnemyBy bullet enemy = (f, [])) ∨
    (bullet ∈ f.world.bodies ∧ ∃ i e amount, f.enemies[i]? = some e ∧ e.body = enemy ∧
      amount = f.world.damage[bullet]?.getD f.settings.shotDamage ∧
      f.hitEnemyBy bullet enemy =
        ({ f with world := f.world.destroy bullet, enemies := f.enemies.set i (e.damage amount) },
          [.on f.frame (.enemyHit enemy amount)])) := by
  rw [hitEnemyBy]
  split
  · next hnone =>
    rw [List.findIdx?_eq_none_iff] at hnone
    exact .inl ⟨.inr fun e he => beq_eq_false_iff_ne.1 (hnone e he), rfl⟩
  · next i hi =>
    obtain ⟨hlt, hbody, -⟩ := List.findIdx?_eq_some_iff_getElem.1 hi
    rw [List.getElem?_eq_getElem hlt]
    dsimp only
    by_cases hbullet : bullet ∈ f.world.bodies
    · rw [hitEnemy, if_pos (Std.ExtTreeMap.contains_iff_mem.2 hbullet)]
      exact .inr ⟨hbullet, i, f.enemies[i], _, List.getElem?_eq_getElem hlt, eq_of_beq hbody, rfl,
        rfl⟩
    · rw [hitEnemy, if_neg (mt Std.ExtTreeMap.contains_iff_mem.1 hbullet)]
      exact .inl ⟨.inl hbullet, rfl⟩

/-- A fight that can be set up is made from the player, the sizes and the timeline of its assets. -/
theorem start_eq_ok {assets : Assets K} {settings : Settings K}
    (h : start assets settings = .ok f) :
    ∃ player sizes entries arrivals, assets.player = .ok player ∧ assets.sizes = .ok sizes ∧
      assets.level = .ok entries ∧ Level.arrivals? assets entries = .ok arrivals ∧
      f = ofLevel assets settings ⟨player, sizes, arrivals⟩ := by
  obtain ⟨level, hload, rfl⟩ := map_eq_ok_iff.1 h
  obtain ⟨player, hplayer, hload⟩ := bind_eq_ok_iff.1 hload
  obtain ⟨sizes, hsizes, hload⟩ := bind_eq_ok_iff.1 hload
  obtain ⟨entries, hlevel, hload⟩ := bind_eq_ok_iff.1 hload
  obtain ⟨arrivals, harrivals, hload⟩ := bind_eq_ok_iff.1 hload
  rw [Level.enlist_eq_arrivals? (Level.Roster.vetted_empty assets)] at harrivals
  cases hload
  exact ⟨player, sizes, entries, arrivals, hplayer, hsizes, hlevel, harrivals, rfl⟩

/-- A property of fights that every phase of a frame keeps, whatever the keys are. -/
structure KeptByPhases (P : Fight K → Prop) : Prop where
  withKeys : ∀ {f : Fight K} (keys : Keyboard), P f → P { f with keys }
  runTimers : ∀ {f : Fight K}, P f → P f.runTimers.1
  moveBodies : ∀ {f : Fight K}, P f → P f.moveBodies
  hitPlayerPhase : ∀ {f g : Fight K} {events : List Event}, f.hitPlayerPhase = .ok (g, events) →
    P f → P g
  hitEnemyPhase : ∀ {f : Fight K}, P f → P f.hitEnemyPhase.1
  playerPhase : ∀ {f : Fight K} (keys : ActionSet), P f → P (f.playerPhase keys).1
  arrivalPhase : ∀ {f : Fight K}, P f → P f.arrivalPhase.1
  enemyPhase : ∀ {f : Fight K}, P f → P f.enemyPhase.1
  sweepPhase : ∀ {f : Fight K}, P f → P f.sweepPhase
  countFrame : ∀ {f : Fight K}, P f → P f.countFrame.1

variable {P : Fight K → Prop}

/-- A frame keeps what its phases keep. -/
theorem KeptByPhases.simulate (hP : KeptByPhases P) {keys : ActionSet} {events : List Event}
    (h : f.simulate keys = .ok (g, events)) (hf : P f) : P g := by
  obtain ⟨hit, playerHits, hhit, rfl, -⟩ := simulate_eq_ok h
  have hhit : P hit := hP.hitPlayerPhase hhit (hP.moveBodies (hP.runTimers hf))
  have hplayer := hP.playerPhase keys (hP.hitEnemyPhase hhit)
  exact hP.countFrame (hP.sweepPhase (hP.enemyPhase (hP.arrivalPhase hplayer)))

/-- A tick of whatever kind keeps what the phases keep. -/
theorem KeptByPhases.tick (hP : KeptByPhases P) {raw : ActionSet} {report : TickReport}
    (h : f.tick raw = .ok (g, report)) (hf : P f) : P g := by
  rcases tick_cases h with ⟨-, rfl, -⟩ | ⟨-, -, rfl, -⟩ | ⟨-, -, events, hsim, -⟩
  · exact hf
  · exact hP.withKeys _ hf
  · exact hP.simulate hsim (hP.withKeys _ hf)

/-- What the phases keep holds after every run. -/
theorem KeptByPhases.run (hP : KeptByPhases P) {calls : List Call} {reports : List TickReport}
    (h : f.run calls = .ok (g, reports)) (hf : P f) : P g := by
  induction calls generalizing f reports with
  | nil =>
    cases h
    exact hf
  | cons call rest ih =>
    cases call with
    | tick raw =>
      obtain ⟨f', report, later, htick, hrest, -⟩ := run_tick_eq_ok h
      exact ih hrest (hP.tick htick hf)
    | resume => exact ih h (hP.withKeys _ hf)

end Fight

/-! ## A short duel

A fight in which everything happens within two frames. On the first one an enemy appears on the
player's place, and both fire. On the second one they hit each other: the enemy is out of routines,
and the player is out of lives.
-/

namespace Duel

open Demo

/-- A shot with a velocity of its own. -/
def pellet (x y : Int) : Json Binary64 :=
  record [("shot_id", .str "pellet"), ("x_velo", .int x), ("y_velo", .int y), ("damage", .int 2)]

/-- The only routine of the enemy: two shots at once. -/
def stand : Json Binary64 :=
  record [("name", .str "stand"), ("duration", .int 9), ("hp", .int 2),
    ("shots", .arr [record [("type", .str "ShotArray"), ("times", ints [0]),
      ("shots", .arr [pellet 0 100, pellet 0 9])]])]

/-- The player, with one life and one gun. -/
def ship : Json Binary64 :=
  record [("asset_folder", .str "ship"),
    ("weapon", record [("fire_rate", .int 2), ("shots", .arr [pellet 0 (-600)])]),
    ("movement", record [("normal", .int 240), ("slowed", .int 90)]),
    ("invincibility_window", .int 3), ("lives", .int 1),
    ("special", record [("name", .str "none"), ("energy_required", .int 2)])]

/-- The assets of the duel. -/
def assets : Assets Binary64 :=
  (((Assets.empty.insert Assets.playerKey ship).insert Assets.levelKey
    (.arr [arrival 0 "rival"])).insert "rival"
    (record [("id", .str "rival"), ("routines", .arr [routineRef "stand"])])).insert "stand" stand

/-- The settings of the duel: both start on the same place. -/
def settings : Settings Binary64 :=
  { Settings.standard with playerPlace := Settings.standard.enemyPlace }

/-- What is held during the duel: the player fires, and the pause key goes down on the second input
frame. -/
def inputs : List ActionSet :=
  [.ofList [.fire], .ofList [.fire, .pause], .ofList [.fire, .pause], .empty, .empty]

end Duel

/-! ## A siege

A fight in which the player does nothing and all stand on its place. It has two lives and is hit on
each frame on which no window of its is running, so the fourth frame is the last one. The timeline
lists a late arrival first.
-/

namespace Siege

open Demo

/-- The player, with two lives, a window of two frames and no gun. -/
def ship : Json Binary64 :=
  record [("asset_folder", .str "ship"),
    ("weapon", record [("fire_rate", .int 2), ("shots", .arr [])]),
    ("movement", record [("normal", .int 240), ("slowed", .int 90)]),
    ("invincibility_window", .int 2), ("lives", .int 2),
    ("special", record [("name", .str "none"), ("energy_required", .int 2)])]

/-- An enemy that stays. -/
def guard (image : String) : Json Binary64 :=
  record [("id", .str image), ("routines", .arr [routineRef "watch"])]

/-- The timeline: three enemies, and something that is none. -/
def timeline : Json Binary64 :=
  .arr [arrival 2 "sentry", record [("time", .int 1), ("type", .str "music"), ("id", .str "theme")],
    arrival 0 "sentry", arrival 0 "scout"]

/-- The assets of the siege. -/
def assets : Assets Binary64 :=
  ((((Assets.empty.insert Assets.playerKey ship).insert Assets.levelKey timeline).insert "sentry"
    (guard "tower")).insert "scout" (guard "kite")).insert "watch"
    (record [("name", .str "watch"), ("duration", .int 9), ("loops", .bool true)])

/-- The settings of the siege: all start on the same place. -/
def settings : Settings Binary64 :=
  { Settings.standard with playerPlace := Settings.standard.enemyPlace }

/-- What is called, with a pause behind the first frame and a tick behind the last one. -/
def calls : List Fight.Call :=
  [.tick .empty, .tick (.ofList [.pause]), .resume, .tick .empty, .tick .empty, .tick .empty,
    .tick .empty]

/-- What the siege comes to: the end of the fight in the fifth of six ticks, two of which are not
simulated. -/
theorem run_calls : ∃ f g reports, Fight.start assets settings = .ok f ∧
    f.run calls = .ok (g, reports) ∧
    (g.frame, g.ended, g.status.lives, g.player.invincible) = (4, true, 0, true) ∧
    reports.map (fun report => (report.pauseRequested, report.ended)) =
      [(false, false), (true, false), (false, false), (false, false), (false, true),
        (false, true)] := by
  have hrun : ((Fight.start assets settings).toOption.bind fun f => (f.run calls).toOption.map
      fun r => ((r.1.frame, r.1.ended, r.1.status.lives, r.1.player.invincible),
        r.2.map fun report => (report.pauseRequested, report.ended))) =
      some ((4, true, 0, true), [(false, false), (true, false), (false, false), (false, false),
        (false, true), (false, true)]) := by
    decide +kernel
  obtain ⟨f, hstart, hrun⟩ := toOption_bind_eq_some_iff.1 hrun
  obtain ⟨⟨g, reports⟩, hrun, hend⟩ := toOption_map_eq_some_iff.1 hrun
  rw [Prod.mk.injEq] at hend
  exact ⟨f, g, reports, hstart, hrun, hend⟩

end Siege

end Barrage
