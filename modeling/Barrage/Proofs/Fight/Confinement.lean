import Barrage.Proofs.Enemy.Holding
import Barrage.Proofs.Fight.EnemyTurns

/-!
# Enemies that stay within their limits

An enemy that roams and comes within its limits stays there for as long as it is in the fight
(`Fight.run_confined`). What a frame keeps is more than that (`Fight.Guarded`): at its end the next
step of the world, too, leads to a place within the limits. For the step comes first in a frame, and
what it will do is what the turn of the enemy has checked on the frame before.

An axis that was blocked stays at rest on the frames that follow, as long as the enemy looks up no
entry of a table (`Fight.LooksUpNone`).

Numbers are exact here.
-/

namespace Barrage

variable {K : Type}

section
variable [Scalar K]

/-- The box in which an enemy of some size comes. -/
def Settings.arrivalBox (settings : Settings K) (size : Size K) : Rect K :=
  .ofMidpoint (settings.enemyPlace.onScreen settings.viewport.width settings.viewport.height)
    size.width size.height

/-- In none of the frames of some calls an enemy looks up an entry of a table. -/
def Fight.LooksUpNone (id : BodyId) : Fight K → List Fight.Call → Prop
  | _, [] => True
  | f, .resume :: rest => f.resume.LooksUpNone id rest
  | f, .tick raw :: rest => ∀ g report, f.tick raw = .ok (g, report) → g.LooksUpNone id rest ∧
      (f.ended = false → report.pauseRequested = false →
        ∀ events, ∀ s : Stages { f with keys := f.keys.update raw } (f.keys.update raw).active g
          events, ∀ e ∈ s.joined.enemies, e.body = id → e.nextManeuver? = none)

end

variable [Field K] [LinearOrder K] [IsStrictOrderedRing K] [Elementary K]

/-- An enemy comes with a body in its place. If its limits enclose this place, it is inside. -/
theorem Enemy.exists_body_spawn {e : Enemy K} {sheet : EnemySheet} {assets : Assets K}
    {w w' : World K} {group : GroupId} {settings : Settings K} {size : Size K}
    (h : spawn sheet assets w group settings size = .ok (e, w')) :
    ∃ b, w'.bodies[e.body]? = some b ∧ b.rect = settings.arrivalBox size ∧
      (e.limits.Encloses (settings.arrivalBox size) → e.Inside b) := by
  obtain ⟨scripts, -, h⟩ := map_eq_ok_iff.1 h
  let point := settings.enemyPlace.onScreen settings.viewport.width settings.viewport.height
  let created := (w.create sheet.image point size).2
  have hcreated : created.bodies[w.nextBody]? = some
      { sprite := sheet.image, position := point
        half := ⟨size.width / Scalar.whole 2, size.height / Scalar.whole 2⟩
        velocity := .zero, acceleration := .zero, bounded := false } :=
    Std.ExtTreeMap.getElem?_insert_self
  obtain ⟨velocity, acceleration, hjoin⟩ := created.exists_body_join group hcreated
  cases h
  have htwo : (Scalar.whole 2 : K) ≠ 0 := by
    rw [Scalar.whole_exact]
    exact two_ne_zero
  have hrect : ({ sprite := sheet.image, position := point
                  half := ⟨size.width / Scalar.whole 2, size.height / Scalar.whole 2⟩
                  velocity, acceleration, bounded := false } : Body K).rect =
      settings.arrivalBox size := by
    rw [Body.rect, Body.width, Body.height, div_mul_cancel₀ _ htwo, div_mul_cancel₀ _ htwo]
    rfl
  exact ⟨_, hjoin, hrect, fun hencloses => ⟨rfl, hrect ▸ hencloses,
    Sequence.carries_new scripts fun _ => rfl⟩⟩

namespace Fight

section
variable {f g : Fight K}

/-! ## Held through the frames -/

/-- An enemy that roams and came within its limits. -/
structure Confines (f : Fight K) (e : Enemy K) : Prop where
  roams : ∃ sheet, e.CameBy sheet f.assets f.settings ∧ sheet.Roams f.assets
  arrived : e.limits.Encloses (f.settings.arrivalBox (f.sizeOf e.image))

omit [IsStrictOrderedRing K] in
/-- What is kept of a fight and of an enemy decides on it. -/
theorem Confines.of_makeup {e e' : Enemy K} (h : f.Confines e) (hkept : f.Keeps g)
    (hmakeup : e.makeup = e'.makeup) : g.Confines e' := by
  obtain ⟨⟨sheet, hcame, hroams⟩, harrived⟩ := h
  have himage : e.image = e'.image := congrArg Makeup.image hmakeup
  have hlimits : e.limits = e'.limits := congrArg Makeup.limits hmakeup
  rw [himage, hlimits] at harrived
  rw [Enemy.CameBy, hmakeup, ← hkept.settings_eq, ← hkept.assets_eq] at hcame
  refine ⟨⟨sheet, hcame, hkept.assets_eq ▸ hroams⟩, ?_⟩
  rw [sizeOf, hkept.settings_eq, hkept.sizes_eq]
  exact harrived

/-- An enemy at the end of a frame: if it is confined, it is held. -/
structure Guards (f : Fight K) (e : Enemy K) (b : Body K) : Prop where
  came : ∃ a ∈ f.arrivals, e.CameBy a.sheet f.assets f.settings
  held : f.Confines e → e.Held f.settings.dt b

/-- A fight in which all enemies are so. -/
structure Guarded (f : Fight K) : Prop where
  staffed : f.Staffed
  each : f.EachWith f.Guards

/-- An enemy when its turn comes in a frame: if it is confined, it is inside its limits. -/
structure Meets (f : Fight K) (e : Enemy K) (b : Body K) : Prop where
  came : ∃ a ∈ f.arrivals, e.CameBy a.sheet f.assets f.settings
  inside : f.Confines e → e.Inside b
  /-- It may have come on this frame. -/
  box_eq : f.world.nextBody ≤ e.body → b.rect = f.settings.arrivalBox (f.sizeOf e.image)

/-- The step of the world leads every enemy to a place within its limits. -/
theorem Guarded.joined (h : f.Guarded) {keys : ActionSet} {events : List Event}
    (s : Stages f keys g events) : s.joined.EachWith f.Meets := by
  refine s.eachWith_joined (P := fun e b => e.body < f.world.nextBody ∧ f.Guards e b) h.staffed
    ?_ ?_ ?_ ?_
  · rintro e b ⟨hlt, hcame, hheld⟩
    exact ⟨hcame, fun hconfined => (hheld hconfined).step _,
      fun hnew => absurd hnew (Nat.not_le_of_lt hlt)⟩
  · rintro e b amount ⟨⟨a, ha, hcame⟩, hinside, hbox⟩
    have hmakeup := e.makeup_damage amount
    rw [Enemy.CameBy, ← hmakeup] at hcame
    exact ⟨⟨a, ha, hcame⟩, fun hconfined =>
      (hinside (hconfined.of_makeup (.refl f) hmakeup)).damage amount, hbox⟩
  · intro a ha w w' e _ hspawn
    obtain ⟨b, hb, hrect, hinside⟩ := Enemy.exists_body_spawn hspawn
    have hcame := Enemy.cameBy_spawn hspawn
    have himage : e.image = a.sheet.image := congrArg Role.image (Enemy.spawn_eq_ok hspawn).1
    exact ⟨b, hb, ⟨a, ha, hcame⟩, fun hconfined => hinside (himage ▸ hconfined.arrived),
      fun _ => himage ▸ hrect⟩
  · intro e he
    obtain ⟨b, hb, hguarded⟩ := h.each e he
    exact ⟨b, hb, h.staffed.enemy_lt_nextBody (List.mem_map_of_mem he), hguarded⟩

/-- A frame keeps the enemies held: what the turn of an enemy checks is what the next step does. -/
theorem Guarded.frame (h : f.Guarded) {keys : ActionSet} {events : List Event}
    (s : Stages f keys g events) : g.Guarded := by
  have hkept : f.Keeps g := s.kept (keptByPhases_keeps f) (.refl f)
  refine ⟨s.kept keptByPhases_staffed h.staffed, s.eachWith_of_joined h.staffed (h.joined s) ?_⟩
  rintro e scene before after hplays ⟨⟨a, ha, hcame⟩, hinside, -⟩
  have hmakeup := (e.turn_play scene).1.makeup_eq
  refine ⟨⟨a, hkept.arrivals_eq ▸ ha, ?_⟩, fun hconfined => ?_⟩
  · rw [Enemy.CameBy, hmakeup, hkept.settings_eq, hkept.assets_eq]
    exact hcame
  · have hconfined : f.Confines e := hconfined.of_makeup hkept.symm hmakeup
    obtain ⟨sheet, hsheet, hroams⟩ := hconfined.roams
    obtain ⟨found, hfound⟩ := hplays.found
    rw [hplays.eq_takeUp, ← hplays.dt_eq]
    exact (hinside hconfined).play (hsheet.roams hroams) hfound hplays.before_eq hplays.lt_nextBody

omit [IsStrictOrderedRing K] in
/-- Whether a fight is guarded does not depend on its keys. -/
theorem Guarded.withKeys (h : f.Guarded) (keys : Keyboard) :
    ({ f with keys } : Fight K).Guarded := by
  refine ⟨h.staffed, fun e he => ?_⟩
  obtain ⟨b, hb, hcame, hheld⟩ := h.each e he
  exact ⟨b, hb, hcame, fun hconfined => hheld ⟨hconfined.roams, hconfined.arrived⟩⟩

/-- Every tick keeps a fight guarded. -/
theorem chronicle_guarded : Chronicle fun (f : Fight K) _ => f.Guarded where
  withKeys keys h := h.withKeys keys
  ended _ h := h
  pause _ h := h
  frame _ s h := h.frame s

/-! ## At rest -/

/-- An enemy of a fight is at rest at a position along an axis. -/
structure RestsAt (f : Fight K) (id : BodyId) (a : Axis) (position : K) : Prop where
  staffed : f.Staffed
  lt_nextBody : id < f.world.nextBody
  each : f.EachWith fun e b => e.body = id → e.Rests a position b

variable {id : BodyId} {a : Axis} {position : K}

omit [IsStrictOrderedRing K] in
/-- The number of its body tells it from the other enemies. -/
theorem Guarded.restsAt (h : f.Guarded) {e : Enemy K} (he : e ∈ f.enemies) {b : Body K}
    (hb : f.world.bodies[e.body]? = some b) (hrests : e.Rests a position b) :
    f.RestsAt e.body a position := by
  refine ⟨h.staffed, h.staffed.enemy_lt_nextBody (List.mem_map_of_mem he), fun other ho => ?_⟩
  obtain ⟨b', hb', -⟩ := h.each other ho
  refine ⟨b', hb', fun hid => ?_⟩
  obtain rfl := List.inj_on_of_nodup_map h.staffed.intact.nodup_enemyBodies ho he hid
  obtain rfl := Option.some.inj (hb.symm.trans hb')
  exact hrests

/-- An enemy that rests stays where it is on a frame on which it looks up no entry. -/
theorem RestsAt.frame (h : f.RestsAt id a position) {keys : ActionSet} {events : List Event}
    (s : Stages f keys g events)
    (hnone : ∀ e ∈ s.joined.enemies, e.body = id → e.nextManeuver? = none) :
    g.RestsAt id a position := by
  have hjoined : s.joined.EachWith fun e b => e.body = id → e.Rests a position b := by
    refine s.eachWith_joined h.staffed (fun e b hrests hid => (hrests hid).step _ _)
      (fun e b amount hrests hid => (hrests hid).damage amount) ?_ h.each
    intro a ha w w' e hle hspawn
    obtain ⟨b, hb, -⟩ := Enemy.exists_body_spawn hspawn
    -- who comes has another number
    have hbody : e.body = w.nextBody := congrArg Role.body (Enemy.spawn_eq_ok hspawn).1
    exact ⟨b, hb, fun hid => absurd (hbody.symm.trans hid)
      (Nat.ne_of_gt (Nat.lt_of_lt_of_le h.lt_nextBody hle))⟩
  refine ⟨s.kept keptByPhases_staffed h.staffed,
    Nat.lt_of_lt_of_le h.lt_nextBody (s.kept (keptByPhases_nextBody _) (Nat.le_refl _)),
    s.eachWith_of_joined h.staffed hjoined ?_⟩
  intro e scene before after hplays hrests hid
  rw [(e.turn_play scene).1.body_eq] at hid
  obtain ⟨found, hfound⟩ := hplays.found
  rw [hplays.eq_takeUp]
  exact (hrests hid).play hfound (hnone e hplays.onTurn.mem hid) hplays.before_eq hplays.lt_nextBody

/-- An enemy that rests stays where it is as long as it looks up no entry. -/
theorem RestsAt.run (h : f.RestsAt id a position) {calls : List Call} {reports : List TickReport}
    (hquiet : f.LooksUpNone id calls) (hrun : f.run calls = .ok (g, reports)) :
    g.RestsAt id a position := by
  induction calls generalizing f reports with
  | nil =>
    cases hrun
    exact h
  | cons call rest ih =>
    cases call with
    | resume => exact ih (f := f.resume) ⟨h.staffed, h.lt_nextBody, h.each⟩ hquiet hrun
    | tick raw =>
      obtain ⟨f', report, later, htick, hrest, -⟩ := run_tick_eq_ok hrun
      obtain ⟨hquiet, hframe⟩ := hquiet f' report htick
      refine ih ?_ hquiet hrest
      rcases tick_cases htick with ⟨-, rfl, -⟩ | ⟨-, -, rfl, -⟩ | ⟨hended, -, events, hsim, rfl⟩
      · exact h
      · exact ⟨h.staffed, h.lt_nextBody, h.each⟩
      · obtain ⟨s⟩ := simulate_stages hsim
        exact RestsAt.frame (f := { f with keys := f.keys.update raw })
          ⟨h.staffed, h.lt_nextBody, h.each⟩ s (hframe hended rfl events s)

/-! ## Runs -/

/-- What a frame makes of an enemy that is confined. -/
structure HoldsIn {keys : ActionSet} {events : List Event} (s : Stages f keys g events)
    (e : Enemy K) (scene : Scene K) (before after : Body K) : Prop where
  plays : s.Plays e scene before after
  /-- If it has come on this frame, it was in its place when its turn came. -/
  arrives : f.world.nextBody ≤ e.body → before.rect = f.settings.arrivalBox (f.sizeOf e.image)
  /-- The next step of the world carries out what its turn has checked. -/
  held : ∃ next, (g.world.step g.settings.dt).bodies[e.body]? = some next ∧ ∀ a,
    Body.HeldAlong e.limits g.settings.dt (e.nextMovement scene.rng) before after next a
  /-- An axis that was blocked does not move before another entry is looked up. -/
  rests : ∀ a, (e.limits.check before a
      ((e.nextMovement scene.rng).displacement g.settings.dt)).possible = false →
    ∀ {calls : List Call} {h : Fight K} {reports : List TickReport},
      g.run calls = .ok (h, reports) → g.LooksUpNone e.body calls →
      ∀ e' ∈ h.enemies, e'.body = e.body →
        ∃ b, h.world.bodies[e.body]? = some b ∧ b.position.along a = after.position.along a

/-- A frame makes this of every enemy that is confined. -/
theorem Guarded.exists_holdsIn (h : f.Guarded) {keys : ActionSet} {events : List Event}
    (s : Stages f keys g events) {e' : Enemy K} (he' : e' ∈ g.enemies) (hconfined : f.Confines e') :
    ∃ e scene before after, HoldsIn s e scene before after ∧ e' = (e.play scene).enemy := by
  obtain ⟨e, scene, before, after, hplays, rfl⟩ := s.exists_plays h.staffed he'
  obtain ⟨b, hb, -, hinside, hbox⟩ := h.joined s e hplays.onTurn.mem
  obtain rfl := Option.some.inj (hplays.joined_eq.symm.trans hb)
  obtain ⟨hturn, -⟩ := e.turn_play scene
  have hconfined : f.Confines e := hconfined.of_makeup (.refl f) hturn.makeup_eq
  obtain ⟨sheet, hsheet, hroams⟩ := hconfined.roams
  have hroams := hsheet.roams hroams
  obtain ⟨found, hfound⟩ := hplays.found
  have htaken := hplays.eq_takeUp
  rw [hplays.dt_eq] at htaken
  refine ⟨e, scene, before, after,
    ⟨hplays, hbox, ?_, fun a hblocked calls h' reports hrun hquiet => ?_⟩, rfl⟩
  · refine ⟨after.step g.world.bounds g.settings.dt, ?_, fun a => ?_⟩
    · rw [World.bodies_step, hplays.end_eq]
      rfl
    · rw [htaken]
      exact (hinside hconfined).heldAlong hroams hfound scene.rng _ _ a
  · have hrests := (hinside hconfined).rests_play hroams hfound hplays.before_eq hplays.lt_nextBody
      (hplays.dt_eq ▸ hblocked)
    rw [← hplays.eq_takeUp] at hrests
    have hat := (h.frame s).restsAt he' (hturn.body_eq.symm ▸ hplays.end_eq) hrests
    rw [hturn.body_eq] at hat
    intro e' he' hid
    obtain ⟨b, hb, hrests⟩ := (hat.run hquiet hrun).each e' he'
    exact ⟨b, hid ▸ hb, (hrests hid).position_eq⟩

/-- What holds of the enemies of a fight, and of its next frame. -/
structure ConfinementKept (f g : Fight K) : Prop where
  came : ∀ e ∈ g.enemies, ∃ a ∈ f.arrivals, e.CameBy a.sheet f.assets f.settings
  /-- The boxes of those that are confined are within their limits. -/
  within : ∀ e ∈ g.enemies, f.Confines e →
    ∃ b, g.world.bodies[e.body]? = some b ∧ e.limits.Encloses b.rect
  /-- A tick that simulates a frame holds each of them along each axis. -/
  holds : ∀ {raw : ActionSet} {g' : Fight K} {report : TickReport},
    g.tick raw = .ok (g', report) → g.ended = false → report.pauseRequested = false → ∃ events,
      ∃ s : Stages { g with keys := g.keys.update raw } (g.keys.update raw).active g' events,
        ∀ e' ∈ g'.enemies, f.Confines e' →
          ∃ e scene before after, HoldsIn s e scene before after ∧ e' = (e.play scene).enemy

/-- In every run, an enemy that is given no movement outright and comes within its limits is within
them after every tick, for as long as it is in the fight. On the way the next step of the world
carries out what the enemy has checked, and where it was blocked it waits for another entry. -/
theorem run_confined {assets : Assets K} {settings : Settings K}
    (hstart : start assets settings = .ok f) {calls : List Call} {reports : List TickReport}
    (hrun : f.run calls = .ok (g, reports)) : ConfinementKept f g := by
  have hbegin : f.Guarded := by
    refine ⟨staffed_of_start hstart, ?_⟩
    obtain ⟨player, sizes, entries, arrivals, -, -, -, -, rfl⟩ := start_eq_ok hstart
    exact nofun
  have hkept : f.Keeps g := (keptByPhases_keeps f).run hrun (.refl f)
  have h : g.Guarded := chronicle_guarded.run_start hrun hbegin
  refine ⟨fun e he => ?_, fun e he hconfined => ?_, fun htick hended hpause => ?_⟩
  · obtain ⟨b, hb, ⟨a, ha, hcame⟩, -⟩ := h.each e he
    rw [hkept.assets_eq, hkept.settings_eq] at hcame
    exact ⟨a, hkept.arrivals_eq ▸ ha, hcame⟩
  · obtain ⟨b, hb, -, hheld⟩ := h.each e he
    exact ⟨b, hb, (hheld (hconfined.of_makeup hkept rfl)).within⟩
  · rcases tick_cases htick with ⟨hover, -, -⟩ | ⟨-, -, -, rfl⟩ | ⟨-, -, events, hsim, rfl⟩
    · rw [hended] at hover
      cases hover
    · cases hpause
    · obtain ⟨s⟩ := simulate_stages hsim
      refine ⟨events, s, fun e' he' hconfined => ?_⟩
      exact (h.withKeys _).exists_holdsIn s he'
        (hconfined.of_makeup ((keptByPhases_keeps f).withKeys _ hkept) rfl)

end

end Fight

/-! ## A patrol

A fight over the rational numbers in which a boss drifts to the right border of its limits and then
goes down along it.
-/

namespace Patrol

open Demo

/-- A player without a gun. -/
def ship : Json ℚ :=
  record [("asset_folder", .str "ship"),
    ("weapon", record [("fire_rate", .int 2), ("shots", .arr [])]),
    ("movement", record [("normal", .int 240), ("slowed", .int 90)]),
    ("invincibility_window", .int 2), ("lives", .int 1),
    ("special", record [("name", .str "none"), ("energy_required", .int 2)])]

/-- The routine of the boss, with ranges that leave no choice. -/
def drift : Json ℚ :=
  record [("name", .str "drift"), ("duration", .int 9),
    ("moves", .arr [record [("type", .str "Randomized"), ("times", ints [0]),
      ("x_velo_range", ints [1200, 1200]), ("y_velo_range", ints [60, 60])]])]

/-- The assets of the patrol. -/
def assets : Assets ℚ :=
  (((Assets.empty.insert Assets.playerKey ship).insert Assets.levelKey
    (.arr [arrival 0 "guard"])).insert "guard"
    (record [("type", .str "boss"), ("id", .str "guard"),
      ("routines", .arr [routineRef "drift"])])).insert "drift" drift

/-- The settings of the patrol: a boss keeps to the upper half of a small screen. -/
def settings : Settings ℚ :=
  { Settings.standard with
    viewport := ⟨100, 80⟩, enemyPlace := ⟨1 / 2, 1 / 4⟩
    bossLimits := ⟨some 0, some 1, some 0, some (1 / 2)⟩ }

/-- What can be seen of an enemy: its limits, the box in which it came, and that in which it is. -/
def view (f g : Fight ℚ) (e : Enemy ℚ) : Limits ℚ × Rect ℚ × Option (Rect ℚ) :=
  (e.limits, f.settings.arrivalBox (f.sizeOf e.image), g.world.bodies[e.body]?.map (·.rect))

/-- The boss came in the upper half of the screen. It is at the right border, and goes down. -/
theorem run_confined_border : ∃ f g reports, Fight.start assets settings = .ok f ∧
    f.run [.tick .empty, .tick .empty, .tick .empty] = .ok (g, reports) ∧
    g.enemies.map (view f g) =
      [(⟨some 0, some 100, some 0, some 40⟩, ⟨34, 66, 4, 36⟩, some ⟨68, 100, 6, 38⟩)] ∧
    (∀ e ∈ g.enemies, f.Confines e) ∧ Fight.ConfinementKept f g := by
  have hrun : ((Fight.start assets settings).toOption.bind fun f =>
      (f.run [.tick .empty, .tick .empty, .tick .empty]).toOption.map fun r =>
        (decide (r.1.enemies.map (view f r.1) =
          [(⟨some 0, some 100, some 0, some 40⟩, ⟨34, 66, 4, 36⟩, some ⟨68, 100, 6, 38⟩)]),
        f.arrivals.map fun a =>
          (Enemy.scripts a.sheet f.assets).toOption.map (·.flatMap (·.moves)))) =
      some (true, [some [.randomized [0] ⟨1200, 1200⟩ ⟨60, 60⟩ .zero]]) := by
    decide +kernel
  obtain ⟨f, hstart, hrun⟩ := toOption_bind_eq_some_iff.1 hrun
  obtain ⟨⟨g, reports⟩, hrun, hend⟩ := toOption_map_eq_some_iff.1 hrun
  rw [Prod.mk.injEq] at hend
  have hview : g.enemies.map (view f g) = _ := of_decide_eq_true hend.1
  have hkept := Fight.run_confined hstart hrun
  refine ⟨f, g, reports, hstart, hrun, hview, fun e he => ⟨?_, ?_⟩, hkept⟩
  · obtain ⟨a, ha, hcame⟩ := hkept.came e he
    have hmoves := List.mem_map_of_mem (f := fun a : Arrival =>
      (Enemy.scripts a.sheet f.assets).toOption.map (·.flatMap (·.moves))) ha
    rw [hend.2, List.mem_singleton] at hmoves
    refine ⟨a.sheet, hcame, fun scripts hscripts script hscript entry hentry => ?_⟩
    rw [hscripts] at hmoves
    have hmoves : scripts.flatMap (·.moves) = _ := Option.some.inj hmoves
    have hin : entry ∈ scripts.flatMap (·.moves) := List.mem_flatMap.2 ⟨script, hscript, hentry⟩
    rw [hmoves, List.mem_singleton] at hin
    rw [hin]
    exact id
  · have hseen := List.mem_map_of_mem (f := view f g) he
    rw [hview, List.mem_singleton, view, Prod.mk.injEq, Prod.mk.injEq] at hseen
    rw [hseen.1, hseen.2.1]
    constructor
    · rintro (_ | _) _ ⟨⟩ <;> simp [Rect.low]
    · rintro (_ | _) _ ⟨⟩ <;> norm_num [Rect.high]

end Patrol

end Barrage
