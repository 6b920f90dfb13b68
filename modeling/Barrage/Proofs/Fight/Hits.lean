import Barrage.Proofs.Fight.Bodies
import Barrage.Proofs.World.Overlap

/-!
# The hits of the enemies

A bullet of the player that meets enemies is used up on the first of them, in the order in which
they came, and does its damage there (`Fight.target?`). The pairs that overlap are listed before
any bullet is gone, so a bullet that is gone comes up again for the other enemies that it met, and
does nothing then.

The enemies take the damage of all their hits (`Enemy.Suffers`): it goes to their current routine,
whose hit points end at zero at the lowest, and to no other one. This is what becomes of a fight
(`Fight.Struck`) on every frame of every run (`Fight.run_strikes`).
-/

namespace Barrage

variable {K : Type}

/-! ## One enemy -/

/-- What damage makes of an enemy. -/
structure Enemy.Suffers (e : Enemy K) (amount : Nat) (e' : Enemy K) : Prop where
  /-- The current routine has as much less of its hit points, or none. -/
  current?_eq : e'.sequence.current? = e.sequence.current?.map fun r =>
    { r with hitPoints := r.hitPoints.map fun hp => { hp with current := hp.current - amount } }
  /-- The other routines keep theirs. -/
  routines_eq : ∀ i, i ≠ e.sequence.cursor →
    e'.sequence.routines[i]? = e.sequence.routines[i]?
  /-- Nothing else of the enemy changes. -/
  eq : e' = { e with sequence := ⟨e'.sequence.routines, e.sequence.cursor⟩ }
  /-- Without damage the enemy is as it was. -/
  unhurt : amount = 0 → e' = e

/-- An enemy that takes damage suffers it in its current routine alone. -/
theorem Enemy.suffers_damage (e : Enemy K) (amount : Nat) : e.Suffers amount (e.damage amount) := by
  refine ⟨e.sequence.current?_modifyCurrent _, fun i hi => ?_, rfl, ?_⟩
  · exact Sequence.routines_modifyCurrent_of_ne (Ne.symm hi) _
  · rintro rfl
    exact e.damage_zero

/-! ## All enemies -/

/-- The damage that the hits told by events do to one body. -/
def damageTold (told : List Event) (body : BodyId) : Nat :=
  harmTo (told.filterMap Event.enemyHit?) body

section
variable [Scalar K]

namespace Fight

/-- The enemy that a bullet hits: the first one that it meets. -/
def target? (f : Fight K) (bullet : BodyId) : Option (Enemy K) :=
  f.enemies.find? fun e => f.world.meet bullet e.body

/-- What the bullets of the player make of a fight, and what is told of it. -/
structure Struck (f g : Fight K) (told : List Event) : Prop where
  /-- The enemies are in the order in which they came. -/
  enemies_ascending : f.enemyBodies.Pairwise (· < ·)
  /-- No bullet comes twice. -/
  nodup_bullets : (f.world.members playerBullets).Nodup
  /-- Each bullet that meets an enemy tells of one hit, with its tag or else the default. -/
  told_eq : told = (f.world.members playerBullets).filterMap fun bullet =>
    (f.target? bullet).map fun e => .on f.frame
      (.enemyHit e.body (f.world.damage[bullet]?.getD f.settings.shotDamage))
  /-- These bullets are gone. -/
  gone : ∀ bullet ∈ f.world.members playerBullets, (f.target? bullet).isSome →
    bullet ∉ g.world.bodies
  /-- All other bodies are as they were, and so are their tags. -/
  stays : ∀ id, (id ∈ f.world.members playerBullets → f.target? id = none) →
    g.world.bodies[id]? = f.world.bodies[id]? ∧ g.world.damage[id]? = f.world.damage[id]?
  /-- They are where they were in their groups. -/
  members_eq : ∀ group, g.world.members group =
    (f.world.members group).filter fun id => g.world.bodies.contains id
  /-- Every enemy suffers the damage of all the hits that it took. -/
  suffers : List.Forall₂ (fun e e' => e.Suffers (damageTold told e.body) e') f.enemies g.enemies
  /-- Of the fight nothing else changes. -/
  eq : g = { f with world := g.world, enemies := g.enemies }

variable {f g : Fight K}

/-- A bullet of the player meets the enemies that it overlaps, in their order. -/
theorem Staffed.head?_overlapping (h : f.Staffed) {bullet : BodyId}
    (hbullet : bullet ∈ f.world.members playerBullets) :
    (f.world.overlapping bullet enemyGroup).head? = (f.target? bullet).map (·.body) := by
  have hne : ∀ e ∈ f.enemies, e.body ≠ bullet := fun e he heq =>
    World.Staffed.not_mem_enemies h hbullet (by decide) (heq ▸ List.mem_map_of_mem he)
  have hmembers : f.world.members enemyGroup = f.enemies.map (·.body) :=
    World.Staffed.members_enemies h
  obtain ⟨b, hb⟩ := Option.isSome_iff_exists.1 (Std.ExtTreeMap.mem_iff_isSome_getElem?.1
    ((World.Staffed.enrolled h).mem_bodies hbullet))
  rw [World.overlapping, hb, target?, ← List.head?_filter, ← List.head?_map]
  dsimp only
  rw [hmembers, List.filter_map]
  refine congrArg (fun met : List (Enemy K) => (met.map (·.body)).head?)
    (List.filter_congr fun e he => ?_)
  rw [World.meet, hb, Function.comp_apply, bne_iff_ne.2 (hne e he), Bool.true_and]
  rfl

/-- So the bullets that strike are those with a target. -/
theorem Staffed.strikes_eq (h : f.Staffed) : f.world.strikes =
    (f.world.members playerBullets).filterMap fun bullet =>
      (f.target? bullet).map fun e => (bullet, e.body) := by
  refine List.filterMap_congr fun bullet hbullet => ?_
  rw [h.head?_overlapping hbullet, Option.map_map]
  rfl

/-- The bullets that strike are those of the player that overlap some enemy. -/
theorem Staffed.mem_bullets_iff (h : f.Staffed) {id : BodyId} :
    id ∈ f.world.strikes.map Prod.fst ↔
      id ∈ f.world.members playerBullets ∧ (f.target? id).isSome := by
  rw [h.strikes_eq, List.map_filterMap, List.mem_filterMap]
  constructor
  · rintro ⟨bullet, hbullet, htarget⟩
    obtain ⟨p, hp, rfl⟩ := Option.map_eq_some_iff.1 htarget
    obtain ⟨e, he, rfl⟩ := Option.map_eq_some_iff.1 hp
    exact ⟨hbullet, he ▸ rfl⟩
  · rintro ⟨hbullet, htarget⟩
    obtain ⟨e, he⟩ := Option.isSome_iff_exists.1 htarget
    exact ⟨id, hbullet, by rw [he]; rfl⟩

/-- The phase in which the enemies are hit makes these strikes. -/
theorem Staffed.struck_hitEnemyPhase (h : f.Staffed)
    (hascending : f.enemyBodies.Pairwise (· < ·)) :
    f.Struck f.hitEnemyPhase.1 f.hitEnemyPhase.2 := by
  have hw := World.Staffed.enrolled h
  have hgone : ∀ {id}, id ∈ (f.struckBy f.world.strikes).world.bodies ↔
      id ∉ f.world.strikes.map Prod.fst ∧ id ∈ f.world.bodies := f.world.mem_bodies_foldl_destroy
  rw [hitEnemyPhase_eq h]
  refine ⟨hascending, hw.nodup_members playerBullets, ?_, ?_, ?_, ?_, ?_, rfl⟩
  · rw [toldOf, hitsBy, h.strikes_eq, List.map_map, List.map_filterMap]
    refine List.filterMap_congr fun bullet _ => ?_
    rw [Option.map_map]
    rfl
  · intro bullet hbullet htarget hlive
    exact (hgone.1 hlive).1 (h.mem_bullets_iff.2 ⟨hbullet, htarget⟩)
  · intro id hid
    have hnot : id ∉ f.world.strikes.map Prod.fst := by
      rw [h.mem_bullets_iff]
      rintro ⟨hbullet, htarget⟩
      rw [hid hbullet] at htarget
      cases htarget
    exact ⟨World.bodies_foldl_destroy f.world hnot, World.damage_foldl_destroy f.world hnot⟩
  · intro group
    refine (hw.members_foldl_destroy _ group).trans (List.filter_congr fun id hid => ?_)
    rw [Bool.eq_iff_iff, Std.ExtTreeMap.contains_iff_mem, hgone]
    simpa using fun _ => hw.mem_bodies hid
  · simp only [damageTold, enemyHits_toldOf]
    exact List.forall₂_map_right_iff.2 (List.forall₂_same.2 fun e _ => e.suffers_damage _)

/-! ## Runs -/

/-- Enemies come in the order of their bodies. -/
theorem Staffed.ascending_bringInAll (h : f.Staffed) (hascending : f.enemyBodies.Pairwise (· < ·))
    (arrivals : List Arrival) : (f.bringInAll arrivals).1.enemyBodies.Pairwise (· < ·) := by
  induction arrivals generalizing f with
  | nil => exact hascending
  | cons a rest ih =>
    have hfirst : (f.bringIn a).1.enemyBodies.Pairwise (· < ·) := by
      rw [Fight.bringIn]
      split
      · next enemy world hspawn =>
        have hbody : enemy.body = f.world.nextBody :=
          congrArg Role.body (Enemy.spawn_eq_ok hspawn).1
        rw [enemyBodies, List.map_append, List.map_singleton, hbody]
        refine List.pairwise_append.2 ⟨hascending, List.pairwise_singleton _ _, ?_⟩
        intro id hid last hlast
        rw [List.mem_singleton.1 hlast]
        exact h.enemy_lt_nextBody hid
      · exact hascending
    exact ih (h.bringIn a) hfirst

/-- Every phase of a frame keeps the enemies in the order of their bodies. -/
theorem keptByPhases_ascending :
    KeptByPhases fun f : Fight K => f.Staffed ∧ f.enemyBodies.Pairwise (· < ·) where
  withKeys _ h := h
  runTimers {f} h := by
    refine ⟨keptByPhases_staffed.runTimers h.1, ?_⟩
    obtain ⟨energy, htimers⟩ := f.runTimers_eq
    rw [htimers]
    exact h.2
  moveBodies h := ⟨keptByPhases_staffed.moveBodies h.1, h.2⟩
  hitPlayerPhase hhits h := by
    refine ⟨keptByPhases_staffed.hitPlayerPhase hhits h.1, ?_⟩
    rcases hitPlayerPhase_cases hhits with ⟨rfl, -, -⟩ | ⟨-, -, id, timers, -, rfl, -⟩
    · exact h.2
    · exact h.2
  hitEnemyPhase {f} h := by
    refine ⟨h.1.hitEnemyPhase, ?_⟩
    rw [← map_body_roles, hitEnemyPhase, roles_hitEnemies, map_body_roles]
    exact h.2
  playerPhase {f} keys h := by
    refine ⟨h.1.playerPhase keys, ?_⟩
    obtain ⟨⟨weapon, energy, world, log, hplayer⟩, -⟩ := f.playerPhase_eq keys
    rw [hplayer]
    exact h.2
  arrivalPhase h := ⟨h.1.bringInAll _, h.1.ascending_bringInAll h.2 _⟩
  enemyPhase {f} h := by
    refine ⟨h.1.enemyPhase, ?_⟩
    obtain ⟨-, hbodies, -⟩ := updateEnemies_staffed (f := f) h.1 f.rng f.enemies
    have hascending := h.2
    rw [enemyBodies, ← hbodies] at hascending
    exact hascending.sublist (List.filter_sublist.map _)
  sweepPhase h := ⟨h.1.sweepPhase, h.2⟩
  countFrame {f} h := by
    refine ⟨keptByPhases_staffed.countFrame h.1, ?_⟩
    rw [countFrame_eq]
    exact h.2

/-- The next frame of a fight as it stands when the enemies are to be hit. -/
structure StrikesKept (f : Fight K) : Prop where
  /-- With whatever keys it is, the bullets of the player strike. -/
  struck : ∀ {keys : Keyboard} {hit : Fight K} {events : List Event},
    ({ f with keys } : Fight K).runTimers.1.moveBodies.hitPlayerPhase = .ok (hit, events) →
    hit.Struck hit.hitEnemyPhase.1 hit.hitEnemyPhase.2
  /-- A tick that simulates a frame tells of these hits and of no others. -/
  told : ∀ {raw : ActionSet} {g : Fight K} {report : TickReport},
    f.tick raw = .ok (g, report) → f.ended = false → report.pauseRequested = false →
    ∃ hit events, ({ f with keys := f.keys.update raw } :
        Fight K).runTimers.1.moveBodies.hitPlayerPhase = .ok (hit, events) ∧
      (report.events.filterMap Event.enemyHit?).Perm
        (hit.hitEnemyPhase.2.filterMap Event.enemyHit?)

/-- In every fight that a run can come to, each bullet that meets enemies is used up on the first of
them, and the enemies suffer the damage of their hits. -/
theorem run_strikes {assets : Assets K} {settings : Settings K}
    (hstart : start assets settings = .ok f) {calls : List Call} {reports : List TickReport}
    (hrun : f.run calls = .ok (g, reports)) : g.StrikesKept := by
  have hbegin : f.Staffed ∧ f.enemyBodies.Pairwise (· < ·) := by
    refine ⟨staffed_of_start hstart, ?_⟩
    obtain ⟨player, sizes, entries, arrivals, -, -, -, -, rfl⟩ := start_eq_ok hstart
    exact .nil
  have hg := keptByPhases_ascending.run hrun hbegin
  constructor
  · intro keys hit events hphase
    obtain ⟨hstaffed, hascending⟩ := keptByPhases_ascending.hitPlayerPhase hphase
      (keptByPhases_ascending.moveBodies (keptByPhases_ascending.runTimers
        (keptByPhases_ascending.withKeys keys hg)))
    exact hstaffed.struck_hitEnemyPhase hascending
  · intro raw g' report htick hended hpause
    rcases tick_cases htick with ⟨hover, -, -⟩ | ⟨-, -, -, rfl⟩ | ⟨-, -, events, hsim, rfl⟩
    · rw [hended] at hover
      cases hover
    · cases hpause
    · obtain ⟨s⟩ := simulate_stages hsim
      have htimed : ({ g with keys := g.keys.update raw } : Fight K).runTimers.1 = s.timed :=
        congrArg Prod.fst s.timed_eq
      refine ⟨s.hit, _, htimed.symm ▸ s.hit_eq, ?_⟩
      rw [s.struck_eq]
      exact s.perm_filterMap_sort Event.phase_of_enemyHit?

end Fight

end

/-! ## A melee

The player fires two bullets at two enemies that stand on its place. Both bullets meet both enemies
on the next frame, and both hit the first one. This is more than its routine has left.
-/

namespace Melee

open Demo

/-- The player, with a gun whose second shot does not say what damage it does. -/
def ship : Json Binary64 :=
  record [("asset_folder", .str "ship"),
    ("weapon", record [("fire_rate", .int 9), ("shots", .arr [Duel.pellet 0 (-60),
      record [("shot_id", .str "pellet"), ("x_velo", .int 0), ("y_velo", .int (-60))]])]),
    ("movement", record [("normal", .int 240), ("slowed", .int 90)]),
    ("invincibility_window", .int 30), ("lives", .int 3),
    ("special", record [("name", .str "none"), ("energy_required", .int 2)])]

/-- A routine of an enemy. -/
def guard (name : String) (hitPoints : Int) : Json Binary64 :=
  record [("name", .str name), ("duration", .int 99), ("hp", .int hitPoints)]

/-- The assets of the melee: two enemies with two routines each. -/
def assets : Assets Binary64 :=
  (((((Assets.empty.insert Assets.playerKey ship).insert Assets.levelKey
    (.arr [arrival 0 "rival", arrival 0 "rival"])).insert "rival"
    (record [("id", .str "rival"),
      ("routines", .arr [routineRef "front", routineRef "rear"])])).insert "front"
    (guard "front" 2)).insert "rear" (guard "rear" 7))

/-- The hit points of the routines of an enemy. -/
def points (e : Enemy Binary64) : List Nat :=
  e.sequence.routines.filterMap fun r => r.hitPoints.map (·.current)

/-- The hits of a fight: the points of the enemies before and after them, what is told, and the
bodies that are left. -/
def outcome (f : Fight Binary64) :
    List (List Nat) × List (List Nat) × List (BodyId × Nat) × List BodyId :=
  (f.enemies.map points, f.hitEnemyPhase.1.enemies.map points,
    f.hitEnemyPhase.2.filterMap Event.enemyHit?, f.hitEnemyPhase.1.world.bodies.keys)

/-- On the second frame of the melee both bullets are used up on the first enemy. -/
theorem run_strikes_twice : ∃ f g reports hit events,
    Fight.start assets Duel.settings = .ok f ∧
    f.run [.tick (.ofList [.fire])] = .ok (g, reports) ∧
    ({ g with keys := g.keys.update .empty } :
      Fight Binary64).runTimers.1.moveBodies.hitPlayerPhase = .ok (hit, events) ∧
    outcome hit = ([[2, 7], [2, 7]], [[0, 7], [2, 7]], [(3, 2), (3, 1)], [0, 3, 4]) ∧
    g.StrikesKept := by
  have hrun : ((Fight.start assets Duel.settings).toOption.bind fun f =>
      (f.run [.tick (.ofList [.fire])]).toOption.bind fun r =>
        (({ r.1 with keys := r.1.keys.update .empty } :
            Fight Binary64).runTimers.1.moveBodies.hitPlayerPhase).toOption.map fun t =>
          outcome t.1) =
      some ([[2, 7], [2, 7]], [[0, 7], [2, 7]], [(3, 2), (3, 1)], [0, 3, 4]) := by
    decide +kernel
  obtain ⟨f, hstart, hrun⟩ := toOption_bind_eq_some_iff.1 hrun
  obtain ⟨⟨g, reports⟩, hrun, hphase⟩ := toOption_bind_eq_some_iff.1 hrun
  obtain ⟨⟨hit, events⟩, hphase, hend⟩ := toOption_map_eq_some_iff.1 hphase
  exact ⟨f, g, reports, hit, events, hstart, hrun, hphase, hend, Fight.run_strikes hstart hrun⟩

end Melee

end Barrage
