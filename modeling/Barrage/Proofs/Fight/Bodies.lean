import Barrage.Proofs.Enemy.Movement
import Barrage.Proofs.Fight.Ledger

/-!
# What a frame makes of one body

A frame moves all bodies first. Behind that, each phase touches few of them and spares the others:
bullets that hit are destroyed, the player is steered and may jump, each enemy takes up its own
movement, and what is off the screen goes. So what a frame makes of the player is what its own
phase makes of it (`Stages.exists_body_player`).
-/

namespace Barrage

variable {K : Type}

/-- The player and the enemies are no bullets. -/
theorem World.Staffed.not_mem_bullets {w : World K} {player : BodyId} {enemies : List BodyId}
    (h : w.Staffed player enemies) {id : BodyId} (hid : id = player ∨ id ∈ enemies)
    {group : GroupId} (hgroup : group = playerBullets ∨ group = enemyBullets) :
    id ∉ w.members group := by
  intro hin
  rcases hid with rfl | hid
  · exact h.ne_player hin (by rcases hgroup with rfl | rfl <;> decide) rfl
  · exact h.not_mem_enemies hin (by rcases hgroup with rfl | rfl <;> decide) hid

variable [Scalar K]

/-- A step moves every body on. -/
theorem World.bodies_step (w : World K) (dt : K) (id : BodyId) :
    (w.step dt).bodies[id]? = w.bodies[id]?.map (·.step w.bounds dt) := Std.ExtTreeMap.getElem?_map

/-! ## Whom a phase touches -/

/-- The player sets its own velocity, and what it fires are new bodies. -/
theorem Player.spares_update (p : Player K) {w : World K} (keys : ActionSet) {id : BodyId}
    (hlt : id < w.nextBody) (sizeOf : String → Size K) :
    (p.update keys w playerBullets sizeOf).2.1.body = p.body ∧
      (w.setVelocity p.body (p.velocity keys)).Spares id
        (p.update keys w playerBullets sizeOf).2.2 := by
  rw [update, fire]
  split
  · exact ⟨rfl, (w.setVelocity p.body (p.velocity keys)).spares_spawnShots hlt ..⟩
  · exact ⟨rfl, .refl _ id⟩

namespace Fight

variable {f : Fight K} {id : BodyId}

omit [Scalar K] in
/-- Hits destroy bullets. -/
theorem spares_hitEnemies {pairs : List (BodyId × BodyId)} (hpairs : ∀ pair ∈ pairs, pair.1 ≠ id) :
    f.world.Spares id (f.hitEnemies pairs).1.world := by
  induction pairs generalizing f with
  | nil => exact .refl _ id
  | cons pair rest ih =>
    have hfirst : f.world.Spares id (f.hitEnemyBy pair.1 pair.2).1.world := by
      obtain ⟨-, hnone⟩ | ⟨-, i, e, amount, -, -, -, hhit⟩ := f.hitEnemyBy_cases pair.1 pair.2
      · rw [hnone]
        exact .refl _ id
      · rw [hhit]
        exact f.world.spares_destroy (hpairs pair List.mem_cons_self)
    exact hfirst.trans (ih fun other ho => hpairs other (List.mem_cons_of_mem _ ho))

/-- Hits of enemies destroy bullets of the player only. -/
theorem spares_hitEnemyPhase (hid : id ∉ f.world.members playerBullets) :
    f.world.Spares id f.hitEnemyPhase.1.world := by
  refine spares_hitEnemies fun pair hpair heq => hid ?_
  obtain ⟨bullet, hbullet, hpair⟩ := List.mem_flatMap.1 hpair
  obtain ⟨enemy, -, rfl⟩ := List.mem_map.1 hpair
  exact heq ▸ hbullet

/-- The player's phase does not touch other bodies. -/
theorem spares_playerPhase (keys : ActionSet) (hne : f.player.body ≠ id)
    (hlt : id < f.world.nextBody) : f.world.Spares id (f.playerPhase keys).1.world := by
  obtain ⟨hbody, hfired⟩ := f.player.spares_update (w := f.world) keys hlt f.sizeOf
  have hsteered : f.world.Spares id _ := (f.world.spares_modify hne _).trans hfired
  refine hsteered.trans ?_
  rw [playerPhase]
  dsimp only
  rw [useSpecial]
  split
  · dsimp only
    split
    · exact World.spares_modify _ (hbody ▸ hne) _
    · exact .refl _ id
  · exact .refl _ id

/-- The player's phase steers the player, which may jump within the playfield. -/
theorem exists_body_playerPhase (keys : ActionSet) {b : Body K}
    (hb : f.world.bodies[f.player.body]? = some b) (hlt : f.player.body < f.world.nextBody) :
    (f.playerPhase keys).1.world.bounds = f.world.bounds ∧
    ∃ b', (f.playerPhase keys).1.world.bodies[f.player.body]? = some b' ∧
      (b' = { b with velocity := f.player.velocity keys } ∨
        b' = (({ b with velocity := f.player.velocity keys } : Body K).moveWithin f.playfield
          (.polar f.settings.blinkDistance (blinkDegrees keys)) .teleport).2) := by
  obtain ⟨hbody, hfired⟩ := f.player.spares_update (w := f.world) keys hlt f.sizeOf
  have hsteered : (f.player.update keys f.world playerBullets f.sizeOf).2.2.bodies[f.player.body]? =
      some { b with velocity := f.player.velocity keys } := by
    rw [hfired.body_eq, World.setVelocity, World.bodies_modify, if_pos rfl, hb]
    rfl
  have hbounds : (f.player.update keys f.world playerBullets f.sizeOf).2.2.bounds =
      f.world.bounds := hfired.bounds_eq
  rw [playerPhase]
  dsimp only
  rw [useSpecial, hbody]
  split
  · dsimp only
    split
    · refine ⟨hbounds, _, ?_, .inr rfl⟩
      rw [World.blink, World.bodies_modify, if_pos rfl, hsteered]
      rfl
    · exact ⟨hbounds, _, hsteered, .inl rfl⟩
  · exact ⟨hbounds, _, hsteered, .inl rfl⟩

/-- Arrivals are new bodies. -/
theorem spares_bringInAll (hlt : id < f.world.nextBody) (arrivals : List Arrival) :
    f.world.Spares id (f.bringInAll arrivals).1.world := by
  induction arrivals generalizing f with
  | nil => exact .refl _ id
  | cons a rest ih =>
    have hfirst : f.world.Spares id (f.bringIn a).1.world := by
      rw [bringIn]
      split
      · next hspawn => exact Enemy.spares_spawn hlt hspawn
      · exact .refl _ id
    exact hfirst.trans (ih (Nat.lt_of_lt_of_le hlt hfirst.nextBody_le))

/-- The updates of enemies spare all bodies but theirs. -/
theorem spares_updateEnemies {w : World K} (hlt : id < w.nextBody) (rng : Prng)
    {enemies : List (Enemy K)} (hne : ∀ e ∈ enemies, e.body ≠ id) :
    w.Spares id (f.updateEnemies w rng enemies).world := by
  induction enemies generalizing w rng with
  | nil => exact .refl _ id
  | cons e rest ih =>
    have hfirst : w.Spares id (e.update w rng enemyBullets f.settings.dt f.sizeOf).world :=
      e.spares_play ⟨w, rng, enemyBullets, f.settings.dt, f.sizeOf⟩ (hne e List.mem_cons_self) hlt
    have hrest := hfirst.trans (ih (Nat.lt_of_lt_of_le hlt hfirst.nextBody_le)
      (e.update w rng enemyBullets f.settings.dt f.sizeOf).rng
      fun other ho => hne other (List.mem_cons_of_mem _ ho))
    rw [updateEnemies]
    split
    · exact hrest
    · exact hrest

/-- The phase of the enemies spares all bodies but theirs. -/
theorem spares_enemyPhase (hlt : id < f.world.nextBody) (hid : id ∉ f.enemyBodies) :
    f.world.Spares id f.enemyPhase.1.world := by
  refine (spares_updateEnemies (f := f) hlt f.rng fun e he heq => ?_).trans
    (World.spares_foldl_destroy _ fun hin => ?_)
  · exact hid (heq ▸ List.mem_map_of_mem he)
  · rw [(f.updateEnemies_turns f.world f.rng f.enemies).2.1] at hin
    obtain ⟨e, he, rfl⟩ := List.mem_map.1 hin
    exact hid (List.mem_map_of_mem (List.mem_filter.1 he).1)

end Fight

/-! ## What no phase touches -/

namespace Fight

variable {f : Fight K} {id : BodyId}

/-- A fight that has kept what no phase touches. -/
structure Keeps (f₀ f : Fight K) : Prop where
  settings_eq : f.settings = f₀.settings
  assets_eq : f.assets = f₀.assets
  sizes_eq : f.sizes = f₀.sizes
  arrivals_eq : f.arrivals = f₀.arrivals
  playfield_eq : f.playfield = f₀.playfield
  body_eq : f.player.body = f₀.player.body

omit [Scalar K] in
/-- Every fight keeps what it has. -/
theorem Keeps.refl (f : Fight K) : f.Keeps f := ⟨rfl, rfl, rfl, rfl, rfl, rfl⟩

omit [Scalar K] in
/-- What one fight keeps of another one they share. -/
theorem Keeps.symm {f₀ : Fight K} (h : f₀.Keeps f) : f.Keeps f₀ :=
  ⟨h.1.symm, h.2.symm, h.3.symm, h.4.symm, h.5.symm, h.6.symm⟩

/-- No phase of a frame changes what a fight keeps. -/
theorem keptByPhases_keeps (f₀ : Fight K) : KeptByPhases f₀.Keeps where
  withKeys _ h := ⟨h.1, h.2, h.3, h.4, h.5, h.6⟩
  runTimers {f} h := by
    obtain ⟨energy, htimers⟩ := f.runTimers_eq
    rw [htimers]
    refine ⟨h.1, h.2, h.3, h.4, h.5, ?_⟩
    dsimp only
    split
    · exact h.body_eq
    · exact h.body_eq
  moveBodies h := ⟨h.1, h.2, h.3, h.4, h.5, h.6⟩
  hitPlayerPhase hhits h := by
    rcases hitPlayerPhase_cases hhits with ⟨rfl, -, -⟩ | ⟨-, -, id, timers, -, rfl, -⟩
    · exact h
    · exact ⟨h.1, h.2, h.3, h.4, h.5, h.6⟩
  hitEnemyPhase {f} h := by
    obtain ⟨⟨world, enemies, hhits⟩, -⟩ :=
      f.hitEnemies_eq (f.world.overlapPairs playerBullets enemyGroup)
    rw [hitEnemyPhase, hhits]
    exact ⟨h.1, h.2, h.3, h.4, h.5, h.6⟩
  playerPhase {f} keys h := by
    obtain ⟨⟨weapon, energy, world, log, hacted⟩, -⟩ := f.playerPhase_eq keys
    rw [hacted]
    exact ⟨h.1, h.2, h.3, h.4, h.5, h.6⟩
  arrivalPhase {f} h := by
    obtain ⟨⟨world, enemies, log, hjoined⟩, -⟩ :=
      f.bringInAll_eq (f.arrivals.filter (·.time == f.frame))
    rw [arrivalPhase, hjoined]
    exact ⟨h.1, h.2, h.3, h.4, h.5, h.6⟩
  enemyPhase {f} h := by
    obtain ⟨⟨world, rng, enemies, hmoved⟩, -⟩ := f.enemyPhase_eq
    rw [hmoved]
    exact ⟨h.1, h.2, h.3, h.4, h.5, h.6⟩
  sweepPhase h := ⟨h.1, h.2, h.3, h.4, h.5, h.6⟩
  countFrame {f} h := by
    rw [countFrame_eq]
    exact ⟨h.1, h.2, h.3, h.4, h.5, h.6⟩

omit [Scalar K] in
/-- All handles in use have been given out. -/
theorem Staffed.player_lt_nextBody (h : f.Staffed) : f.player.body < f.world.nextBody :=
  (World.Staffed.enrolled h).lt_nextBody (World.Staffed.player_mem_bodies h)

omit [Scalar K] in
/-- The number of an enemy was given out. -/
theorem Staffed.enemy_lt_nextBody (h : f.Staffed) (hid : id ∈ f.enemyBodies) :
    id < f.world.nextBody :=
  (World.Staffed.enrolled h).lt_nextBody (World.Staffed.enemy_mem_bodies h hid)

omit [Scalar K] in
/-- The player is no enemy. -/
theorem Staffed.player_not_mem_enemyBodies (h : f.Staffed) : f.player.body ∉ f.enemyBodies :=
  World.Staffed.not_mem_enemies h
    (World.Staffed.members_player h ▸ List.mem_singleton_self f.player.body) (by decide)

end Fight

/-! ## One body in a frame -/

namespace Stages

variable {f g : Fight K} {keys : ActionSet} {events : List Event} {id : BodyId}

/-- What comes before the player's phase moves the player and the enemies, and nothing else. -/
theorem spares_struck (s : Stages f keys g events) (h : f.Staffed)
    (hid : id = f.player.body ∨ id ∈ f.enemyBodies) :
    f.moveBodies.world.Spares id s.struck.world := by
  have hmoved : f.moveBodies.world.Staffed f.player.body f.enemyBodies :=
    World.Staffed.step h f.settings.dt
  have hstruck : s.hit.hitEnemyPhase.1 = s.struck := congrArg Prod.fst s.struck_eq
  rw [← hstruck, ← s.world_hit]
  refine Fight.spares_hitEnemyPhase ?_
  rw [s.world_hit]
  exact hmoved.not_mem_bullets hid (.inl rfl)

/-- Arrivals touch nobody who is there. -/
theorem spares_joined (s : Stages f keys g events) (hlt : id < s.acted.world.nextBody) :
    s.acted.world.Spares id s.joined.world := by
  have hjoined : s.acted.arrivalPhase.1 = s.joined := congrArg Prod.fst s.joined_eq
  rw [← hjoined]
  exact Fight.spares_bringInAll hlt _

/-- The sweep touches bullets. -/
theorem spares_swept (s : Stages f keys g events) (h : s.moved.Staffed)
    (hid : id = s.moved.player.body ∨ id ∈ s.moved.enemyBodies) :
    s.moved.world.Spares id g.world := by
  have hswept := World.Staffed.sweep h (.inl rfl) s.moved.settings.viewport
  rw [(congrArg Fight.world s.counted_fst.1 :)]
  exact (World.spares_sweep _ (World.Staffed.not_mem_bullets h hid (.inl rfl)) _).trans
    (World.spares_sweep _ (hswept.not_mem_bullets hid (.inr rfl)) _)

/-- The turns of the enemies touch no one else. -/
theorem spares_moved (s : Stages f keys g events) (hlt : id < s.joined.world.nextBody)
    (hid : id ∉ s.joined.enemyBodies) : s.joined.world.Spares id s.moved.world := by
  have hmoved : s.joined.enemyPhase.1 = s.moved := congrArg Prod.fst s.moved_eq
  rw [← hmoved]
  exact Fight.spares_enemyPhase hlt hid

/-- A frame moves the player's body on and steers it, and the player may jump. -/
theorem exists_body_player (s : Stages f keys g events) (h : f.Staffed) {b : Body K}
    (hb : f.world.bodies[f.player.body]? = some b) : g.world.bounds = f.world.bounds ∧
    ∃ velocity b', g.world.bodies[g.player.body]? = some b' ∧
      (b' = { b.step f.world.bounds f.settings.dt with velocity } ∨ ∃ delta,
        b' = (({ b.step f.world.bounds f.settings.dt with velocity } : Body K).moveWithin
          f.playfield delta .teleport).2) := by
  have hsame := Fight.keptByPhases_keeps f
  have hstaffed := Fight.keptByPhases_staffed (K := K)
  have hstruck := s.spares_struck h (.inl rfl)
  have hacted : (s.struck.playerPhase keys).1 = s.acted := congrArg Prod.fst s.acted_eq
  obtain ⟨-, -, -, -, hplayfield, hbody⟩ := s.kept_struck hsame (.refl f)
  have hstepped : s.struck.world.bodies[s.struck.player.body]? =
      some (b.step f.world.bounds f.settings.dt) := by
    rw [hbody, hstruck.body_eq, Fight.moveBodies]
    exact (f.world.bodies_step f.settings.dt f.player.body).trans (congrArg (Option.map _) hb)
  obtain ⟨hbounds, b', hb', hsteered⟩ := Fight.exists_body_playerPhase keys hstepped
    (s.kept_struck hstaffed h).player_lt_nextBody
  rw [hacted, hbody] at hb'
  rw [hacted] at hbounds
  rw [hplayfield] at hsteered
  -- behind its own phase, nothing touches the player
  have hlater : s.acted.world.Spares f.player.body g.world := by
    have hlt := (s.kept_acted hstaffed h).player_lt_nextBody
    rw [(s.kept_acted hsame (.refl f)).body_eq] at hlt
    have hjoined := s.spares_joined hlt
    have hjoinedStaffed : s.joined.Staffed := s.kept_joined hstaffed h
    have hnot : f.player.body ∉ s.joined.enemyBodies := by
      rw [← (s.kept_joined hsame (.refl f)).body_eq]
      exact hjoinedStaffed.player_not_mem_enemyBodies
    exact (hjoined.trans (s.spares_moved (Nat.lt_of_lt_of_le hlt hjoined.nextBody_le) hnot)).trans
      (s.spares_swept (s.kept_moved hstaffed h) (.inl (s.kept_moved hsame (.refl f)).body_eq.symm))
  refine ⟨hlater.bounds_eq.trans (hbounds.trans hstruck.bounds_eq),
    s.struck.player.velocity keys, b', ?_, hsteered.imp_right fun hjump => ⟨_, hjump⟩⟩
  rw [(s.kept hsame (.refl f)).body_eq]
  exact hlater.body_eq.trans hb'

end Stages

end Barrage
