import Barrage.Proofs.Fight.Bodies

/-!
# The turn of one enemy

The enemies of a frame have their turns one after the other, and each of them sees the world as
those before have left it (`Fight.OnTurn`). Still, what a frame makes of the body of an enemy is
what the enemy's own turn makes of it: the others do not touch it, whether they come before or
behind (`Stages.exists_plays`). Until then the body was moved by a step, or has just come
(`Stages.eachWith_joined`). So a property of the enemies with their bodies holds at the end of a
frame if it is kept by steps, damage and turns, and holds of those that come.
-/

namespace Barrage

variable {K : Type} [Scalar K]

namespace Fight

/-! ## Turns in order -/

/-- What an enemy meets when several others have had their turns. -/
def sceneAfter (f : Fight K) (w : World K) (rng : Prng) (earlier : List (Enemy K)) : Scene K where
  world := (f.updateEnemies w rng earlier).world
  rng := (f.updateEnemies w rng earlier).rng
  group := enemyBullets
  dt := f.settings.dt
  sizeOf := f.sizeOf

/-- An enemy of a fight, and what it meets when its turn comes. -/
def OnTurn (f : Fight K) (e : Enemy K) (s : Scene K) : Prop :=
  ∃ earlier later, f.enemies = earlier ++ e :: later ∧ s = f.sceneAfter f.world f.rng earlier

variable {f : Fight K}

/-- An enemy on its turn is one of the fight. -/
theorem OnTurn.mem {e : Enemy K} {s : Scene K} (h : f.OnTurn e s) : e ∈ f.enemies := by
  obtain ⟨earlier, later, henemies, -⟩ := h
  rw [henemies]
  exact List.mem_append_cons_self

/-- The turn of the first enemy, and then those of the others. -/
theorem updateEnemies_cons (w : World K) (rng : Prng) (e : Enemy K) (rest : List (Enemy K)) :
    (f.updateEnemies w rng (e :: rest)).enemies = (e.play (f.sceneAfter w rng [])).enemy ::
      (f.updateEnemies (e.play (f.sceneAfter w rng [])).world (e.play (f.sceneAfter w rng [])).rng
        rest).enemies ∧
    ∀ earlier, f.sceneAfter w rng (e :: earlier) =
      f.sceneAfter (e.play (f.sceneAfter w rng [])).world (e.play (f.sceneAfter w rng [])).rng
        earlier := by
  refine ⟨?_, fun earlier => ?_⟩
  · rw [updateEnemies]
    split <;> rfl
  · have hupdates : (f.updateEnemies w rng (e :: earlier)).world =
        (f.sceneAfter (e.play (f.sceneAfter w rng [])).world (e.play (f.sceneAfter w rng [])).rng
          earlier).world ∧ (f.updateEnemies w rng (e :: earlier)).rng =
        (f.sceneAfter (e.play (f.sceneAfter w rng [])).world (e.play (f.sceneAfter w rng [])).rng
          earlier).rng := by
      rw [updateEnemies]
      split <;> exact ⟨rfl, rfl⟩
    rw [sceneAfter, hupdates.1, hupdates.2]
    rfl

/-- Whoever has had a turn had one of its own: the others have not touched its body. -/
theorem exists_turn_of_updateEnemies {w : World K} {rng : Prng} {enemies : List (Enemy K)}
    (hnodup : (enemies.map (·.body)).Nodup) (hlt : ∀ e ∈ enemies, e.body < w.nextBody)
    {e' : Enemy K} (he' : e' ∈ (f.updateEnemies w rng enemies).enemies) :
    ∃ earlier e later, enemies = earlier ++ e :: later ∧
      e' = (e.play (f.sceneAfter w rng earlier)).enemy ∧
      w.Spares e.body (f.sceneAfter w rng earlier).world ∧
      (e.play (f.sceneAfter w rng earlier)).world.Spares e.body
        (f.updateEnemies w rng enemies).world := by
  induction enemies generalizing w rng with
  | nil => cases he'
  | cons first rest ih =>
    obtain ⟨henemies, hscene⟩ := f.updateEnemies_cons w rng first rest
    have hworld : (f.updateEnemies w rng (first :: rest)).world = _ :=
      congrArg Scene.world (hscene rest)
    rw [henemies] at he'
    rw [List.map_cons, List.nodup_cons] at hnodup
    rw [List.forall_mem_cons] at hlt
    have hne : ∀ e ∈ rest, first.body ≠ e.body := fun e he heq =>
      hnodup.1 (heq ▸ List.mem_map_of_mem he)
    have hspares : ∀ e ∈ rest, w.Spares e.body (first.play (f.sceneAfter w rng [])).world :=
      fun e he => first.spares_play (f.sceneAfter w rng []) (hne e he) (hlt.2 e he)
    rcases List.mem_cons.1 he' with rfl | he'
    · refine ⟨[], first, rest, rfl, rfl, .refl w first.body, ?_⟩
      rw [hworld]
      have hlt := Nat.lt_of_lt_of_le hlt.1
        (first.le_nextBody_update w rng enemyBullets f.settings.dt f.sizeOf)
      exact spares_updateEnemies hlt _ fun e he => (hne e he).symm
    · obtain ⟨earlier, e, later, rfl, rfl, hbefore, hbehind⟩ :=
        ih hnodup.2 (fun e he => Nat.lt_of_lt_of_le (hlt.2 e he) (hspares e he).nextBody_le) he'
      have he : e ∈ earlier ++ e :: later := List.mem_append_cons_self
      refine ⟨first :: earlier, e, later, rfl, ?_, ?_, ?_⟩
      · rw [hscene]
      · rw [hscene]
        exact (hspares e he).trans hbefore
      · rw [hscene, hworld]
        exact hbehind

/-- The enemies behind the turns are those that have found a routine, and what became of their
bodies stays when the others leave. -/
theorem exists_turn_of_enemyPhase (h : f.Staffed) {e' : Enemy K}
    (he' : e' ∈ f.enemyPhase.1.enemies) :
    ∃ e scene, f.OnTurn e scene ∧ e.isDone = false ∧ e' = (e.play scene).enemy ∧
      f.world.Spares e.body scene.world ∧
      f.enemyPhase.1.world.bodies[e.body]? = (e.play scene).world.bodies[e.body]? := by
  have hnodup := h.intact.nodup_enemyBodies
  obtain ⟨hupdated, hstays⟩ := List.mem_filter.1 he'
  obtain ⟨earlier, e, later, henemies, rfl, hbefore, hbehind⟩ := exists_turn_of_updateEnemies hnodup
    (fun e he => h.enemy_lt_nextBody (List.mem_map_of_mem he)) hupdated
  have he : e ∈ f.enemies := henemies ▸ List.mem_append_cons_self
  have hgoes : e.body ∉ (f.updateEnemies f.world f.rng f.enemies).finished := by
    rw [(e.turn_play _).1.body_eq, Bool.not_eq_true', ← Bool.not_eq_true, List.contains_iff_mem]
      at hstays
    exact hstays
  have hdone : e.isDone = false := by
    rw [(f.updateEnemies_turns _ _ _).2.1,
      Enemy.body_mem_filter_iff hnodup he Enemy.isDone] at hgoes
    exact Bool.eq_false_iff.2 hgoes
  exact ⟨e, _, ⟨earlier, later, henemies, rfl⟩, hdone, rfl, hbefore,
    (World.bodies_foldl_destroy _ hgoes).trans hbehind.body_eq⟩

/-- Every enemy has a live body, and something holds of the two. -/
def EachWith (f : Fight K) (P : Enemy K → Body K → Prop) : Prop :=
  ∀ e ∈ f.enemies, ∃ b, f.world.bodies[e.body]? = some b ∧ P e b

/-- What holds of the enemies that come holds of all of them afterwards. -/
theorem eachWith_bringInAll {P : Enemy K → Body K → Prop} (h : f.Staffed) {arrivals : List Arrival}
    (hspawn : ∀ a ∈ arrivals, ∀ {w w' : World K} {e : Enemy K}, f.world.nextBody ≤ w.nextBody →
      Enemy.spawn a.sheet f.assets w enemyGroup f.settings (f.sizeOf a.sheet.image) = .ok (e, w') →
      ∃ b, w'.bodies[e.body]? = some b ∧ P e b)
    (hf : f.EachWith P) : (f.bringInAll arrivals).1.EachWith P := by
  induction arrivals generalizing f with
  | nil => exact hf
  | cons a rest ih =>
    rw [bringInAll_cons]
    refine ih (h.bringIn a) (fun b hb w w' e hle => ?_) ?_
    · have hsame : (f.bringIn a).1.assets = f.assets ∧ (f.bringIn a).1.settings = f.settings ∧
          (f.bringIn a).1.sizeOf = f.sizeOf := by
        rw [bringIn]
        split <;> exact ⟨rfl, rfl, rfl⟩
      rw [hsame.1, hsame.2.1, hsame.2.2]
      exact hspawn b (List.mem_cons_of_mem _ hb) (Nat.le_trans (f.le_nextBody_bringIn a) hle)
    · rw [bringIn]
      split
      · next e w' hcome =>
        intro other hother
        rcases List.mem_append.1 hother with hother | hother
        · have hlt := h.enemy_lt_nextBody (List.mem_map_of_mem hother)
          obtain ⟨b, hb, hP⟩ := hf other hother
          exact ⟨b, (Enemy.spares_spawn hlt hcome).body_eq.trans hb, hP⟩
        · rw [List.mem_singleton.1 hother]
          exact hspawn a List.mem_cons_self (Nat.le_refl _) hcome
      · exact hf

end Fight

/-! ## Turns of a frame -/

namespace Stages

variable {f g : Fight K} {keys : ActionSet} {events : List Event}

/-- A step moves every enemy, and the hits of the player do not touch any. -/
theorem eachWith_hit {P Q : Enemy K → Body K → Prop} (s : Stages f keys g events)
    (hstep : ∀ e b, P e b → Q e (b.step f.world.bounds f.settings.dt)) (hf : f.EachWith P) :
    s.hit.EachWith Q := by
  obtain ⟨energy, htimed, -⟩ := s.timed_fst
  obtain ⟨invincible, status, timers, hhit⟩ := s.hit_fst
  have hsame : s.hit.enemies = f.enemies :=
    (congrArg Fight.enemies hhit :).trans (congrArg Fight.enemies htimed :)
  intro e he
  obtain ⟨b, hb, hP⟩ := hf e (hsame ▸ he)
  refine ⟨_, ?_, hstep e b hP⟩
  rw [s.world_hit]
  exact (f.world.bodies_step f.settings.dt e.body).trans (congrArg (Option.map _) hb)

/-- What damage keeps holds after the hits of the enemies. -/
theorem eachWith_struck {Q : Enemy K → Body K → Prop} (s : Stages f keys g events) (h : f.Staffed)
    (hdamage : ∀ e b amount, Q e b → Q (e.damage amount) b) (hhit : s.hit.EachWith Q) :
    s.struck.EachWith Q := by
  have hdamaged := Fight.forall_hitEnemies
    (P := fun e => ∃ b, s.hit.world.bodies[e.body]? = some b ∧ Q e b)
    (fun e amount ⟨b, hb, hQ⟩ => ⟨b, hb, hdamage e b amount hQ⟩) hhit
    (s.hit.world.overlapPairs playerBullets enemyGroup)
  rw [s.struck_eq_hitEnemies] at hdamaged
  intro e he
  obtain ⟨b, hb, hQ⟩ := hdamaged e he
  have hbody : e.body ∈ f.enemyBodies := by
    rw [← Fight.map_body_roles, ← s.roles_struck, Fight.map_body_roles]
    exact List.mem_map_of_mem he
  refine ⟨b, ?_, hQ⟩
  rw [(s.spares_struck h (.inr hbody)).body_eq, ← s.world_hit]
  exact hb

/-- The player does not touch the enemies. -/
theorem eachWith_acted {Q : Enemy K → Body K → Prop} (s : Stages f keys g events) (h : f.Staffed)
    (hstruck : s.struck.EachWith Q) : s.acted.EachWith Q := by
  have hstaffed := s.kept_struck Fight.keptByPhases_staffed h
  obtain ⟨⟨weapon, energy, world, log, hacted⟩, -⟩ := s.struck.playerPhase_eq keys
  have hphase : (s.struck.playerPhase keys).1 = s.acted := congrArg Prod.fst s.acted_eq
  rw [hphase] at hacted
  intro e he
  have he : e ∈ s.struck.enemies := (congrArg Fight.enemies hacted :) ▸ he
  have hbody : e.body ∈ s.struck.enemyBodies := List.mem_map_of_mem he
  obtain ⟨b, hb, hQ⟩ := hstruck e he
  have hne : s.struck.player.body ≠ e.body := fun heq =>
    hstaffed.player_not_mem_enemyBodies (heq ▸ hbody)
  have hspares := Fight.spares_playerPhase keys hne (hstaffed.enemy_lt_nextBody hbody)
  rw [hphase] at hspares
  exact ⟨b, hspares.body_eq.trans hb, hQ⟩

/-- What holds of the enemies when their turns come, if a step brings it about, damage keeps it, and
it holds of those that come. -/
theorem eachWith_joined {P Q : Enemy K → Body K → Prop} (s : Stages f keys g events)
    (h : f.Staffed) (hstep : ∀ e b, P e b → Q e (b.step f.world.bounds f.settings.dt))
    (hdamage : ∀ e b amount, Q e b → Q (e.damage amount) b)
    (hspawn : ∀ a ∈ f.arrivals, ∀ {w w' : World K} {e : Enemy K}, f.world.nextBody ≤ w.nextBody →
      Enemy.spawn a.sheet f.assets w enemyGroup f.settings (f.sizeOf a.sheet.image) = .ok (e, w') →
      ∃ b, w'.bodies[e.body]? = some b ∧ Q e b)
    (hf : f.EachWith P) : s.joined.EachWith Q := by
  have hphase : s.acted.arrivalPhase.1 = s.joined := congrArg Prod.fst s.joined_eq
  have hkeeps := s.kept_acted (Fight.keptByPhases_keeps f) (.refl f)
  have hnext := s.kept_acted (Fight.keptByPhases_nextBody f.world.nextBody) (Nat.le_refl _)
  rw [← hphase]
  refine Fight.eachWith_bringInAll (s.kept_acted Fight.keptByPhases_staffed h)
    (fun a ha w w' e hle => ?_)
    (s.eachWith_acted h (s.eachWith_struck h hdamage (s.eachWith_hit hstep hf)))
  rw [Fight.sizeOf, hkeeps.assets_eq, hkeeps.settings_eq, hkeeps.sizes_eq]
  exact hspawn a (hkeeps.arrivals_eq ▸ (List.mem_filter.1 ha).1) (Nat.le_trans hnext hle)

/-- An enemy has its turn in a frame. It finds a routine, and it has a body, of which the frame
makes what the turn makes of it. -/
structure Plays (s : Stages f keys g events) (e : Enemy K) (scene : Scene K)
    (before after : Body K) : Prop where
  onTurn : s.joined.OnTurn e scene
  found : ∃ e', e.transition? = some e'
  lt_nextBody : e.body < scene.world.nextBody
  joined_eq : s.joined.world.bodies[e.body]? = some before
  before_eq : scene.world.bodies[e.body]? = some before
  after_eq : (e.play scene).world.bodies[e.body]? = some after
  end_eq : g.world.bodies[e.body]? = some after

/-- The enemies at the end of a frame are those that had their turns in it. -/
theorem exists_plays (s : Stages f keys g events) (h : f.Staffed) {e' : Enemy K}
    (he' : e' ∈ g.enemies) :
    ∃ e scene before after, s.Plays e scene before after ∧ e' = (e.play scene).enemy := by
  have hjoined : s.joined.Staffed := s.kept_joined Fight.keptByPhases_staffed h
  have hphase : s.joined.enemyPhase.1 = s.moved := congrArg Prod.fst s.moved_eq
  have hmoved : e' ∈ s.moved.enemies := (congrArg Fight.enemies s.counted_fst.1 :) ▸ he'
  obtain ⟨e, scene, hturn, hdone, rfl, hspares, hend⟩ :=
    Fight.exists_turn_of_enemyPhase hjoined (hphase.symm ▸ hmoved)
  have hbody : (e.play scene).enemy.body = e.body := (e.turn_play scene).1.body_eq
  have he : e.body ∈ s.joined.enemyBodies := List.mem_map_of_mem hturn.mem
  have hlt := Nat.lt_of_lt_of_le (hjoined.enemy_lt_nextBody he) hspares.nextBody_le
  obtain ⟨before, hbefore⟩ := Option.isSome_iff_exists.1
    (Std.ExtTreeMap.mem_iff_isSome_getElem?.1 (World.Staffed.enemy_mem_bodies hjoined he))
  have hscene := hspares.body_eq.trans hbefore
  -- an enemy that is not done finds a routine, and its body takes up the movement of it
  obtain ⟨found, hfound⟩ : ∃ found, e.transition? = some found := by
    rw [Enemy.isDone, Option.isNone_eq_false_iff] at hdone
    exact Option.isSome_iff_exists.1 hdone
  obtain ⟨r, hr⟩ := Enemy.exists_current_transition? hfound
  obtain ⟨-, hafter⟩ := Enemy.play_takeUp hfound hr scene hscene hlt
  refine ⟨e, scene, before, _, ⟨hturn, ⟨found, hfound⟩, hlt, hbefore, hscene, hafter, ?_⟩, rfl⟩
  have hstays : e.body ∈ s.moved.enemyBodies := hbody ▸ List.mem_map_of_mem hmoved
  rw [(s.spares_swept (s.kept_moved Fight.keptByPhases_staffed h) (.inr hstays)).body_eq, ← hphase]
  exact hend.trans hafter

/-- What turns make of what holds when they come holds of the enemies at the end of the frame. -/
theorem eachWith_of_joined {P Q : Enemy K → Body K → Prop} (s : Stages f keys g events)
    (h : f.Staffed) (hjoined : s.joined.EachWith P)
    (hturn : ∀ {e scene before after}, s.Plays e scene before after → P e before →
      Q (e.play scene).enemy after) : g.EachWith Q := by
  intro e' he'
  obtain ⟨e, scene, before, after, hplays, rfl⟩ := s.exists_plays h he'
  obtain ⟨b, hb, hP⟩ := hjoined e hplays.onTurn.mem
  obtain rfl := Option.some.inj (hplays.joined_eq.symm.trans hb)
  refine ⟨after, ?_, hturn hplays hP⟩
  rw [(e.turn_play scene).1.body_eq]
  exact hplays.end_eq

section
variable {s : Stages f keys g events} {e : Enemy K} {scene : Scene K} {before after : Body K}

/-- The time between two frames is that of the settings in all scenes. -/
theorem Plays.dt_eq (h : s.Plays e scene before after) : scene.dt = g.settings.dt := by
  obtain ⟨-, -, -, rfl⟩ := h.onTurn
  have hjoined : s.joined.settings = f.settings :=
    (s.kept_joined (Fight.keptByPhases_keeps f) (.refl f)).settings_eq
  rw [s.settings_eq, ← hjoined]
  rfl

/-- The body takes up the movement that the enemy looks up. -/
theorem Plays.eq_takeUp (h : s.Plays e scene before after) :
    after = (before.takeUp e.limits (e.nextMovement scene.rng) scene.dt).2 := by
  obtain ⟨e', hfound⟩ := h.found
  obtain ⟨r, hr⟩ := Enemy.exists_current_transition? hfound
  have hafter := (Enemy.play_takeUp hfound hr scene h.before_eq h.lt_nextBody).2
  exact Option.some.inj (h.after_eq.symm.trans hafter)

end

end Stages

end Barrage
