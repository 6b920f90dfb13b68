import Barrage.Proofs.Fight.Lifecycle

/-!
# The ledger of bodies

In a frame bodies go and come: bullets of the player that hit enemies, the shots of a volley, the
enemies whose frame it is, the shots that the enemies have scheduled, the enemies that find no
routine any more, and the bullets that are off the screen. Each phase either takes members of one
group away or gives new numbers to new members of one group (`World.Loses`, `World.Gains`), and
leaves the other groups alone.

A frame makes an entry for each of these phases (`Stages.Entries`), and the entries add up: to the
members of a group (`Entries.members_eq`), to the live bodies (`Entries.mem_bodies_iff`), and to the
numbers that were given out. What a frame tells of hits, arrivals and exhausted enemies is what it
has done (`Stages.ledger`). `Fight.run_ledger` says so of all frames of a run, whose new numbers
were never given out before.
-/

namespace Barrage

variable {K : Type} [Scalar K]

/-! ## What comes -/

section
variable {w : World K} {player : BodyId} {enemies : List BodyId}

omit [Scalar K] in
/-- All four groups are there. -/
theorem World.Staffed.lt_length (h : w.Staffed player enemies) {group : GroupId}
    (hgroup : group < 4) : group < w.groups.length := by
  rwa [h.length_groups]

/-- The shots of a volley from a live body are as many members more. -/
theorem World.Staffed.gains_spawnShots (h : w.Staffed player enemies) {source : BodyId}
    (hsource : source ∈ w.bodies) {group : GroupId}
    (hgroup : group = playerBullets ∨ group = enemyBullets) (shots : List (Shot K))
    (sizeOf : String → Size K) :
    w.Gains group shots.length (w.spawnShots shots source group sizeOf).2 := by
  have hlt : group < 4 := by rcases hgroup with rfl | rfl <;> decide
  obtain ⟨b, hb⟩ := Option.isSome_iff_exists.1 (Std.ExtTreeMap.mem_iff_isSome_getElem?.1 hsource)
  have hhosts := h.enrolled.hosts (List.getElem?_eq_getElem (h.lt_length hlt))
  exact (World.spawns_spawnShots hb (h.enrolled.lt_nextBody hsource) shots group sizeOf).2.gains
    hhosts

/-- How many shots a player fires: all of its weapon, if the key is active and the weapon ready. -/
def Player.volley (p : Player K) (keys : ActionSet) : Nat :=
  if keys.has .fire && p.weapon.cooldown == 0 then p.weapon.shots.length else 0

/-- What the player adds to a world is the volley of its weapon. -/
theorem Player.gains_update {p : Player K} (h : w.Staffed p.body enemies) (keys : ActionSet)
    (sizeOf : String → Size K) :
    w.Gains playerBullets (p.volley keys) (p.update keys w playerBullets sizeOf).2.2 := by
  have hw : (w.setVelocity p.body (p.velocity keys)).Staffed p.body enemies := h.modify _ _
  rw [Player.update, Player.fire, Player.volley]
  split
  · exact (hw.gains_spawnShots hw.player_mem_bodies (.inl rfl) p.weapon.shots sizeOf).of_bodies
      w.mem_bodies_modify
  · exact (World.Gains.refl w playerBullets).modify _ _

/-- An enemy that comes is one member more of its group. -/
theorem Enemy.gains_spawn (h : w.Staffed player enemies) {sheet : EnemySheet} {assets : Assets K}
    {settings : Settings K} {size : Size K} {e : Enemy K} {w' : World K}
    (hspawn : Enemy.spawn sheet assets w enemyGroup settings size = .ok (e, w')) :
    w.Gains enemyGroup 1 w' := by
  obtain ⟨scripts, -, hspawn⟩ := map_eq_ok_iff.1 hspawn
  cases hspawn
  exact h.enrolled.gains_join (w.grown_create sheet.image (settings.enemyPlace.onScreen
    settings.viewport.width settings.viewport.height) size) (h.lt_length (by decide))

/-- The shots that an enemy has scheduled for the time of its next update. -/
def Enemy.scheduledShots (e : Enemy K) : List (Shot K) :=
  (e.transition?.bind (·.sequence.currentShots)).getD []

/-- An update of an enemy fires the shots that it has scheduled. -/
theorem Enemy.gains_update (h : w.Staffed player enemies) {e : Enemy K} (he : e.body ∈ enemies)
    (rng : Prng) (dt : K) (sizeOf : String → Size K) :
    w.Gains enemyBullets e.scheduledShots.length
      (e.update w rng enemyBullets dt sizeOf).world := by
  rw [update, scheduledShots]
  cases hfound : e.transition? with
  | none => exact .refl w enemyBullets
  | some e' =>
    obtain ⟨hbody, hshots, bodies, hworld, hbodies⟩ := e'.move_eq w rng dt
    obtain ⟨-, hmoved⟩ := e'.move_staffed h rng dt
    have hlive : (e'.move w rng dt).1.body ∈ (e'.move w rng dt).2.1.bodies := by
      rw [hbody, body_transition? hfound]
      exact hmoved.enemy_mem_bodies he
    have hfired := hmoved.gains_spawnShots hlive (.inr rfl)
      (e'.sequence.currentShots.getD []) sizeOf
    rw [hworld] at hfired
    dsimp only
    rw [fire_eq, hshots, hworld]
    exact hfired.of_bodies hbodies

end

namespace Fight

variable {f : Fight K}

/-- The arrivals of a frame are as many enemies more. -/
theorem gains_bringInAll (h : f.Staffed) {arrivals : List Arrival}
    (hready : ∀ a ∈ arrivals, a.Ready f.assets) :
    f.world.Gains enemyGroup arrivals.length (f.bringInAll arrivals).1.world := by
  induction arrivals generalizing f with
  | nil => exact .refl _ _
  | cons a rest ih =>
    obtain ⟨e, w', hspawn⟩ := (hready a List.mem_cons_self).spawn f.world enemyGroup f.settings
      (f.sizeOf a.sheet.image)
    have hfirst : (f.bringIn a).1 = { f with
        world := w', log := f.log ++ Enemy.spawnWarnings a.sheet f.assets
        enemies := f.enemies ++ [e] } := by
      rw [bringIn, hspawn]
    have hrest := ih (h.bringIn a) (by
      rw [hfirst]
      exact fun b hb => hready b (List.mem_cons_of_mem _ hb))
    rw [hfirst] at hrest
    rw [bringInAll_cons, hfirst, List.length_cons, Nat.add_comm]
    exact (Enemy.gains_spawn h hspawn).trans hrest

/-- The updates of enemies fire the shots that they have scheduled. -/
theorem gains_updateEnemies {w : World K} {player : BodyId} {bodies : List BodyId}
    (h : w.Staffed player bodies) (rng : Prng) {enemies : List (Enemy K)}
    (henemies : ∀ e ∈ enemies, e.body ∈ bodies) :
    w.Gains enemyBullets (enemies.flatMap Enemy.scheduledShots).length
      (f.updateEnemies w rng enemies).world := by
  induction enemies generalizing w rng with
  | nil => exact .refl _ _
  | cons e rest ih =>
    have hfirst := Enemy.gains_update h (henemies e List.mem_cons_self) rng f.settings.dt f.sizeOf
    have hupdated := (Enemy.update_staffed h e rng f.settings.dt f.sizeOf).2
    have hrest := ih hupdated (e.update w rng enemyBullets f.settings.dt f.sizeOf).rng
      fun other ho => henemies other (List.mem_cons_of_mem _ ho)
    rw [updateEnemies, List.flatMap_cons, List.length_append]
    split
    · exact hfirst.trans hrest
    · exact hfirst.trans hrest

end Fight

/-! ## What goes -/

/-- The bullets of the player that overlap enemies, each with the first enemy that it overlaps. -/
def World.strikes (w : World K) : List (BodyId × BodyId) :=
  (w.members playerBullets).filterMap fun bullet =>
    (w.overlapping bullet enemyGroup).head?.map fun enemy => (bullet, enemy)

/-- A member of a group is off the screen when its centre is beyond a border by more than its whole
width or height. -/
theorem World.mem_outside_iff {w : World K} {group : GroupId} {viewport : Size K} {id : BodyId} :
    id ∈ w.outside group viewport ↔ id ∈ w.members group ∧ ∃ b, w.bodies[id]? = some b ∧
      (b.position.x + b.half.x * Scalar.whole 2 < 0 ∨
        viewport.width < b.position.x - b.half.x * Scalar.whole 2 ∨
        b.position.y + b.half.y * Scalar.whole 2 < 0 ∨
        viewport.height < b.position.y - b.half.y * Scalar.whole 2) := by
  rw [outside, List.mem_filter, Option.any_eq_true]
  refine and_congr_right fun _ => exists_congr fun b => and_congr_right fun _ => ?_
  simp only [Body.isOutside, Bool.or_eq_true, decide_eq_true_eq, or_assoc]
  rfl

/-- What is off the screen of a group goes. -/
theorem World.Enrolled.loses_sweep {w : World K} (hw : w.Enrolled) (group : GroupId)
    (viewport : Size K) : w.Loses group (w.outside group viewport) (w.sweep group viewport) :=
  hw.loses_foldl_destroy fun _ hid => (List.mem_filter.1 hid).1

/-- For the other groups this makes no difference. -/
theorem World.Enrolled.outside_sweep {w : World K} (hw : w.Enrolled) {group other : GroupId}
    (hne : group ≠ other) (viewport : Size K) :
    (w.sweep group viewport).outside other viewport = w.outside other viewport := by
  rw [outside, (hw.loses_sweep group viewport).members_eq, if_neg hne, outside]
  refine List.filter_congr fun id hid => ?_
  have hstays : id ∉ w.outside group viewport := fun hin =>
    hne (hw.group_unique (List.mem_filter.1 hin).1 hid)
  rw [sweep, bodies_foldl_destroy w hstays]

/-- The damage that hits do to one body, all of it together. -/
def harmTo : List (BodyId × Nat) → BodyId → Nat
  | [], _ => 0
  | (enemy, amount) :: rest, body => (if enemy = body then amount else 0) + harmTo rest body

namespace Fight

variable {f : Fight K}

section
omit [Scalar K]

/-- The damage that a bullet does: its tag, or else what the settings say. -/
def harm (f : Fight K) (bullet : BodyId) : Nat :=
  f.world.damage[bullet]?.getD f.settings.shotDamage

/-- The hits of bullets, each of which strikes one enemy. -/
def hitsBy (f : Fight K) (strikes : List (BodyId × BodyId)) : List (BodyId × Nat) :=
  strikes.map fun p => (p.2, f.harm p.1)

/-- What hits tell. -/
def toldOf (f : Fight K) (hits : List (BodyId × Nat)) : List Event :=
  hits.map fun hit => .on f.frame (.enemyHit hit.1 hit.2)

/-- The hits can be read off what is told of them. -/
theorem enemyHits_toldOf (f : Fight K) (hits : List (BodyId × Nat)) :
    (f.toldOf hits).filterMap Event.enemyHit? = hits := by
  rw [toldOf, List.filterMap_map]
  exact List.filterMap_some

/-- The fight when the bullets are used up and the enemies have their damage. -/
def struckBy (f : Fight K) (strikes : List (BodyId × BodyId)) : Fight K :=
  { f with
    world := (strikes.map Prod.fst).foldl World.destroy f.world
    enemies := f.enemies.map fun e => e.damage (harmTo (f.hitsBy strikes) e.body) }

/-- Without hits nothing changes. -/
theorem struckBy_nil (f : Fight K) : f.struckBy [] = f := by
  have hsame : f.enemies.map (fun e => e.damage (harmTo [] e.body)) = f.enemies :=
    List.map_id'' (fun e => e.damage_zero) f.enemies
  exact congrArg (fun enemies => { f with enemies }) hsame

/-- A bullet that is used up does not change what the others do. -/
theorem hitsBy_struckBy {bullet enemy : BodyId} {strikes : List (BodyId × BodyId)}
    (hnew : bullet ∉ strikes.map Prod.fst) :
    (f.struckBy [(bullet, enemy)]).hitsBy strikes = f.hitsBy strikes := by
  refine List.map_congr_left fun p hp => congrArg (fun damage : Option Nat =>
    (p.2, damage.getD f.settings.shotDamage)) (World.damage_destroy_of_ne _ ?_)
  exact fun (heq : p.1 = bullet) => hnew (heq ▸ List.mem_map_of_mem hp)

/-- Bullets strike one after the other. -/
theorem struckBy_cons {bullet enemy : BodyId} {strikes : List (BodyId × BodyId)}
    (hnew : bullet ∉ strikes.map Prod.fst) :
    f.struckBy ((bullet, enemy) :: strikes) = (f.struckBy [(bullet, enemy)]).struckBy strikes := by
  have henemies : (f.struckBy ((bullet, enemy) :: strikes)).enemies =
      ((f.struckBy [(bullet, enemy)]).struckBy strikes).enemies := by
    rw [struckBy, struckBy, hitsBy_struckBy hnew]
    dsimp only [struckBy]
    rw [List.map_map]
    refine List.map_congr_left fun e _ => ?_
    exact (e.damage_damage _ _).symm
  exact congrArg (fun enemies => ({ f with
    world := (strikes.map Prod.fst).foldl World.destroy (f.world.destroy bullet), enemies } :
      Fight K)) henemies

/-- A bullet that is gone hits nothing any more. -/
theorem hitEnemies_of_gone {bullet : BodyId} (h : bullet ∉ f.world.bodies) (enemies : List BodyId) :
    f.hitEnemies (enemies.map fun enemy => (bullet, enemy)) = (f, []) := by
  induction enemies with
  | nil => rfl
  | cons enemy rest ih =>
    have hfirst : f.hitEnemyBy bullet enemy = (f, []) := by
      obtain ⟨-, hnone⟩ | ⟨hlive, -⟩ := f.hitEnemyBy_cases bullet enemy
      · exact hnone
      · exact absurd hlive h
    rw [List.map_cons, hitEnemies_cons, hfirst, ih]
    rfl

/-- A live bullet that meets an enemy strikes it. -/
theorem hitEnemyBy_of_live {bullet enemy : BodyId} (hnodup : f.enemyBodies.Nodup)
    (hbullet : bullet ∈ f.world.bodies) (henemy : enemy ∈ f.enemyBodies) :
    f.hitEnemyBy bullet enemy =
      (f.struckBy [(bullet, enemy)], f.toldOf (f.hitsBy [(bullet, enemy)])) := by
  obtain ⟨e, he, hbody⟩ := List.mem_map.1 henemy
  obtain ⟨hgone | hother, -⟩ | ⟨-, i, target, amount, hi, htarget, rfl, hhit⟩ :=
    f.hitEnemyBy_cases bullet enemy
  · exact absurd hbullet hgone
  · exact absurd hbody (hother e he)
  · have hlt : i < f.enemies.length := (List.getElem?_eq_some_iff.1 hi).1
    have henemies : f.enemies.set i (target.damage (f.harm bullet)) =
        (f.struckBy [(bullet, enemy)]).enemies := by
      refine List.ext_getElem? fun k => ?_
      rw [struckBy, List.getElem?_map]
      by_cases hk : i = k
      · subst hk
        rw [List.getElem?_set_self hlt, hi, Option.map_some, hitsBy, List.map_singleton,
          harmTo, if_pos htarget.symm]
        rfl
      · rw [List.getElem?_set_ne hk]
        cases hother : f.enemies[k]? with
        | none => rfl
        | some other =>
          -- no other enemy has this body
          have hne : enemy ≠ other.body := by
            intro heq
            have hbodies : f.enemyBodies[i]? = f.enemyBodies[k]? := by
              rw [enemyBodies, List.getElem?_map, List.getElem?_map, hi, hother, Option.map_some,
                Option.map_some, htarget, heq]
            exact hk ((List.getElem?_inj (by rwa [enemyBodies, List.length_map]) hnodup).1 hbodies)
          rw [Option.map_some, hitsBy, List.map_singleton, harmTo, if_neg hne]
          exact congrArg some other.damage_zero.symm
    rw [hhit]
    exact congrArg (fun enemies => (({ f with world := f.world.destroy bullet, enemies } : Fight K),
      f.toldOf (f.hitsBy [(bullet, enemy)]))) henemies

/-- Pairs that follow others are gone through after them. -/
theorem hitEnemies_append (f : Fight K) (pairs later : List (BodyId × BodyId)) :
    f.hitEnemies (pairs ++ later) = (((f.hitEnemies pairs).1.hitEnemies later).1,
      (f.hitEnemies pairs).2 ++ ((f.hitEnemies pairs).1.hitEnemies later).2) := by
  induction pairs generalizing f with
  | nil => rfl
  | cons pair rest ih =>
    rw [List.cons_append, hitEnemies_cons, hitEnemies_cons, ih, List.append_assoc]

/-- Of the enemies that each of several live bullets meets, the first one is struck. -/
theorem hitEnemies_eq_strikes {bullets : List BodyId} (targets : BodyId → List BodyId)
    (henemies : f.enemyBodies.Nodup) (hnodup : bullets.Nodup)
    (hlive : ∀ b ∈ bullets, b ∈ f.world.bodies)
    (htargets : ∀ b ∈ bullets, ∀ e ∈ targets b, e ∈ f.enemyBodies)
    {strikes : List (BodyId × BodyId)}
    (hstrikes : strikes = bullets.filterMap fun b => (targets b).head?.map fun e => (b, e)) :
    f.hitEnemies (bullets.flatMap fun b => (targets b).map fun e => (b, e)) =
      (f.struckBy strikes, f.toldOf (f.hitsBy strikes)) := by
  subst hstrikes
  induction bullets generalizing f with
  | nil =>
    rw [List.filterMap_nil, struckBy_nil]
    rfl
  | cons bullet rest ih =>
    obtain ⟨hnew, hnodup⟩ := List.nodup_cons.1 hnodup
    rw [List.flatMap_cons, hitEnemies_append]
    cases htarget : targets bullet with
    | nil =>
      rw [List.filterMap_cons_none (by rw [htarget]; rfl)]
      exact ih henemies hnodup (fun b hb => hlive b (List.mem_cons_of_mem _ hb))
        fun b hb => htargets b (List.mem_cons_of_mem _ hb)
    | cons enemy others =>
      have henemy := htargets bullet List.mem_cons_self enemy (htarget ▸ List.mem_cons_self)
      have hfirst := hitEnemyBy_of_live henemies (hlive bullet List.mem_cons_self) henemy
      have hbodies : (f.struckBy [(bullet, enemy)]).enemyBodies = f.enemyBodies := List.map_map
      -- the bullet is gone now, for the other enemies that it overlaps and for the other bullets
      have hgone : bullet ∉ (f.struckBy [(bullet, enemy)]).world.bodies := fun h =>
        (f.world.mem_bodies_destroy.1 h).1 rfl
      have hnew' : bullet ∉ (rest.filterMap fun b =>
          (targets b).head?.map fun e => (b, e)).map Prod.fst := by
        intro hin
        obtain ⟨p, hp, rfl⟩ := List.mem_map.1 hin
        obtain ⟨b, hb, hp⟩ := List.mem_filterMap.1 hp
        obtain ⟨e, -, rfl⟩ := Option.map_eq_some_iff.1 hp
        exact hnew hb
      have hrest := ih (f := f.struckBy [(bullet, enemy)]) (hbodies.symm ▸ henemies) hnodup
        (fun b hb => f.world.mem_bodies_destroy.2
          ⟨fun (heq : b = bullet) => hnew (heq ▸ hb), hlive b (List.mem_cons_of_mem _ hb)⟩)
        fun b hb e he => hbodies.symm ▸ htargets b (List.mem_cons_of_mem _ hb) e he
      rw [List.filterMap_cons_some (by rw [htarget]; rfl), List.map_cons, hitEnemies_cons, hfirst,
        hitEnemies_of_gone hgone, hrest, struckBy_cons hnew', hitsBy_struckBy hnew']
      rfl

end

/-- What the bullets of the player do, and what is told of it. -/
theorem hitEnemyPhase_eq (h : f.Staffed) : f.hitEnemyPhase =
    (f.struckBy f.world.strikes, f.toldOf (f.hitsBy f.world.strikes)) := by
  have hw := World.Staffed.enrolled h
  refine hitEnemies_eq_strikes (fun bullet => f.world.overlapping bullet enemyGroup)
    h.intact.nodup_enemyBodies (hw.nodup_members playerBullets) (fun _ => hw.mem_bodies) ?_ rfl
  intro bullet _ enemy henemy
  rw [World.overlapping] at henemy
  split at henemy
  · cases henemy
  · rw [← World.Staffed.members_enemies h]
    exact (List.mem_filter.1 henemy).1

end Fight

/-! ## A frame -/

/-- The members of a group `other` when some bodies have been struck off `group`. -/
def struckOff (group other : GroupId) (ids members : List BodyId) : List BodyId :=
  if group = other then members.filter fun id => !ids.contains id else members

/-- The members of a group `other` when new numbers have been put down in `group`. -/
def putDown (group other : GroupId) (first count : Nat) (members : List BodyId) : List BodyId :=
  if group = other then members ++ List.range' first count else members

namespace Fight

/-- The bullets of the player that will hit an enemy on the next frame, each with the enemy that it
hits. -/
def strikes (f : Fight K) : List (BodyId × BodyId) := f.moveBodies.world.strikes

/-- The bullets among them. -/
def consumed (f : Fight K) : List BodyId := f.strikes.map Prod.fst

/-- They are bullets of the player, each of them once. -/
theorem consumed_sublist (f : Fight K) : f.consumed.Sublist (f.world.members playerBullets) := by
  rw [consumed, strikes, World.strikes, List.map_filterMap]
  show (List.filterMap _ (f.world.members playerBullets)).Sublist _
  induction f.world.members playerBullets with
  | nil => exact .refl _
  | cons bullet rest ih =>
    rw [List.filterMap_cons]
    cases (f.moveBodies.world.overlapping bullet enemyGroup).head? with
    | none => exact ih.cons bullet
    | some enemy => exact ih.cons_cons bullet

end Fight

namespace Stages

variable {f g : Fight K} {keys : ActionSet} {events : List Event}

/-- Neither timers nor hits of the player change the world. -/
theorem world_hit (s : Stages f keys g events) : s.hit.world = f.moveBodies.world := by
  obtain ⟨energy, htimed, -⟩ := s.timed_fst
  obtain ⟨invincible, status, timers, hhit⟩ := s.hit_fst
  rw [hhit, htimed]
  rfl

/-- Neither timers nor hits of the player change the settings. -/
theorem settings_hit (s : Stages f keys g events) : s.hit.settings = f.settings := by
  obtain ⟨energy, htimed, -⟩ := s.timed_fst
  obtain ⟨invincible, status, timers, hhit⟩ := s.hit_fst
  rw [hhit, htimed]
  rfl

/-- Whether the player fires does not depend on what was hit. -/
theorem volley_struck (s : Stages f keys g events) :
    s.struck.player.volley keys = f.player.volley keys := by
  obtain ⟨energy, htimed, -⟩ := s.timed_fst
  obtain ⟨invincible, status, timers, hhit⟩ := s.hit_fst
  obtain ⟨world, enemies, hstruck⟩ := s.struck_fst
  have hweapon : s.struck.player.weapon = f.player.weapon := by
    rw [hstruck, hhit, htimed]
    show (if _ then f.player.endWindow else f.player).weapon = _
    split <;> rfl
  rw [Player.volley, Player.volley, hweapon]

/-- The bullets that hit enemies go. -/
theorem loses_struck (s : Stages f keys g events) (h : f.Staffed) :
    f.world.Loses playerBullets f.consumed s.struck.world := by
  have hhit := s.kept_hit Fight.keptByPhases_staffed h
  have hworld := congrArg (·.1.world) (s.struck_eq.symm.trans (Fight.hitEnemyPhase_eq hhit))
  dsimp only [Fight.struckBy] at hworld
  rw [s.world_hit] at hworld
  have hw : f.moveBodies.world.Enrolled := s.world_hit ▸ World.Staffed.enrolled hhit
  have hloses : f.moveBodies.world.Loses playerBullets f.consumed _ :=
    hw.loses_foldl_destroy fun id => (f.consumed_sublist.subset ·)
  obtain ⟨hnext, hmembers, hbodies⟩ := hloses
  rw [hworld]
  exact ⟨hnext, hmembers, hbodies.trans (and_congr_left' f.world.mem_bodies_step)⟩

/-- The shots of the player come. -/
theorem gains_acted (s : Stages f keys g events) (h : f.Staffed) :
    s.struck.world.Gains playerBullets (f.player.volley keys) s.acted.world := by
  have hstruck := s.kept_struck Fight.keptByPhases_staffed h
  have hplayer := Player.gains_update hstruck keys s.struck.sizeOf
  rw [s.volley_struck] at hplayer
  have hacted := congrArg (·.1.world) s.acted_eq
  rw [← show _ = s.acted.world from hacted, Fight.playerPhase]
  dsimp only
  rw [useSpecial]
  split
  · dsimp only
    split
    · exact hplayer.modify _ _
    · exact hplayer
  · exact hplayer

/-- The arrivals come. -/
theorem gains_joined (s : Stages f keys g events) (h : f.Staffed) {assets : Assets K}
    {arrivals : List Arrival} (hprepared : f.Prepared assets arrivals) :
    s.acted.world.Gains enemyGroup (spawns (Event.sort events)).length s.joined.world := by
  have hacted := s.kept_acted (Fight.keptByPhases_prepared assets arrivals) hprepared
  have hready : ∀ a ∈ s.acted.arrivals.filter (·.time == s.acted.frame),
      a.Ready s.acted.assets := by
    rw [hacted.arrivals_eq, hacted.assets_eq]
    exact fun a ha => hprepared.ready a (List.mem_filter.1 ha).1
  have hgains := Fight.gains_bringInAll (s.kept_acted Fight.keptByPhases_staffed h) hready
  rw [s.spawns_eq hprepared, List.length_map, List.length_zipIdx]
  have hjoined := s.joined_eq
  rw [Fight.arrivalPhase] at hjoined
  rwa [hjoined, hacted.arrivals_eq, s.frame_acted] at hgains

/-- The shots of the enemies come, and the enemies go that are exhausted. -/
theorem exists_gains_moved (s : Stages f keys g events) (h : f.Staffed) : ∃ w,
    s.joined.world.Gains enemyBullets (s.joined.enemies.flatMap Enemy.scheduledShots).length w ∧
    w.Loses enemyGroup (exhausted (Event.sort events)) s.moved.world := by
  have hjoined := s.kept_joined Fight.keptByPhases_staffed h
  have hnodup := hjoined.intact.nodup_enemyBodies
  have hgains := Fight.gains_updateEnemies (f := s.joined) hjoined s.joined.rng
    fun e he => List.mem_map_of_mem he
  obtain ⟨hworld, -, -⟩ := Fight.updateEnemies_staffed (f := s.joined) hjoined s.joined.rng
    s.joined.enemies
  obtain ⟨-, hfinished, -⟩ :=
    s.joined.updateEnemies_turns s.joined.world s.joined.rng s.joined.enemies
  have hmoved := congrArg (·.1.world) s.moved_eq
  rw [Fight.enemyPhase] at hmoved
  dsimp only at hmoved
  rw [hfinished] at hmoved
  refine ⟨_, hgains, hmoved ▸ World.Loses.congr ?_ fun id => (s.perm_exhausted hnodup).mem_iff.symm⟩
  refine hworld.enrolled.loses_foldl_destroy fun id hid => ?_
  rw [hworld.members_enemies]
  exact (List.filter_sublist.map _).subset hid

/-- The bullets go that are off the screen. -/
theorem exists_loses_moved (s : Stages f keys g events) (h : f.Staffed) : ∃ w,
    s.moved.world.Loses playerBullets (s.moved.world.outside playerBullets f.settings.viewport) w ∧
    w.Loses enemyBullets (s.moved.world.outside enemyBullets f.settings.viewport) g.world := by
  have hsettings : s.moved.settings = f.settings :=
    (congrArg Fight.settings s.counted_fst.1 :).symm.trans s.settings_eq
  rw [(congrArg Fight.world s.counted_fst.1 :), hsettings]
  have hmoved := s.kept_moved Fight.keptByPhases_staffed h
  have hswept := World.Staffed.sweep hmoved (.inl rfl) f.settings.viewport
  rw [← (World.Staffed.enrolled hmoved).outside_sweep (show playerBullets ≠ enemyBullets by decide)
    f.settings.viewport]
  exact ⟨_, (World.Staffed.enrolled hmoved).loses_sweep _ _, hswept.enrolled.loses_sweep _ _⟩

end Stages

/-- What a frame does to the bodies of a fight: which ones go, which ones come with which numbers,
and that the others stay, in their order. -/
structure Ledger {f g : Fight K} {keys : ActionSet} {events : List Event}
    (s : Stages f keys g events) : Prop where
  /-- Each hit of an enemy that is told is that of a bullet of the player, ... -/
  hits : ((Event.sort events).filterMap Event.enemyHit?).Perm
    (f.strikes.map fun p => (p.2, f.world.damage[p.1]?.getD f.settings.shotDamage))
  /-- ... and no bullet hits twice. -/
  nodup_consumed : f.consumed.Nodup
  consumed_mem : ∀ id ∈ f.consumed, id ∈ f.world.members playerBullets
  /-- The next numbers go to the shots of a volley, to the arrivals, and to the shots that the
  enemies have scheduled. -/
  nextBody_eq : g.world.nextBody = f.world.nextBody + f.player.volley keys +
    (spawns (Event.sort events)).length + (s.joined.enemies.flatMap Enemy.scheduledShots).length
  arrived_eq : (spawns (Event.sort events)).map (·.body) =
    List.range' (f.world.nextBody + f.player.volley keys) (spawns (Event.sort events)).length
  /-- The live bodies are those from before, without the bullets that hit enemies, and the new ones,
  except for enemies that are exhausted and bullets that are off the screen in the end. -/
  mem_bodies_iff : ∀ id, id ∈ g.world.bodies ↔
    (id ∈ f.world.bodies ∧ id ∉ f.consumed ∨ f.world.nextBody ≤ id ∧ id < g.world.nextBody) ∧
    id ∉ exhausted (Event.sort events) ∧
    id ∉ s.moved.world.outside playerBullets f.settings.viewport ∧
    id ∉ s.moved.world.outside enemyBullets f.settings.viewport
  /-- So it is group by group, and the members that stay keep their order. -/
  members_player : g.world.members playerGroup = f.world.members playerGroup
  members_playerBullets : g.world.members playerBullets =
    ((f.world.members playerBullets).filter (fun id => !f.consumed.contains id) ++
      List.range' f.world.nextBody (f.player.volley keys)).filter fun id =>
        !(s.moved.world.outside playerBullets f.settings.viewport).contains id
  members_enemies : g.world.members enemyGroup =
    (f.world.members enemyGroup ++ (spawns (Event.sort events)).map (·.body)).filter fun id =>
      !(exhausted (Event.sort events)).contains id
  members_enemyBullets : g.world.members enemyBullets =
    (f.world.members enemyBullets ++ List.range'
      (f.world.nextBody + f.player.volley keys + (spawns (Event.sort events)).length)
      (s.joined.enemies.flatMap Enemy.scheduledShots).length).filter fun id =>
        !(s.moved.world.outside enemyBullets f.settings.viewport).contains id
  /-- Off the screen are the members whose centres are beyond a border by more than their whole
  width or height, when all have moved and fired. -/
  outside_iff : ∀ group id, id ∈ s.moved.world.outside group f.settings.viewport ↔
    id ∈ s.moved.world.members group ∧ ∃ b, s.moved.world.bodies[id]? = some b ∧
      (b.position.x + b.half.x * Scalar.whole 2 < 0 ∨
        f.settings.viewport.width < b.position.x - b.half.x * Scalar.whole 2 ∨
        b.position.y + b.half.y * Scalar.whole 2 < 0 ∨
        f.settings.viewport.height < b.position.y - b.half.y * Scalar.whole 2)
  /-- In particular a bullet of the enemies goes only when it is off the screen. -/
  enemyBullet_gone_iff : ∀ id ∈ f.world.members enemyBullets, id ∉ g.world.bodies ↔
    id ∈ s.moved.world.outside enemyBullets f.settings.viewport

namespace Stages

variable {f g : Fight K} {keys : ActionSet} {events : List Event}

/-- The hits that are told are those of the bullets that go. -/
theorem perm_enemyHits (s : Stages f keys g events) (h : f.Staffed) :
    ((Event.sort events).filterMap Event.enemyHit?).Perm
      (f.strikes.map fun p => (p.2, f.world.damage[p.1]?.getD f.settings.shotDamage)) := by
  have hhit := Fight.hitEnemyPhase_eq (s.kept_hit Fight.keptByPhases_staffed h)
  have htold : s.happened .enemyHits = _ := congrArg Prod.snd (s.struck_eq.symm.trans hhit)
  have hperm := s.perm_filterMap_sort Event.phase_of_enemyHit?
  rw [htold, Fight.enemyHits_toldOf, Fight.hitsBy] at hperm
  refine hperm.trans (.of_eq ?_)
  unfold Fight.harm
  rw [s.world_hit, s.settings_hit]
  rfl

/-- The entries of the ledger of a frame, one for each stage at which bodies go or come. -/
structure Entries (s : Stages f keys g events) (w v : World K) : Prop where
  struck : f.world.Loses playerBullets f.consumed s.struck.world
  acted : s.struck.world.Gains playerBullets (f.player.volley keys) s.acted.world
  joined : s.acted.world.Gains enemyGroup (spawns (Event.sort events)).length s.joined.world
  /-- The enemies fire first, and then those go that are exhausted. -/
  fired : s.joined.world.Gains enemyBullets (s.joined.enemies.flatMap Enemy.scheduledShots).length w
  moved : w.Loses enemyGroup (exhausted (Event.sort events)) s.moved.world
  swept : s.moved.world.Loses playerBullets
    (s.moved.world.outside playerBullets f.settings.viewport) v
  left : v.Loses enemyBullets (s.moved.world.outside enemyBullets f.settings.viewport) g.world

/-- A frame makes all of these entries. -/
theorem exists_entries (s : Stages f keys g events) (h : f.Staffed) {assets : Assets K}
    {arrivals : List Arrival} (hprepared : f.Prepared assets arrivals) :
    ∃ w v, Entries s w v := by
  obtain ⟨fired, hfired, hmoved⟩ := s.exists_gains_moved h
  obtain ⟨swept, hswept, hleft⟩ := s.exists_loses_moved h
  exact ⟨fired, swept, s.loses_struck h, s.gains_acted h, s.gains_joined h hprepared, hfired,
    hmoved, hswept, hleft⟩

section
variable {s : Stages f keys g events} {w v : World K}

/-- The volley of the player comes before the arrivals. -/
theorem Entries.nextBody_acted (e : s.Entries w v) :
    s.acted.world.nextBody = f.world.nextBody + f.player.volley keys := by
  rw [e.acted.nextBody_eq, e.struck.nextBody_eq]

/-- As many numbers are given out as bodies come. -/
theorem Entries.nextBody_eq (e : s.Entries w v) :
    g.world.nextBody = f.world.nextBody + f.player.volley keys +
      (spawns (Event.sort events)).length +
      (s.joined.enemies.flatMap Enemy.scheduledShots).length := by
  rw [e.left.nextBody_eq, e.swept.nextBody_eq, e.moved.nextBody_eq, e.fired.nextBody_eq,
    e.joined.nextBody_eq, e.nextBody_acted]

/-- The members of a group are the sum of the entries for that group. -/
theorem Entries.members_eq (e : s.Entries w v) (group : GroupId) :
    g.world.members group =
      struckOff enemyBullets group (s.moved.world.outside enemyBullets f.settings.viewport)
      (struckOff playerBullets group (s.moved.world.outside playerBullets f.settings.viewport)
      (struckOff enemyGroup group (exhausted (Event.sort events))
      (putDown enemyBullets group
        (f.world.nextBody + f.player.volley keys + (spawns (Event.sort events)).length)
        (s.joined.enemies.flatMap Enemy.scheduledShots).length
      (putDown enemyGroup group (f.world.nextBody + f.player.volley keys)
        (spawns (Event.sort events)).length
      (putDown playerBullets group f.world.nextBody (f.player.volley keys)
      (struckOff playerBullets group f.consumed (f.world.members group))))))) := by
  rw [e.left.members_eq, e.swept.members_eq, e.moved.members_eq, e.fired.members_eq,
    e.joined.members_eq, e.acted.members_eq, e.struck.members_eq, e.joined.nextBody_eq,
    e.nextBody_acted, e.struck.nextBody_eq]
  rfl

/-- A body is live at the end if it was live or is new, and no entry says that it went. -/
theorem Entries.mem_bodies_iff (e : s.Entries w v) (id : BodyId) : id ∈ g.world.bodies ↔
    (id ∈ f.world.bodies ∧ id ∉ f.consumed ∨ f.world.nextBody ≤ id ∧ id < g.world.nextBody) ∧
    id ∉ exhausted (Event.sort events) ∧
    id ∉ s.moved.world.outside playerBullets f.settings.viewport ∧
    id ∉ s.moved.world.outside enemyBullets f.settings.viewport := by
  rw [e.left.mem_bodies_iff, e.swept.mem_bodies_iff, e.moved.mem_bodies_iff,
    e.fired.mem_bodies_iff, e.joined.mem_bodies_iff, e.acted.mem_bodies_iff,
    e.struck.mem_bodies_iff, e.joined.nextBody_eq, e.nextBody_acted, e.struck.nextBody_eq,
    e.nextBody_eq]
  -- the three runs of new numbers follow each other
  have hnew : ∀ n a b c i : Nat, (n ≤ i ∧ i < n + a ∨ n + a ≤ i ∧ i < n + a + b ∨
      n + a + b ≤ i ∧ i < n + a + b + c) ↔ n ≤ i ∧ i < n + a + b + c := by
    omega
  simp only [List.mem_range'_1, or_assoc, and_assoc, hnew]

end

/-- A frame keeps its ledger: the entries of its stages add up to it. -/
theorem ledger (s : Stages f keys g events) (h : f.Staffed) {assets : Assets K}
    {arrivals : List Arrival} (hprepared : f.Prepared assets arrivals) : Ledger s := by
  obtain ⟨_, _, e⟩ := s.exists_entries h hprepared
  have harrived : (spawns (Event.sort events)).map (·.body) =
      List.range' (f.world.nextBody + f.player.volley keys)
        (spawns (Event.sort events)).length := by
    rw [s.spawns_eq hprepared, List.map_map, List.length_map, List.length_zipIdx, e.nextBody_acted]
    exact List.zipIdx_map_snd _ _
  have hconsumed := f.consumed_sublist
  refine ⟨s.perm_enemyHits h, ?_, fun id => (hconsumed.subset ·), e.nextBody_eq, harrived,
    e.mem_bodies_iff, e.members_eq playerGroup, e.members_eq playerBullets, ?_,
    e.members_eq enemyBullets, fun _ _ => World.mem_outside_iff, fun id hid => ?_⟩
  · exact ((World.Staffed.enrolled h).nodup_members playerBullets).sublist hconsumed
  · rw [harrived]
    exact e.members_eq enemyGroup
  · constructor
    · intro hgone
      by_contra hinside
      have hstays : id ∈ g.world.members enemyBullets := by
        rw [show g.world.members enemyBullets = _ from e.members_eq enemyBullets]
        refine List.mem_filter.2 ⟨List.mem_append_left _ hid, ?_⟩
        simpa using hinside
      exact hgone ((World.Staffed.enrolled (s.kept Fight.keptByPhases_staffed h)).mem_bodies hstays)
    · exact fun houtside hin => ((e.mem_bodies_iff id).1 hin).2.2.2 houtside

end Stages

/-! ## The frames of a run -/

namespace Fight

variable {f g : Fight K}

/-- What holds of a fight after some calls, and of its next frame. -/
structure LedgerKept (f : Fight K) (calls : List Call) (g : Fight K) : Prop where
  /-- All numbers that were given out so far are smaller than those to come. -/
  nextBody_le : ∀ {before after : List Call} {m : Fight K} {earlier : List TickReport},
    calls = before ++ after → f.run before = .ok (m, earlier) →
    m.world.nextBody ≤ g.world.nextBody ∧ ∀ id ∈ m.world.bodies, id < m.world.nextBody
  /-- A tick that simulates a frame keeps the ledger, in what it does and in what it tells. -/
  ledger : ∀ {raw : ActionSet} {g' : Fight K} {report : TickReport},
    g.tick raw = .ok (g', report) → g.ended = false → report.pauseRequested = false →
    ∃ events,
      ∃ s : Stages { g with keys := g.keys.update raw } (g.keys.update raw).active g' events,
        report.events = Event.sort events ∧ Ledger s

/-- In every fight that a run can come to, each frame takes away the bullets and enemies that it
should, gives new numbers to what comes, and leaves all else in place. -/
theorem run_ledger {assets : Assets K} {settings : Settings K}
    (hstart : start assets settings = .ok f) {calls : List Call} {reports : List TickReport}
    (hrun : f.run calls = .ok (g, reports)) : LedgerKept f calls g := by
  have hbegin := staffed_of_start hstart
  have hstaffed := keptByPhases_staffed.run hrun hbegin
  constructor
  · rintro before after m earlier rfl hbefore
    obtain ⟨m', earlier', later, hbefore', hafter, -⟩ := run_append_eq_ok hrun
    rw [hbefore] at hbefore'
    cases hbefore'
    refine ⟨(keptByPhases_nextBody m.world.nextBody).run hafter (Nat.le_refl _), fun id hid => ?_⟩
    have hm : m.Staffed := keptByPhases_staffed.run hbefore hbegin
    exact (World.Staffed.enrolled hm).lt_nextBody hid
  · intro raw g' report htick hended hpause
    obtain ⟨player, sizes, entries, arrivals, -, -, -, harrivals, rfl⟩ := start_eq_ok hstart
    have hprepared := (keptByPhases_prepared assets arrivals).run hrun (prepared_of_start harrivals)
    rcases tick_cases htick with ⟨hover, -, -⟩ | ⟨-, -, -, rfl⟩ | ⟨-, -, events, hsim, rfl⟩
    · rw [hended] at hover
      cases hover
    · cases hpause
    · obtain ⟨s⟩ := simulate_stages hsim
      exact ⟨events, s, rfl, s.ledger (keptByPhases_staffed.withKeys _ hstaffed)
        ((keptByPhases_prepared assets arrivals).withKeys _ hprepared)⟩

end Fight

namespace Duel

open Demo

/-- A routine for the enemy of the duel: the first one of its shots leaves the screen at once. -/
def blast : Json Binary64 :=
  record [("name", .str "blast"), ("duration", .int 9), ("hp", .int 2),
    ("shots", .arr [record [("type", .str "ShotArray"), ("times", ints [0]),
      ("shots", .arr [pellet 0 90000, pellet 0 9])]])]

/-- The assets of the duel with that routine. -/
def blastAssets : Assets Binary64 := assets.insert "stand" blast

/-- On the second frame of such a duel the bullet of the player and the enemy go, and so does the
fast bullet of the enemy. The other one stays, although it hits the player. -/
theorem run_ledger_hit : ∃ f g reports g' report, Fight.start blastAssets settings = .ok f ∧
    f.run [.tick (.ofList [.fire])] = .ok (g, reports) ∧ g.tick .empty = .ok (g', report) ∧
    (g.ended, report.pauseRequested, g.world.bodies.keys, g'.world.bodies.keys) =
      (false, false, [0, 1, 2, 3, 4], [0, 4]) ∧
    (g.world.members enemyBullets, g'.world.members enemyBullets) = ([3, 4], [4]) ∧
    Fight.LedgerKept f [.tick (.ofList [.fire])] g := by
  have hrun : ((Fight.start blastAssets settings).toOption.bind fun f =>
      (f.run [.tick (.ofList [.fire])]).toOption.bind fun r =>
        (r.1.tick .empty).toOption.map fun t =>
          ((r.1.ended, t.2.pauseRequested, r.1.world.bodies.keys, t.1.world.bodies.keys),
            r.1.world.members enemyBullets, t.1.world.members enemyBullets)) =
      some ((false, false, [0, 1, 2, 3, 4], [0, 4]), [3, 4], [4]) := by
    decide +kernel
  obtain ⟨f, hstart, hrun⟩ := toOption_bind_eq_some_iff.1 hrun
  obtain ⟨⟨g, reports⟩, hrun, htick⟩ := toOption_bind_eq_some_iff.1 hrun
  obtain ⟨⟨g', report⟩, htick, hend⟩ := toOption_map_eq_some_iff.1 htick
  obtain ⟨hbodies, hmembers⟩ := Prod.mk.inj hend
  exact ⟨f, g, reports, g', report, hstart, hrun, htick, hbodies, hmembers,
    Fight.run_ledger hstart hrun⟩

end Duel

end Barrage
