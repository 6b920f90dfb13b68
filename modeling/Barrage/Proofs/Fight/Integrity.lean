import Barrage.Proofs.Fight.Run
import Barrage.Proofs.World.Roster

/-!
# Every body has its place

The world of a fight holds the player, the enemies and their bullets, each in a group of its own,
and nothing else (`World.Staffed`). All that happens to a world in a frame keeps this: bodies are
changed, bullets are fired and swept away, enemies come and go.

So in every fight that a run can come to, handles and bodies fit (`Fight.Intact`): the player's body
and the bodies of the enemies are live, the groups are what the fight says they are, and every live
body is in one of them (`Fight.run_intact`).
-/

namespace Barrage

variable {K : Type}

namespace World

/-- A world with the four groups of a fight, in which the player and the enemies are the members of
their groups, and only bullets are tagged. -/
structure Staffed (w : World K) (player : BodyId) (enemies : List BodyId) : Prop where
  enrolled : w.Enrolled
  length_groups : w.groups.length = 4
  members_player : w.members playerGroup = [player]
  members_enemies : w.members enemyGroup = enemies
  mem_of_damage : ∀ {id}, id ∈ w.damage → id ∈ w.members playerBullets ∨ id ∈ w.members enemyBullets

variable {w : World K} {player : BodyId} {enemies : List BodyId}

/-- The player is live, and so are the enemies. -/
theorem Staffed.player_mem_bodies (h : w.Staffed player enemies) : player ∈ w.bodies :=
  h.enrolled.mem_bodies (h.members_player ▸ List.mem_singleton_self player)

/-- The body of an enemy is live. -/
theorem Staffed.enemy_mem_bodies (h : w.Staffed player enemies) {id : BodyId} (hid : id ∈ enemies) :
    id ∈ w.bodies := h.enrolled.mem_bodies (h.members_enemies ▸ hid)

/-- A member of another group is not the player. -/
theorem Staffed.ne_player (h : w.Staffed player enemies) {group : GroupId} {id : BodyId}
    (hid : id ∈ w.members group) (hgroup : group ≠ playerGroup) : id ≠ player := by
  rintro rfl
  have hplayer : id ∈ w.members playerGroup := by
    rw [h.members_player]
    exact List.mem_singleton_self _
  exact hgroup (h.enrolled.group_unique hid hplayer)

/-- A member of another group is no enemy. -/
theorem Staffed.not_mem_enemies (h : w.Staffed player enemies) {group : GroupId} {id : BodyId}
    (hid : id ∈ w.members group) (hgroup : group ≠ enemyGroup) : id ∉ enemies := by
  intro henemy
  rw [← h.members_enemies] at henemy
  exact hgroup (h.enrolled.group_unique hid henemy)

/-- Bodies may be changed, as long as none of them comes or goes. -/
theorem Staffed.of_bodies (h : w.Staffed player enemies)
    {bodies : Std.ExtTreeMap BodyId (Body K)} (hbodies : ∀ {id}, id ∈ bodies ↔ id ∈ w.bodies) :
    ({ w with bodies } : World K).Staffed player enemies :=
  ⟨h.enrolled.of_bodies hbodies, h.length_groups, h.members_player, h.members_enemies,
    h.mem_of_damage⟩

/-- A change of a body keeps a world staffed. -/
theorem Staffed.modify (h : w.Staffed player enemies) (id : BodyId) (change : Body K → Body K) :
    (w.modify id change).Staffed player enemies := h.of_bodies (w.mem_bodies_modify)

/-- Any body but the player's may be destroyed; then it is no enemy any more. -/
theorem Staffed.destroy (h : w.Staffed player enemies) {id : BodyId} (hid : id ≠ player) :
    (w.destroy id).Staffed player (enemies.filter (· != id)) := by
  have hmembers := h.enrolled.members_destroy id
  refine ⟨h.enrolled.destroy id, ?_, ?_, ?_, fun {other} hother => ?_⟩
  · rw [World.destroy]
    split
    · rw [List.length_map, h.length_groups]
    · exact h.length_groups
  · rw [hmembers, h.members_player]
    simp [Ne.symm hid]
  · rw [hmembers, h.members_enemies]
  · have htagged := w.mem_damage_destroy hother
    have hne : other ≠ id := by
      rintro rfl
      have hlive : other ∈ w.bodies :=
        (h.mem_of_damage htagged).elim h.enrolled.mem_bodies h.enrolled.mem_bodies
      exact w.not_mem_damage_destroy hlive hother
    rw [hmembers, hmembers, List.mem_filter, List.mem_filter, bne_iff_ne]
    exact (h.mem_of_damage htagged).imp (⟨·, hne⟩) (⟨·, hne⟩)

/-- Several bodies other than the player may be destroyed, and the enemies among them go. -/
theorem Staffed.destroyAll (h : w.Staffed player enemies) {ids : List BodyId}
    (hids : ∀ id ∈ ids, id ≠ player) :
    (ids.foldl World.destroy w).Staffed player (enemies.filter fun id => !ids.contains id) := by
  induction ids generalizing w enemies with
  | nil =>
    have hall : enemies.filter (fun id => !([] : List BodyId).contains id) = enemies :=
      List.filter_eq_self.2 fun _ _ => rfl
    rw [hall]
    exact h
  | cons id rest ih =>
    have hrest := ih (h.destroy (hids id List.mem_cons_self)) fun other ho =>
      hids other (List.mem_cons_of_mem _ ho)
    rw [List.filter_filter] at hrest
    have hsame : (fun other => (!rest.contains other) && other != id) =
        fun other => !(id :: rest).contains other := by
      funext other
      rw [List.contains_cons, Bool.not_or, Bool.and_comm]
      rfl
    rw [hsame] at hrest
    exact hrest

/-- Several bodies that are neither the player nor enemies may be destroyed. -/
theorem Staffed.destroyBullets (h : w.Staffed player enemies) {ids : List BodyId}
    (hids : ∀ id ∈ ids, id ≠ player ∧ id ∉ enemies) :
    (ids.foldl World.destroy w).Staffed player enemies := by
  have hdestroyed := h.destroyAll fun id hid => (hids id hid).1
  rwa [List.filter_eq_self.2 fun id hid => ?_] at hdestroyed
  simpa using fun hin => (hids id hin).2 hid

/-- A new body that joins the enemies is one more of them; one that joins the bullets of a side may
be tagged. -/
theorem Staffed.join (h : w.Staffed player enemies) {v : World K} (hv : w.Grown v) {group : GroupId}
    (hgroup : group ∈ [playerBullets, enemyGroup, enemyBullets])
    (hdamage : ∀ {id}, id ∈ v.damage → id ∈ w.damage ∨ id = w.nextBody ∧ group ≠ enemyGroup) :
    (v.join group w.nextBody).Staffed player
      (if group = enemyGroup then enemies ++ [w.nextBody] else enemies) := by
  have hne : group ≠ playerGroup := by
    rintro rfl
    revert hgroup
    decide
  have hlt : group < w.groups.length := by
    rw [h.length_groups]
    rcases List.mem_cons.1 hgroup with rfl | hgroup
    · decide
    · rcases List.mem_pair.1 hgroup with rfl | rfl <;> decide
  have hmembers := h.enrolled.members_join hv hlt
  have hjoin := h.enrolled.join_grown_eq hv (List.getElem?_eq_getElem hlt)
  refine ⟨h.enrolled.join hv hlt, ?_, ?_, ?_, fun {id} hid => ?_⟩
  · rw [hjoin, List.length_set, h.length_groups]
  · rw [hmembers, if_neg hne, h.members_player]
  · rw [hmembers, h.members_enemies]
  · rw [hjoin] at hid
    have hmem : ∀ {other}, id ∈ w.members other → id ∈ (v.join group w.nextBody).members other := by
      intro other hid
      rw [hmembers]
      split
      · exact List.mem_append_left _ hid
      · exact hid
    rcases hdamage hid with hold | ⟨rfl, hbullet⟩
    · exact (h.mem_of_damage hold).imp hmem hmem
    · have hnew : w.nextBody ∈ (v.join group w.nextBody).members group := by
        rw [hmembers, if_pos rfl]
        exact List.mem_append_right _ (List.mem_singleton_self _)
      rcases List.mem_cons.1 hgroup with rfl | hgroup
      · exact .inl hnew
      · rcases List.mem_pair.1 hgroup with rfl | rfl
        · exact absurd rfl hbullet
        · exact .inr hnew

section
variable [Scalar K]

/-- A shot that is fired is a bullet of its side. -/
theorem Staffed.spawnShot (h : w.Staffed player enemies) {shot : Shot K} {source : BodyId}
    {group : GroupId} (hgroup : group = playerBullets ∨ group = enemyBullets) {size : Size K}
    {r : BodyId × World K} (hr : w.spawnShot shot source group size = some r) :
    r.2.Staffed player enemies := by
  obtain ⟨b, -, rfl⟩ := Option.map_eq_some_iff.1 hr
  have hne : group ≠ enemyGroup := by rcases hgroup with rfl | rfl <;> decide
  have hin : group ∈ [playerBullets, enemyGroup, enemyBullets] := by
    rcases hgroup with rfl | rfl <;> decide
  have hcreate := w.grown_create shot.image (shot.spawnPoint b.position b.half) size
  refine Staffed.modify ?_ _ _
  cases shot.damage with
  | none =>
    have hjoined := h.join hcreate hin .inl
    rwa [if_neg hne] at hjoined
  | some damage =>
    have hjoined := h.join (hcreate.tagDamage w.nextBody damage) hin fun hid =>
      (World.mem_damage_tagDamage _ hid).elim (.inr ⟨·, hne⟩) .inl
    rwa [if_neg hne] at hjoined

/-- The shots of a volley are bullets of its side. -/
theorem Staffed.spawnShots (h : w.Staffed player enemies) (shots : List (Shot K)) (source : BodyId)
    {group : GroupId} (hgroup : group = playerBullets ∨ group = enemyBullets)
    (sizeOf : String → Size K) :
    (w.spawnShots shots source group sizeOf).2.Staffed player enemies := by
  induction shots generalizing w with
  | nil => exact h
  | cons shot rest ih =>
    rw [World.spawnShots]
    split
    · exact ih h
    · next hshot => exact ih (h.spawnShot hgroup hshot)

/-- A step of time keeps a world staffed. -/
theorem Staffed.step (h : w.Staffed player enemies) (dt : K) : (w.step dt).Staffed player enemies :=
  h.of_bodies w.mem_bodies_step

/-- A sweep takes bullets away. -/
theorem Staffed.sweep (h : w.Staffed player enemies) {group : GroupId}
    (hgroup : group = playerBullets ∨ group = enemyBullets) (viewport : Size K) :
    (w.sweep group viewport).Staffed player enemies := by
  refine h.destroyBullets ?_
  intro id hid
  have hmember := (List.mem_filter.1 hid).1
  refine ⟨h.ne_player hmember ?_, h.not_mem_enemies hmember ?_⟩
  · rcases hgroup with rfl | rfl <;> decide
  · rcases hgroup with rfl | rfl <;> decide

end

end World

/-! ## The player and the enemies of a frame -/

section
variable [Scalar K] {w : World K} {player : BodyId} {enemies : List BodyId}

/-- The player keeps its body, and what it does to the world is to fire. -/
theorem Player.update_staffed (h : w.Staffed player enemies) (p : Player K) (keys : ActionSet)
    (sizeOf : String → Size K) :
    (p.update keys w playerBullets sizeOf).2.1.body = p.body ∧
      (p.update keys w playerBullets sizeOf).2.2.Staffed player enemies := by
  have hw : (w.setVelocity p.body (p.velocity keys)).Staffed player enemies := h.modify _ _
  rw [Player.update, Player.fire]
  split
  · exact ⟨rfl, hw.spawnShots _ _ (.inl rfl) _⟩
  · exact ⟨rfl, hw⟩

/-- A special at most moves a body. -/
theorem useSpecial_staffed (h : w.Staffed player enemies) (keys : ActionSet) (status : Status)
    (body : BodyId) (playfield : Limits K) (distance : K) :
    (useSpecial keys status w body playfield distance).world.Staffed player enemies := by
  rw [useSpecial]
  split
  · dsimp only
    split
    · exact h.modify _ _
    · exact h
  · exact h

/-- An enemy that is put into the world is one more enemy. -/
theorem Enemy.spawn_staffed (h : w.Staffed player enemies) {sheet : EnemySheet} {assets : Assets K}
    {settings : Settings K} {size : Size K} {e : Enemy K} {w' : World K}
    (hspawn : Enemy.spawn sheet assets w enemyGroup settings size = .ok (e, w')) :
    w'.Staffed player (enemies ++ [e.body]) := by
  obtain ⟨scripts, -, hspawn⟩ := map_eq_ok_iff.1 hspawn
  cases hspawn
  have hcreate := w.grown_create sheet.image (settings.enemyPlace.onScreen settings.viewport.width
    settings.viewport.height) size
  have hgroup : enemyGroup ∈ [playerBullets, enemyGroup, enemyBullets] := by decide
  have hjoined := h.join hcreate hgroup .inl
  rwa [if_pos rfl] at hjoined

/-- An enemy that takes up its movement keeps its body, and no body comes or goes. -/
theorem Enemy.move_staffed (h : w.Staffed player enemies) (e : Enemy K) (rng : Prng) (dt : K) :
    (e.move w rng dt).1.body = e.body ∧ (e.move w rng dt).2.1.Staffed player enemies := by
  rw [Enemy.move]
  dsimp only
  rw [Enemy.applyMovement]
  split
  · exact ⟨rfl, h⟩
  · split
    · exact ⟨rfl, h.modify _ _⟩
    · exact ⟨rfl, h.modify _ _⟩

/-- An enemy keeps its body, and what it does to the world is to fire. -/
theorem Enemy.update_staffed (h : w.Staffed player enemies) (e : Enemy K) (rng : Prng) (dt : K)
    (sizeOf : String → Size K) :
    (e.update w rng enemyBullets dt sizeOf).enemy.body = e.body ∧
      (e.update w rng enemyBullets dt sizeOf).world.Staffed player enemies := by
  rw [Enemy.update]
  split
  · exact ⟨rfl, h⟩
  · next e' htransition =>
    have hbody : e'.body = e.body := by
      rw [Enemy.transition?] at htransition
      split at htransition
      · cases htransition; rfl
      · split at htransition
        · cases htransition; rfl
        · cases htransition
    obtain ⟨hmove, hstaffed⟩ := Enemy.move_staffed h e' rng dt
    refine ⟨hmove.trans hbody, ?_⟩
    dsimp only
    rw [Enemy.fire]
    split
    · exact hstaffed
    · exact hstaffed.spawnShots _ _ (.inr rfl) _

end

namespace Fight

/-- The bodies of the enemies in a fight, in order. -/
def enemyBodies (f : Fight K) : List BodyId := f.enemies.map (·.body)

/-- The world of a fight holds the player and the enemies of the fight. -/
def Staffed (f : Fight K) : Prop := f.world.Staffed f.player.body f.enemyBodies

section
variable {f g : Fight K}

/-- What timers deliver keeps a fight staffed. -/
theorem Staffed.applyTimers (h : f.Staffed) (actions : List TimerAction) :
    (f.applyTimers actions).1.Staffed := by
  induction actions generalizing f with
  | nil => exact h
  | cons action rest ih =>
    have hstep : (f.applyTimer action).1.Staffed := by cases action <;> exact h
    exact ih hstep

/-- A hit leaves the player its body. -/
theorem body_hitPlayer {player player' : Player K} {status status' : Status}
    {timers timers' : TimerQueue TimerAction}
    (h : hitPlayer player status timers = .ok (some (player', status', timers'))) :
    player'.body = player.body := by
  rw [hitPlayer] at h
  split at h
  · cases h
  · obtain ⟨⟨p, t⟩, hwindow, h⟩ := map_eq_ok_iff.1 h
    cases h
    obtain ⟨⟨id, t⟩, -, h⟩ := map_eq_ok_iff.1 hwindow
    cases h
    rfl

/-- Hits of the player keep a fight staffed. -/
theorem Staffed.takeHits (h : f.Staffed) {count : Nat} {events : List Event}
    (hhits : f.takeHits count = .ok (g, events)) : g.Staffed := by
  induction count generalizing f events with
  | zero =>
    cases hhits
    exact h
  | succ count ih =>
    obtain ⟨outcome, hhit, hhits⟩ := bind_eq_ok_iff.1 hhits
    cases outcome with
    | none => exact ih h hhits
    | some hit =>
      obtain ⟨player, status, timers⟩ := hit
      obtain ⟨⟨f', later⟩, hrest, hhits⟩ := bind_eq_ok_iff.1 hhits
      cases hhits
      refine ih ?_ hrest
      rw [Staffed, body_hitPlayer hhit]
      exact h

/-- A bullet that meets an enemy is destroyed, and both sides stay who they are. -/
theorem Staffed.hitEnemyBy (h : f.Staffed) {bullet : BodyId} (enemy : BodyId)
    (hbullet : bullet ≠ f.player.body ∧ bullet ∉ f.enemyBodies) :
    (f.hitEnemyBy bullet enemy).1.Staffed ∧
      (f.hitEnemyBy bullet enemy).1.player = f.player ∧
      (f.hitEnemyBy bullet enemy).1.enemyBodies = f.enemyBodies := by
  obtain ⟨-, hnone⟩ | ⟨-, i, e, amount, he, -, -, hhit⟩ := f.hitEnemyBy_cases bullet enemy
  · rw [hnone]
    exact ⟨h, rfl, rfl⟩
  · have hbodies : (f.enemies.set i (e.damage amount)).map (·.body) = f.enemyBodies := by
      have hi : (f.enemies.map (·.body))[i]? = some e.body := by
        rw [List.getElem?_map, he]
        rfl
      obtain ⟨hlt, hget⟩ := List.getElem?_eq_some_iff.1 hi
      rw [List.map_set, enemyBodies]
      exact hget ▸ List.set_getElem_self hlt
    rw [hhit]
    refine ⟨?_, rfl, hbodies⟩
    rw [Staffed, enemyBodies, hbodies]
    have hids : ∀ id ∈ [bullet], id ≠ f.player.body ∧ id ∉ f.enemyBodies := by
      simpa using hbullet
    exact World.Staffed.destroyBullets h hids

/-- Hits of enemies keep a fight staffed, since they destroy neither the player nor an enemy. -/
theorem Staffed.hitEnemies (h : f.Staffed) {pairs : List (BodyId × BodyId)}
    (hpairs : ∀ pair ∈ pairs, pair.1 ≠ f.player.body ∧ pair.1 ∉ f.enemyBodies) :
    (f.hitEnemies pairs).1.Staffed := by
  induction pairs generalizing f with
  | nil => exact h
  | cons pair rest ih =>
    obtain ⟨hstep, hplayer, hbodies⟩ := h.hitEnemyBy pair.2 (hpairs pair List.mem_cons_self)
    have hrest : ∀ other ∈ rest, other.1 ≠ (f.hitEnemyBy pair.1 pair.2).1.player.body ∧
        other.1 ∉ (f.hitEnemyBy pair.1 pair.2).1.enemyBodies := by
      intro other ho
      rw [hplayer, hbodies]
      exact hpairs other (List.mem_cons_of_mem _ ho)
    exact ih hstep hrest

variable [Scalar K]

/-- Bullets that meet enemies are bullets of the player. -/
theorem Staffed.hitEnemyPhase (h : f.Staffed) : f.hitEnemyPhase.1.Staffed := by
  refine h.hitEnemies ?_
  intro pair hpair
  rw [World.overlapPairs, List.mem_flatMap] at hpair
  obtain ⟨bullet, hbullet, hpair⟩ := hpair
  obtain ⟨enemy, -, rfl⟩ := List.mem_map.1 hpair
  exact ⟨World.Staffed.ne_player h hbullet (by decide),
    World.Staffed.not_mem_enemies h hbullet (by decide)⟩

/-- What the player does keeps a fight staffed. -/
theorem Staffed.playerPhase (h : f.Staffed) (keys : ActionSet) :
    (f.playerPhase keys).1.Staffed := by
  obtain ⟨hbody, hupdate⟩ := Player.update_staffed h f.player keys f.sizeOf
  rw [Fight.playerPhase, Staffed, hbody]
  exact useSpecial_staffed hupdate ..

/-- An enemy that comes into the fight is the last one in its list and in its group. -/
theorem Staffed.bringIn (h : f.Staffed) (a : Arrival) : (f.bringIn a).1.Staffed := by
  rw [Fight.bringIn]
  split
  · next enemy world hspawn =>
    rw [Staffed, enemyBodies, List.map_append]
    exact Enemy.spawn_staffed h hspawn
  · exact h

/-- The arrivals keep a fight staffed. -/
theorem Staffed.bringInAll (h : f.Staffed) (arrivals : List Arrival) :
    (f.bringInAll arrivals).1.Staffed := by
  induction arrivals generalizing f with
  | nil => exact h
  | cons a rest ih => exact ih (h.bringIn a)

/-- The updates of enemies keep their bodies, and only enemies can be done. -/
theorem updateEnemies_staffed {w : World K} {player : BodyId} {bodies : List BodyId}
    (h : w.Staffed player bodies) (rng : Prng) (enemies : List (Enemy K)) :
    (f.updateEnemies w rng enemies).world.Staffed player bodies ∧
      (f.updateEnemies w rng enemies).enemies.map (·.body) = enemies.map (·.body) ∧
      ∀ id ∈ (f.updateEnemies w rng enemies).finished, id ∈ enemies.map (·.body) := by
  induction enemies generalizing w rng with
  | nil => exact ⟨h, rfl, fun _ hid => hid⟩
  | cons e rest ih =>
    obtain ⟨hbody, hupdate⟩ := Enemy.update_staffed h e rng f.settings.dt f.sizeOf
    obtain ⟨hworld, hbodies, hfinished⟩ := ih hupdate
      (e.update w rng enemyBullets f.settings.dt f.sizeOf).rng
    rw [updateEnemies]
    split
    · refine ⟨hworld, ?_, ?_⟩
      · rw [List.map_cons, List.map_cons, hbody, hbodies]
      · intro id hid
        rcases List.mem_cons.1 hid with rfl | hid
        · exact List.mem_cons_self
        · exact List.mem_cons_of_mem _ (hfinished id hid)
    · refine ⟨hworld, ?_, fun id hid => List.mem_cons_of_mem _ (hfinished id hid)⟩
      rw [List.map_cons, List.map_cons, hbody, hbodies]

/-- Enemies that are done go out of their list and out of their group. -/
theorem Staffed.enemyPhase (h : f.Staffed) : f.enemyPhase.1.Staffed := by
  obtain ⟨hworld, hbodies, hfinished⟩ := updateEnemies_staffed (f := f) h f.rng f.enemies
  have hids : ∀ id ∈ (f.updateEnemies f.world f.rng f.enemies).finished, id ≠ f.player.body := by
    intro id hid
    have hmember : id ∈ f.world.members enemyGroup := by
      rw [World.Staffed.members_enemies h]
      exact hfinished id hid
    exact World.Staffed.ne_player h hmember (by decide)
  have hdestroyed := hworld.destroyAll hids
  rw [enemyBodies, ← hbodies, List.filter_map] at hdestroyed
  exact hdestroyed

/-- What is swept away are bullets. -/
theorem Staffed.sweepPhase (h : f.Staffed) : f.sweepPhase.Staffed :=
  (World.Staffed.sweep h (.inl rfl) f.settings.viewport).sweep (.inr rfl) f.settings.viewport

/-- Every phase of a frame keeps everybody in place. -/
theorem keptByPhases_staffed : KeptByPhases (Staffed (K := K)) where
  withKeys _ h := h
  runTimers {f} h := Staffed.applyTimers (f := { f with timers := f.timers.advance.2 }) h _
  moveBodies h := World.Staffed.step h _
  hitPlayerPhase hhits h := h.takeHits hhits
  hitEnemyPhase h := h.hitEnemyPhase
  playerPhase keys h := h.playerPhase keys
  arrivalPhase h := h.bringInAll _
  enemyPhase h := h.enemyPhase
  sweepPhase h := h.sweepPhase
  countFrame {f} h := by
    rw [countFrame]
    split <;> exact h

/-- Nobody is in the world that a fight is set up in. -/
theorem members_emptyWorld (bounds : Rect K) (group : GroupId) :
    (emptyWorld bounds).members group = [] := by
  rw [World.members, emptyWorld, List.getElem?_replicate]
  split <;> rfl

/-- The world that a fight starts from has no body and no member. -/
theorem enrolled_emptyWorld (bounds : Rect K) : (emptyWorld bounds).Enrolled := by
  have hroster : (emptyWorld bounds).roster = [] := by
    refine List.eq_nil_iff_forall_not_mem.2 ?_
    intro id hid
    obtain ⟨group, hid⟩ := World.mem_roster_iff.1 hid
    rw [members_emptyWorld] at hid
    cases hid
  have hnone : ∀ {id}, id ∉ (emptyWorld bounds).bodies := Std.ExtTreeMap.not_mem_empty
  refine ⟨hroster ▸ List.nodup_nil, fun {id} => ?_, fun hid => absurd hid hnone⟩
  rw [hroster]
  exact ⟨fun hid => absurd hid hnone, nofun⟩

/-- The world that a fight starts from has a group for the player. -/
theorem playerGroup_lt_length (bounds : Rect K) :
    playerGroup < (emptyWorld bounds).groups.length := by
  rw [emptyWorld, List.length_replicate]
  decide

/-- The body of the player is the first one. -/
theorem grown_player (bounds : Rect K) (settings : Settings K) (size : Size K) :
    (emptyWorld bounds).Grown (((emptyWorld bounds).create playerSprite
      (settings.playerPlace.onScreen settings.viewport.width settings.viewport.height)
        size).2.modify (emptyWorld bounds).nextBody fun b => { b with bounded := true }) :=
  ((emptyWorld bounds).grown_create _ _ _).modify _ _

/-- The player is the first to come. -/
theorem staffed_spawn (sheet : PlayerSheet K) (bounds : Rect K) (settings : Settings K)
    (size : Size K) :
    (Player.spawn sheet (emptyWorld bounds) playerGroup settings size).2.Staffed
      (Player.spawn sheet (emptyWorld bounds) playerGroup settings size).1.body [] := by
  have hw := enrolled_emptyWorld bounds
  have hv := grown_player bounds settings size
  have hlt := playerGroup_lt_length bounds
  have hmembers := hw.members_join hv hlt
  have hjoin := hw.join_grown_eq hv (List.getElem?_eq_getElem hlt)
  rw [Player.spawn]
  dsimp only
  refine ⟨hw.join hv hlt, ?_, ?_, ?_, fun {id} hid => ?_⟩
  · refine (congrArg (·.groups.length) hjoin).trans ?_
    rw [List.length_set, emptyWorld, List.length_replicate]
  · exact (hmembers playerGroup).trans (by rw [if_pos rfl, members_emptyWorld]; rfl)
  · exact (hmembers enemyGroup).trans (by rw [if_neg (by decide), members_emptyWorld])
  · have hdamage := congrArg (·.damage) hjoin
    exact absurd (hdamage ▸ hid) Std.ExtTreeMap.not_mem_empty

/-- A fight is set up with nobody but the player in it. -/
theorem staffed_of_start {assets : Assets K} {settings : Settings K}
    (h : start assets settings = .ok f) : f.Staffed := by
  obtain ⟨level, -, rfl⟩ := map_eq_ok_iff.1 h
  exact staffed_spawn ..

end

/-! ## Handles and bodies -/

/-- The groups of a fight. -/
def groupIds : List GroupId := [playerGroup, playerBullets, enemyGroup, enemyBullets]

/-- Handles and bodies of a fight fit. -/
structure Intact (f : Fight K) : Prop where
  /-- The player's body is live and alone in its group. -/
  player_mem_bodies : f.player.body ∈ f.world.bodies
  members_player : f.world.members playerGroup = [f.player.body]
  /-- The enemies are the members of their group, in order, live and without repetition. -/
  members_enemies : f.world.members enemyGroup = f.enemyBodies
  nodup_enemyBodies : f.enemyBodies.Nodup
  enemies_mem_bodies : ∀ id ∈ f.enemyBodies, id ∈ f.world.bodies
  /-- No two groups have a member in common. -/
  disjoint_members : groupIds.Pairwise fun g h => (f.world.members g).Disjoint (f.world.members h)
  /-- The live bodies are the members of the four groups. -/
  mem_bodies_iff : ∀ id, id ∈ f.world.bodies ↔ ∃ g ∈ groupIds, id ∈ f.world.members g
  size_bodies : f.world.bodies.size =
    1 + f.enemies.length + f.bulletCounts.1 + f.bulletCounts.2
  /-- Only bullets are tagged. -/
  mem_of_damage : ∀ id ∈ f.world.damage,
    id ∈ f.world.members playerBullets ∨ id ∈ f.world.members enemyBullets

section
variable {f g : Fight K}

/-- The roster of a fight is the player, its bullets, the enemies, and theirs. -/
theorem roster_eq {w : World K} (h : w.groups.length = 4) :
    w.roster = groupIds.flatMap w.members := by
  obtain ⟨g₀, g₁, g₂, g₃, hgroups⟩ : ∃ g₀ g₁ g₂ g₃, w.groups = [g₀, g₁, g₂, g₃] := by
    match hgroups : w.groups, h with
    | [g₀, g₁, g₂, g₃], _ => exact ⟨g₀, g₁, g₂, g₃, rfl⟩
  have hmembers : ∀ g, w.members g = (([g₀, g₁, g₂, g₃][g]?).map Group.members).getD [] := by
    intro g
    rw [World.members, hgroups]
  rw [World.roster, hgroups, groupIds]
  simp only [List.flatMap_cons, List.flatMap_nil, hmembers]
  rfl

/-- A staffed fight is intact. -/
theorem Staffed.intact (h : f.Staffed) : f.Intact := by
  have henemies : f.world.members enemyGroup = f.enemyBodies := World.Staffed.members_enemies h
  have hw := World.Staffed.enrolled h
  refine ⟨World.Staffed.player_mem_bodies h, World.Staffed.members_player h, henemies,
    henemies ▸ hw.nodup_members enemyGroup, fun id => World.Staffed.enemy_mem_bodies h, ?_, ?_, ?_,
    ?_⟩
  · have hne : groupIds.Pairwise (· ≠ ·) := by decide
    exact hne.imp fun hne id hg hh => hne (hw.group_unique hg hh)
  · intro id
    rw [hw.mem_bodies_iff, roster_eq (World.Staffed.length_groups h), List.mem_flatMap]
  · have hlength : f.enemyBodies.length = f.enemies.length := List.length_map ..
    rw [hw.size_bodies, roster_eq (World.Staffed.length_groups h), bulletCounts]
    simp only [groupIds, List.flatMap_cons, List.flatMap_nil, List.length_append,
      World.Staffed.members_player h, henemies, hlength, List.length_singleton, List.length_nil]
    omega
  · intro id hid
    exact World.Staffed.mem_of_damage h hid

/-- In every fight that a run can come to, handles and bodies fit. -/
theorem run_intact [Scalar K] {assets : Assets K} {settings : Settings K}
    (hstart : start assets settings = .ok f) {calls : List Call} {reports : List TickReport}
    (hrun : f.run calls = .ok (g, reports)) : g.Intact :=
  (keptByPhases_staffed.run hrun (staffed_of_start hstart)).intact

end

end Fight

/-- After the first frame of the duel there are five bodies: the player and the enemy, the bullet of
the player and the two of the enemy, all three of them tagged. -/
theorem Duel.run_intact_fire : ∃ f g reports, Fight.start assets settings = .ok f ∧
    f.run [.tick (.ofList [.fire]), .tick (.ofList [.fire, .pause]), .resume] = .ok (g, reports) ∧
    (g.world.bodies.keys, g.enemyBodies, g.bulletCounts, g.world.damage.keys) =
      ([0, 1, 2, 3, 4], [2], (1, 2), [1, 3, 4]) ∧
    g.Intact := by
  have hrun : ((Fight.start assets settings).toOption.bind fun f =>
      (f.run [.tick (.ofList [.fire]), .tick (.ofList [.fire, .pause]), .resume]).toOption.map
        fun r => (r.1.world.bodies.keys, r.1.enemyBodies, r.1.bulletCounts,
          r.1.world.damage.keys)) = some ([0, 1, 2, 3, 4], [2], (1, 2), [1, 3, 4]) := by
    decide +kernel
  obtain ⟨f, hstart, hrun⟩ := toOption_bind_eq_some_iff.1 hrun
  obtain ⟨⟨g, reports⟩, hrun, hbodies⟩ := toOption_map_eq_some_iff.1 hrun
  exact ⟨f, g, reports, hstart, hrun, hbodies, Fight.run_intact hstart hrun⟩

end Barrage
