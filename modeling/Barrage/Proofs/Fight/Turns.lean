import Mathlib.Data.List.Forall2
import Mathlib.Data.List.Nodup
import Barrage.Proofs.Enemy.Turn
import Barrage.Proofs.Fight.Stages

/-!
# The enemies of a frame

What a frame makes of the enemies is told enemy by enemy. Bullets that hit them leave them their
roles (`Fight.roles_hitEnemies`). Then each of them has its turn (`Fight.updateEnemies_turns`):
those without a routine leave, and of the others those that have moved to their next routine tell
so. Those that stay stay in their order (`Fight.enemyPhase_turns`).
-/

namespace Barrage

variable {K : Type}

/-- What the next update of an enemy tells: the routine to which it moves, if it does. -/
def Enemy.changeEvents (frame : Nat) (e : Enemy K) : List Event :=
  if e.goesOn then (e.sequence.names[e.sequence.cursor + 1]?.map fun name =>
    Event.on frame (.routineChanged e.body name)).toList
  else []

/-- An enemy tells nothing of its turn but that it changed its routine. -/
theorem Enemy.eq_of_mem_changeEvents {frame : Nat} {e : Enemy K} {event : Event}
    (h : event ∈ e.changeEvents frame) :
    ∃ name, event = .on frame (.routineChanged e.body name) := by
  rw [changeEvents] at h
  split at h
  · obtain ⟨name, -, rfl⟩ := Option.map_eq_some_iff.1 (Option.mem_toList.1 h)
    exact ⟨name, rfl⟩
  · cases h

/-- Enemies with bodies of their own can be told apart by these. -/
theorem Enemy.body_mem_filter_iff {enemies : List (Enemy K)}
    (hnodup : (enemies.map (·.body)).Nodup) {e : Enemy K} (he : e ∈ enemies) (p : Enemy K → Bool) :
    e.body ∈ (enemies.filter p).map (·.body) ↔ p e = true := by
  constructor
  · intro hbody
    obtain ⟨other, hother, hbody⟩ := List.mem_map.1 hbody
    obtain ⟨hother, hp⟩ := List.mem_filter.1 hother
    obtain rfl := List.inj_on_of_nodup_map hnodup hother he hbody
    exact hp
  · exact fun hp => List.mem_map.2 ⟨e, List.mem_filter.2 ⟨he, hp⟩, rfl⟩

namespace Fight

/-- The roles of the enemies in a fight, in the order of their arrival. -/
def roles (f : Fight K) : List Role := f.enemies.map Enemy.role

/-- What a turn tells follows from the enemy before it. -/
theorem changeEvents_turn {e e' : Enemy K} (h : e.Turn e') (hdone : e.isDone = false)
    (frame : Nat) : changeEvents frame e e' = e.changeEvents frame := by
  obtain ⟨r, hr⟩ := h.exists_current hdone
  have hcursor := h.cursor_eq
  have hname : e.sequence.names[e'.sequence.cursor]? = some r.name := by
    rw [← h.names_eq, Sequence.names, List.getElem?_map]
    exact congrArg (Option.map _) hr
  rw [changeEvents, Enemy.changeEvents, hr, h.body_eq]
  cases hgoes : e.goesOn with
  | false =>
    rw [hgoes, if_neg Bool.false_ne_true] at hcursor
    rw [hcursor, if_pos (beq_self_eq_true _), if_neg Bool.false_ne_true]
  | true =>
    rw [hgoes, if_pos rfl] at hcursor
    have hne : (e'.sequence.cursor == e.sequence.cursor) = false := by
      rw [hcursor, beq_eq_false_iff_ne]
      exact Nat.succ_ne_self _
    rw [hne, if_neg Bool.false_ne_true, if_pos rfl, ← hcursor, hname]
    rfl

/-- A hit leaves the enemies their roles. -/
theorem roles_hitEnemyBy (f : Fight K) (bullet enemy : BodyId) :
    (f.hitEnemyBy bullet enemy).1.roles = f.roles := by
  obtain ⟨-, hnone⟩ | ⟨-, i, e, amount, he, -, -, hhit⟩ := f.hitEnemyBy_cases bullet enemy
  · rw [hnone]
  · have hi : (f.enemies.map Enemy.role)[i]? = some e.role := by
      rw [List.getElem?_map, he]
      rfl
    obtain ⟨hlt, hget⟩ := List.getElem?_eq_some_iff.1 hi
    rw [hhit, roles, List.map_set, Enemy.role_damage, ← hget]
    exact List.set_getElem_self hlt

/-- Hits leave the enemies their roles. -/
theorem roles_hitEnemies (f : Fight K) (pairs : List (BodyId × BodyId)) :
    (f.hitEnemies pairs).1.roles = f.roles := by
  induction pairs generalizing f with
  | nil => rfl
  | cons pair rest ih =>
    rw [hitEnemies_cons]
    exact (ih _).trans (f.roles_hitEnemyBy pair.1 pair.2)

/-- Turns leave the enemies their bodies. -/
theorem map_body_turns {enemies enemies' : List (Enemy K)}
    (h : List.Forall₂ Enemy.Turn enemies enemies') :
    enemies'.map (·.body) = enemies.map (·.body) := by
  induction h with
  | nil => rfl
  | cons hturn _ ih => rw [List.map_cons, List.map_cons, hturn.body_eq, ih]

/-- What is kept by turns holds of all enemies afterwards. -/
theorem forall_of_turns {enemies enemies' : List (Enemy K)}
    (h : List.Forall₂ Enemy.Turn enemies enemies') {P Q : Enemy K → Prop}
    (hP : ∀ e e', e.Turn e' → P e → Q e') (he : ∀ e ∈ enemies, P e) : ∀ e ∈ enemies', Q e := by
  induction h with
  | nil => exact nofun
  | cons hturn _ ih =>
    rw [List.forall_mem_cons] at he ⊢
    exact ⟨hP _ _ hturn he.1, ih he.2⟩

/-- Each enemy has had its turn. -/
theorem exists_turn_of_mem {enemies enemies' : List (Enemy K)}
    (h : List.Forall₂ Enemy.Turn enemies enemies') {e : Enemy K} (he : e ∈ enemies) :
    ∃ e' ∈ enemies', e.Turn e' := by
  induction h with
  | nil => cases he
  | cons hturn _ ih =>
    rcases List.mem_cons.1 he with rfl | he
    · exact ⟨_, List.mem_cons_self, hturn⟩
    · obtain ⟨e', he', hturn⟩ := ih he
      exact ⟨e', List.mem_cons_of_mem _ he', hturn⟩

section
variable [Scalar K]

/-- In the updates of enemies each of them has its turn. Those that find no routine are done, and
the others tell of their changes. -/
theorem updateEnemies_turns (f : Fight K) (w : World K) (rng : Prng) (enemies : List (Enemy K)) :
    List.Forall₂ Enemy.Turn enemies (f.updateEnemies w rng enemies).enemies ∧
    (f.updateEnemies w rng enemies).finished = (enemies.filter Enemy.isDone).map (·.body) ∧
    (f.updateEnemies w rng enemies).events = enemies.flatMap (Enemy.changeEvents f.frame) := by
  induction enemies generalizing w rng with
  | nil => exact ⟨.nil, rfl, rfl⟩
  | cons e rest ih =>
    let u := e.update w rng enemyBullets f.settings.dt f.sizeOf
    obtain ⟨hturn, hreport⟩ := e.turn_play ⟨w, rng, enemyBullets, f.settings.dt, f.sizeOf⟩
    obtain ⟨hturns, hfinished, hevents⟩ := ih u.world u.rng
    have hturn : e.Turn u.enemy := hturn
    have hreport : u.report = .finished ↔ e.isDone = true := hreport
    rw [updateEnemies, List.filter_cons, List.flatMap_cons]
    split
    · next h =>
      have hdone := hreport.1 h
      rw [if_pos hdone, Enemy.changeEvents, Enemy.goesOn_of_isDone hdone]
      exact ⟨.cons hturn hturns, congrArg (e.body :: ·) hfinished, hevents⟩
    · next shots h =>
      have hdone : e.isDone = false := by
        rw [← Bool.not_eq_true, ← hreport]
        intro hend
        rw [hend] at h
        cases h
      rw [if_neg (Bool.eq_false_iff.1 hdone), ← changeEvents_turn hturn hdone]
      exact ⟨.cons hturn hturns, hfinished, congrArg (_ ++ ·) hevents⟩

/-- What the enemies do in a frame: each of them tells of its change, then those that are done
leave, and the others have had their turn. -/
theorem enemyPhase_turns {f : Fight K} (hnodup : (f.enemies.map (·.body)).Nodup) :
    List.Forall₂ Enemy.Turn (f.enemies.filter fun e => !e.isDone) f.enemyPhase.1.enemies ∧
    f.enemyPhase.2 = f.enemies.flatMap (Enemy.changeEvents f.frame) ++
      (f.enemies.filter Enemy.isDone).map fun e => .on f.frame (.enemyExhausted e.body) := by
  obtain ⟨hturns, hfinished, hevents⟩ := f.updateEnemies_turns f.world f.rng f.enemies
  constructor
  · have hdone : ∀ e ∈ f.enemies,
        ((f.updateEnemies f.world f.rng f.enemies).finished.contains e.body) = e.isDone := by
      intro e he
      rw [hfinished, Bool.eq_iff_iff, List.contains_iff_mem]
      exact Enemy.body_mem_filter_iff hnodup he Enemy.isDone
    rw [← List.filter_congr fun e he => congrArg (!·) (hdone e he)]
    refine List.rel_filter (fun e e' hturn => ?_) hturns
    dsimp only
    rw [hturn.body_eq]
  · rw [enemyPhase]
    dsimp only
    rw [hevents, hfinished, List.map_map]
    rfl

/-! ## What holds of every enemy -/

omit [Scalar K] in
/-- What damage keeps holds of the enemies after the hits. -/
theorem forall_hitEnemies {P : Enemy K → Prop} (hP : ∀ e amount, P e → P (e.damage amount))
    {f : Fight K} (h : ∀ e ∈ f.enemies, P e) (pairs : List (BodyId × BodyId)) :
    ∀ e ∈ (f.hitEnemies pairs).1.enemies, P e := by
  induction pairs generalizing f with
  | nil => exact h
  | cons pair rest ih =>
    rw [hitEnemies_cons]
    refine ih ?_
    obtain ⟨-, hnone⟩ | ⟨-, i, e, amount, he, -, -, hhit⟩ := f.hitEnemyBy_cases pair.1 pair.2
    · rw [hnone]
      exact h
    · rw [hhit]
      intro other hother
      rcases List.mem_or_eq_of_mem_set hother with hother | rfl
      · exact h other hother
      · exact hP e amount (h e (List.mem_of_getElem? he))

/-- What holds of the enemies that come holds of all of them afterwards. -/
theorem forall_bringInAll {P : Enemy K → Prop} {f : Fight K} {arrivals : List Arrival}
    (hP : ∀ a ∈ arrivals, ∀ {w w' : World K} {settings : Settings K} {size : Size K} {e : Enemy K},
      Enemy.spawn a.sheet f.assets w enemyGroup settings size = .ok (e, w') → P e)
    (h : ∀ e ∈ f.enemies, P e) : ∀ e ∈ (f.bringInAll arrivals).1.enemies, P e := by
  induction arrivals generalizing f with
  | nil => exact h
  | cons a rest ih =>
    have hrest : (f.bringIn a).1.assets = f.assets := by
      rw [bringIn]
      split <;> rfl
    rw [bringInAll_cons]
    refine ih (fun b hb => ?_) ?_
    · rw [hrest]
      exact hP b (List.mem_cons_of_mem _ hb)
    · rw [bringIn]
      split
      · next hspawn =>
        exact List.forall_mem_append.2
          ⟨h, List.forall_mem_singleton.2 (hP a List.mem_cons_self hspawn)⟩
      · exact h

/-- What holds of all enemies and is kept by damage holds of them when they were hit. -/
theorem exists_hitEnemyPhase_eq {P : Enemy K → Prop}
    (hP : ∀ e amount, P e → P (e.damage amount)) {f : Fight K} (h : ∀ e ∈ f.enemies, P e) :
    ∃ world enemies, f.hitEnemyPhase.1 = { f with world, enemies } ∧ ∀ e ∈ enemies, P e := by
  obtain ⟨⟨world, enemies, hhits⟩, -⟩ :=
    f.hitEnemies_eq (f.world.overlapPairs playerBullets enemyGroup)
  have henemies := forall_hitEnemies hP h (f.world.overlapPairs playerBullets enemyGroup)
  rw [hhits] at henemies
  exact ⟨world, enemies, hhits, henemies⟩

/-- What holds of all enemies and of those that come holds of them after the arrivals. -/
theorem exists_arrivalPhase_eq {P : Enemy K → Prop} {f : Fight K}
    (hP : ∀ a ∈ f.arrivals, ∀ {w w' : World K} {settings : Settings K} {size : Size K}
      {e : Enemy K}, Enemy.spawn a.sheet f.assets w enemyGroup settings size = .ok (e, w') → P e)
    (h : ∀ e ∈ f.enemies, P e) :
    ∃ world enemies log, f.arrivalPhase.1 = { f with world, enemies, log } ∧
      ∀ e ∈ enemies, P e := by
  obtain ⟨⟨world, enemies, log, hall⟩, -⟩ :=
    f.bringInAll_eq (f.arrivals.filter (·.time == f.frame))
  have henemies : ∀ e ∈ (f.bringInAll (f.arrivals.filter (·.time == f.frame))).1.enemies, P e :=
    forall_bringInAll (fun a ha => hP a (List.mem_filter.1 ha).1) h
  rw [hall] at henemies
  exact ⟨world, enemies, log, hall, henemies⟩

/-- What a turn keeps holds of the enemies that stay. -/
theorem forall_enemyPhase {P : Enemy K → Prop} (hP : ∀ e e', e.Turn e' → P e → P e')
    {f : Fight K} (h : ∀ e ∈ f.enemies, P e) : ∀ e ∈ f.enemyPhase.1.enemies, P e :=
  fun e he => forall_of_turns (f.updateEnemies_turns f.world f.rng f.enemies).1 hP h e
    (List.mem_filter.1 he).1

end

end Fight

end Barrage
