import Barrage.Proofs.Fight.Events
import Barrage.Proofs.Fight.Run

/-!
# A frame taken apart

A frame goes through its phases one after the other. `Stages` names the fights between them and the
events of each, and `Fight.simulate_stages` says that every frame that comes to its end has them.

Each phase touches some parts of a fight and leaves the others alone, and all its events carry the
number of the frame; there is one lemma for each phase that says both. Two phases alone decide about
windows, lives and timers: what the timers deliver (`Stages.timed_eq`), and the hits of the player
(`Fight.hitPlayerPhase_cases`). What comes behind them leaves all this as it is
(`Stages.settled`).

What a run tells is the sum of what its ticks tell. A property of a fight and of what was told so
far that every frame keeps holds after every run (`Fight.Chronicle.run`).
-/

namespace Barrage

variable {K : Type}

namespace Fight

/-! ## What the phases touch -/

section
variable {f : Fight K}

/-- The first timer that fires is delivered before the others. -/
theorem applyTimers_cons (f : Fight K) (action : TimerAction) (rest : List TimerAction) :
    f.applyTimers (action :: rest) = (((f.applyTimer action).1.applyTimers rest).1,
      (f.applyTimer action).2 ++ ((f.applyTimer action).1.applyTimers rest).2) := rfl

/-- The first pair is gone through before the others. -/
theorem hitEnemies_cons (f : Fight K) (pair : BodyId × BodyId) (rest : List (BodyId × BodyId)) :
    f.hitEnemies (pair :: rest) = (((f.hitEnemyBy pair.1 pair.2).1.hitEnemies rest).1,
      (f.hitEnemyBy pair.1 pair.2).2 ++ ((f.hitEnemyBy pair.1 pair.2).1.hitEnemies rest).2) := rfl

/-- The deliveries of timers touch energy, and end the window of the player if they say so. For each
end of a window there is an event. -/
theorem applyTimers_eq (f : Fight K) (actions : List TimerAction) : ∃ energy,
    f.applyTimers actions =
      ({ f with
          player := if .endInvincibility ∈ actions then f.player.endWindow else f.player
          status := { f.status with energy } },
        List.replicate (actions.count .endInvincibility) (.on f.frame .invincibilityEnded)) := by
  induction actions generalizing f with
  | nil => exact ⟨f.status.energy, rfl⟩
  | cons action rest ih =>
    cases action with
    | endInvincibility =>
      obtain ⟨energy, hrest⟩ := ih (f.applyTimer .endInvincibility).1
      refine ⟨energy, ?_⟩
      rw [applyTimers_cons, hrest, List.count_cons_self, List.replicate_succ]
      simp only [applyTimer, Player.endWindow, ite_self, List.mem_cons_self, if_true,
        List.singleton_append]
    | gainEnergy =>
      obtain ⟨energy, hrest⟩ := ih (f.applyTimer .gainEnergy).1
      refine ⟨energy, ?_⟩
      rw [applyTimers_cons, hrest, List.count_cons_of_ne (by decide)]
      simp only [applyTimer, List.mem_cons, reduceCtorEq, false_or, List.nil_append]
      rfl

/-- The timers of a frame touch the timers and energy, and end the window of the player if one of
them says so. -/
theorem runTimers_eq (f : Fight K) : ∃ energy,
    f.runTimers =
      ({ f with
          timers := f.timers.advance.2
          player :=
            if .endInvincibility ∈ f.timers.advance.1 then f.player.endWindow else f.player
          status := { f.status with energy } },
        List.replicate (f.timers.advance.1.count .endInvincibility)
          (.on f.frame .invincibilityEnded)) :=
  applyTimers_eq { f with timers := f.timers.advance.2 } f.timers.advance.1

/-- While a window is running no hit counts. -/
theorem takeHits_of_invincible (h : f.player.invincible = true) (count : Nat) :
    f.takeHits count = .ok (f, []) := by
  induction count with
  | zero => rfl
  | succ count ih =>
    rw [takeHits, hitPlayer, if_pos h]
    exact ih

/-- Otherwise the first hit counts and starts a window, in which the others do not. -/
theorem takeHits_succ (h : f.player.invincible = false) (count : Nat) :
    f.takeHits (count + 1) = (f.player.startWindow f.timers).map fun (player, timers) =>
      ({ f with player, timers, status := f.status.addLives (-1) },
        [.on f.frame (.playerHit (f.status.addLives (-1)).lives)]) := by
  rw [takeHits, hitPlayer, if_neg (Bool.eq_false_iff.1 h)]
  cases hwindow : f.player.startWindow f.timers with
  | error fault => rfl
  | ok window =>
    obtain ⟨player, timers⟩ := window
    have hinvincible : player.invincible = true := by
      obtain ⟨⟨id, t⟩, -, hplayer⟩ := map_eq_ok_iff.1 hwindow
      cases hplayer
      rfl
    have hrest := takeHits_of_invincible
      (f := { f with player, timers, status := f.status.addLives (-1) }) hinvincible count
    simp only [Except.map, bind, Except.bind, hrest]
    rfl

/-- A bullet that meets an enemy touches the world and the enemies. -/
theorem hitEnemyBy_eq (f : Fight K) (bullet enemy : BodyId) :
    (∃ world enemies, (f.hitEnemyBy bullet enemy).1 = { f with world, enemies }) ∧
      ∀ e ∈ (f.hitEnemyBy bullet enemy).2, e.At f.frame .enemyHits := by
  obtain ⟨-, hnone⟩ | ⟨-, i, e, amount, -, -, -, hhit⟩ := f.hitEnemyBy_cases bullet enemy
  · rw [hnone]
    exact ⟨⟨f.world, f.enemies, rfl⟩, nofun⟩
  · rw [hhit]
    exact ⟨⟨_, _, rfl⟩, List.forall_mem_singleton.2 (Event.at_on rfl)⟩

/-- Hits of enemies change the world and the enemies, and tell nothing but hits of enemies. -/
theorem hitEnemies_eq (f : Fight K) (pairs : List (BodyId × BodyId)) :
    (∃ world enemies, (f.hitEnemies pairs).1 = { f with world, enemies }) ∧
      ∀ e ∈ (f.hitEnemies pairs).2, e.At f.frame .enemyHits := by
  induction pairs generalizing f with
  | nil => exact ⟨⟨f.world, f.enemies, rfl⟩, nofun⟩
  | cons pair rest ih =>
    obtain ⟨⟨world, enemies, hfirst⟩, hevents⟩ := f.hitEnemyBy_eq pair.1 pair.2
    obtain ⟨⟨world', enemies', hrest⟩, hlater⟩ := ih (f.hitEnemyBy pair.1 pair.2).1
    rw [hfirst] at hrest hlater
    refine ⟨⟨world', enemies', ?_⟩, ?_⟩
    · rw [hitEnemies_cons, hfirst, hrest]
    · rw [hitEnemies_cons, hfirst]
      intro e he
      exact (List.mem_append.1 he).elim (hevents e) (hlater e)

/-- The count touches the frame, and ends the fight when no lives are left. Then there is one event,
which carries the number of the next frame. -/
theorem countFrame_eq (f : Fight K) :
    f.countFrame = ({ f with frame := f.frame + 1, ended := f.ended || f.status.isOver },
      if f.status.isOver then [.on (f.frame + 1) (.gameOver (f.frame + 1))] else []) := by
  rw [countFrame]
  cases f.status.isOver with
  | true => simp
  | false => simp

end

section
variable [Scalar K] {f g : Fight K} {events : List Event}

/-- The first arrival comes before the others. -/
theorem bringInAll_cons (f : Fight K) (a : Arrival) (rest : List Arrival) :
    f.bringInAll (a :: rest) = (((f.bringIn a).1.bringInAll rest).1,
      (f.bringIn a).2 ++ ((f.bringIn a).1.bringInAll rest).2) := rfl

/-- The player is hit once, or not at all: when nothing hostile overlaps it, or in a window. A hit
costs a life and starts a window. -/
theorem hitPlayerPhase_cases (h : f.hitPlayerPhase = .ok (g, events)) :
    (g = f ∧ events = [] ∧ (f.player.invincible = true ∨
      f.world.hitsOf f.player.body [enemyGroup, enemyBullets] = 0)) ∨
    (f.player.invincible = false ∧
      f.world.hitsOf f.player.body [enemyGroup, enemyBullets] ≠ 0 ∧
      ∃ id timers, f.timers.once f.player.window .endInvincibility = .ok (id, timers) ∧
        g = { f with player := { f.player with invincible := true }, timers,
                     status := f.status.addLives (-1) } ∧
        events = [.on f.frame (.playerHit (f.status.addLives (-1)).lives)]) := by
  rw [hitPlayerPhase] at h
  cases hinvincible : f.player.invincible with
  | true =>
    rw [takeHits_of_invincible hinvincible] at h
    cases h
    exact .inl ⟨rfl, rfl, .inl rfl⟩
  | false =>
    cases hcount : f.world.hitsOf f.player.body [enemyGroup, enemyBullets] with
    | zero =>
      rw [hcount] at h
      cases h
      exact .inl ⟨rfl, rfl, .inr rfl⟩
    | succ count =>
      rw [hcount, takeHits_succ hinvincible] at h
      obtain ⟨⟨player, timers⟩, hwindow, h⟩ := map_eq_ok_iff.1 h
      obtain ⟨⟨id, timers'⟩, honce, hplayer⟩ := map_eq_ok_iff.1 hwindow
      cases hplayer
      cases h
      exact .inr ⟨rfl, Nat.succ_ne_zero _, id, timers, honce, rfl, rfl⟩

/-- The player's actions touch its weapon, the energy, the world and the log. -/
theorem playerPhase_eq (f : Fight K) (keys : ActionSet) :
    (∃ weapon energy world log, (f.playerPhase keys).1 =
      { f with player := { f.player with weapon }, status := { f.status with energy }, world,
               log }) ∧
      ∀ e ∈ (f.playerPhase keys).2, e.At f.frame .player := by
  have hplayer : ∃ weapon, (f.player.update keys f.world playerBullets f.sizeOf).2.1 =
      { f.player with weapon } := by
    rw [Player.update, Player.fire]
    split <;> exact ⟨_, rfl⟩
  have hstatus : ∀ world body, ∃ energy, (useSpecial keys f.status world body f.playfield
      f.settings.blinkDistance).status = { f.status with energy } := by
    intro world body
    rw [useSpecial]
    split
    · exact ⟨0, rfl⟩
    · exact ⟨f.status.energy, rfl⟩
  obtain ⟨weapon, hplayer⟩ := hplayer
  obtain ⟨energy, hstatus⟩ := hstatus
    (f.player.update keys f.world playerBullets f.sizeOf).2.2
    (f.player.update keys f.world playerBullets f.sizeOf).2.1.body
  refine ⟨⟨weapon, energy, (f.playerPhase keys).1.world, (f.playerPhase keys).1.log, ?_⟩, ?_⟩
  · rw [playerPhase]
    dsimp only
    rw [hstatus, hplayer]
  · intro e he
    obtain ⟨name, -, rfl⟩ := Option.map_eq_some_iff.1 (Option.mem_toList.1 he)
    exact Event.at_on rfl

/-- An arrival touches the world, the enemies and the log. -/
theorem bringIn_eq (f : Fight K) (a : Arrival) :
    (∃ world enemies log, (f.bringIn a).1 = { f with world, enemies, log }) ∧
      ∀ e ∈ (f.bringIn a).2, e.At f.frame .arrivals := by
  rw [bringIn]
  split
  · refine ⟨⟨_, _, _, rfl⟩, ?_⟩
    intro e he
    obtain rfl := List.mem_singleton.1 he
    exact Event.at_on rfl
  · exact ⟨⟨_, _, _, rfl⟩, nofun⟩

/-- Arrivals change the world, the enemies and the log, and tell nothing but arrivals. -/
theorem bringInAll_eq (f : Fight K) (arrivals : List Arrival) :
    (∃ world enemies log, (f.bringInAll arrivals).1 = { f with world, enemies, log }) ∧
      ∀ e ∈ (f.bringInAll arrivals).2, e.At f.frame .arrivals := by
  induction arrivals generalizing f with
  | nil => exact ⟨⟨f.world, f.enemies, f.log, rfl⟩, nofun⟩
  | cons a rest ih =>
    obtain ⟨⟨world, enemies, log, hfirst⟩, hevents⟩ := f.bringIn_eq a
    obtain ⟨⟨world', enemies', log', hrest⟩, hlater⟩ := ih (f.bringIn a).1
    rw [hfirst] at hrest hlater
    refine ⟨⟨world', enemies', log', ?_⟩, ?_⟩
    · rw [bringInAll_cons, hfirst, hrest]
    · rw [bringInAll_cons, hfirst]
      intro e he
      exact (List.mem_append.1 he).elim (hevents e) (hlater e)

/-- The updates of enemies tell of changes of routines only. -/
theorem updateEnemies_events (f : Fight K) (world : World K) (rng : Prng)
    (enemies : List (Enemy K)) :
    ∀ e ∈ (f.updateEnemies world rng enemies).events, e.At f.frame .enemies := by
  induction enemies generalizing world rng with
  | nil => exact nofun
  | cons enemy rest ih =>
    rw [updateEnemies]
    split
    · exact ih _ _
    · intro e he
      rcases List.mem_append.1 he with he | he
      · rw [changeEvents] at he
        split at he
        · cases he
        · split at he
          · cases he
          · obtain rfl := List.mem_singleton.1 he
            exact Event.at_on rfl
      · exact ih _ _ e he

/-- The enemies' actions touch the world, the enemies and the random numbers. -/
theorem enemyPhase_eq (f : Fight K) :
    (∃ world rng enemies, f.enemyPhase.1 = { f with world, rng, enemies }) ∧
      ∀ e ∈ f.enemyPhase.2, e.At f.frame .enemies := by
  refine ⟨⟨_, _, _, rfl⟩, ?_⟩
  intro e he
  rcases List.mem_append.1 he with he | he
  · exact f.updateEnemies_events _ _ _ e he
  · obtain ⟨id, -, rfl⟩ := List.mem_map.1 he
    exact Event.at_on rfl

end

end Fight

/-! ## The stages of a frame -/

variable [Scalar K]

/-- The fights between the phases of a frame, and the events of each phase. -/
structure Stages (f : Fight K) (keys : ActionSet) (g : Fight K) (events : List Event) where
  /-- After the timers. -/
  timed : Fight K
  /-- After the hits of the player. -/
  hit : Fight K
  /-- After the hits of the enemies. -/
  struck : Fight K
  /-- After the player has acted. -/
  acted : Fight K
  /-- After the arrivals. -/
  joined : Fight K
  /-- After the enemies have acted. -/
  moved : Fight K
  /-- What happened in each phase. -/
  happened : Phase → List Event
  timed_eq : f.runTimers = (timed, happened .timers)
  hit_eq : timed.moveBodies.hitPlayerPhase = .ok (hit, happened .playerHits)
  struck_eq : hit.hitEnemyPhase = (struck, happened .enemyHits)
  acted_eq : struck.playerPhase keys = (acted, happened .player)
  joined_eq : acted.arrivalPhase = (joined, happened .arrivals)
  moved_eq : joined.enemyPhase = (moved, happened .enemies)
  counted_eq : moved.sweepPhase.countFrame = (g, happened .count)
  fits : g.fits = true
  events_eq : events = Phase.all.flatMap happened

/-- A frame that comes to its end went through all stages. -/
theorem Fight.simulate_stages {f g : Fight K} {keys : ActionSet} {events : List Event}
    (h : f.simulate keys = .ok (g, events)) : Nonempty (Stages f keys g events) := by
  obtain ⟨⟨hit, hits⟩, hhit, h⟩ := bind_eq_ok_iff.1 h
  dsimp only at h
  split at h
  · next hfits =>
    cases h
    let struck := hit.hitEnemyPhase
    let acted := struck.1.playerPhase keys
    let joined := acted.1.arrivalPhase
    let moved := joined.1.enemyPhase
    let happened : Phase → List Event
      | .timers => f.runTimers.2
      | .playerHits => hits
      | .enemyHits => struck.2
      | .player => acted.2
      | .arrivals => joined.2
      | .enemies => moved.2
      | .count => moved.1.sweepPhase.countFrame.2
    refine ⟨⟨f.runTimers.1, hit, struck.1, acted.1, joined.1, moved.1, happened, rfl, hhit, rfl,
      rfl, rfl, rfl, rfl, hfits, ?_⟩⟩
    simp only [Phase.all, List.flatMap_cons, List.flatMap_nil, List.append_nil, List.append_assoc]
    rfl
  · cases h

namespace Stages

variable {f g : Fight K} {keys : ActionSet} {events : List Event}

/-- What the timers make of a fight. -/
theorem timed_fst (s : Stages f keys g events) : ∃ energy, s.timed =
    { f with
      timers := f.timers.advance.2
      player :=
        if .endInvincibility ∈ f.timers.advance.1 then f.player.endWindow else f.player
      status := { f.status with energy } } ∧
    s.happened .timers = List.replicate (f.timers.advance.1.count .endInvincibility)
      (.on f.frame .invincibilityEnded) := by
  obtain ⟨energy, htimers⟩ := f.runTimers_eq
  rw [s.timed_eq, Prod.mk.injEq] at htimers
  exact ⟨energy, htimers⟩

/-- The timers do not count the frame. -/
theorem frame_timed (s : Stages f keys g events) : s.timed.frame = f.frame := by
  obtain ⟨energy, htimed, -⟩ := s.timed_fst
  rw [htimed]

/-- The hits of the player touch its window, the status and the timers. -/
theorem hit_fst (s : Stages f keys g events) : ∃ invincible status timers, s.hit =
    { s.timed.moveBodies with
      player := { s.timed.moveBodies.player with invincible }, status, timers } := by
  rcases Fight.hitPlayerPhase_cases s.hit_eq with
    ⟨hhit, -, -⟩ | ⟨-, -, id, timers, -, hhit, -⟩
  · exact ⟨_, _, _, hhit⟩
  · exact ⟨_, _, _, hhit⟩

/-- Hits of the player do not count the frame. -/
theorem frame_hit (s : Stages f keys g events) : s.hit.frame = f.frame := by
  obtain ⟨invincible, status, timers, hhit⟩ := s.hit_fst
  rw [hhit]
  exact s.frame_timed

/-- Hits of enemies change the world and the enemies only. -/
theorem struck_fst (s : Stages f keys g events) :
    ∃ world enemies, s.struck = { s.hit with world, enemies } := by
  obtain ⟨⟨world, enemies, hstruck⟩, -⟩ :=
    s.hit.hitEnemies_eq (s.hit.world.overlapPairs playerBullets enemyGroup)
  exact ⟨world, enemies, (congrArg Prod.fst s.struck_eq).symm.trans hstruck⟩

/-- The hits of the enemies and the player's actions touch neither timers nor lives nor windows. -/
theorem acted_fst (s : Stages f keys g events) : ∃ weapon energy world enemies log, s.acted =
    { s.hit with
      player := { s.hit.player with weapon }, status := { s.hit.status with energy }, world,
      enemies, log } := by
  obtain ⟨world, enemies, hstruck⟩ := s.struck_fst
  obtain ⟨⟨weapon, energy, world', log, hacted⟩, -⟩ := s.struck.playerPhase_eq keys
  have hacted := (congrArg Prod.fst s.acted_eq).symm.trans hacted
  rw [hstruck] at hacted
  exact ⟨weapon, energy, world', enemies, log, hacted⟩

/-- The player does not count the frame. -/
theorem frame_acted (s : Stages f keys g events) : s.acted.frame = f.frame := by
  obtain ⟨weapon, energy, world, enemies, log, hacted⟩ := s.acted_fst
  rw [hacted]
  exact s.frame_hit

/-- Arrivals change the world, the enemies and the log only. -/
theorem joined_fst (s : Stages f keys g events) :
    ∃ world enemies log, s.joined = { s.acted with world, enemies, log } := by
  obtain ⟨⟨world, enemies, log, hjoined⟩, -⟩ :=
    s.acted.bringInAll_eq (s.acted.arrivals.filter (·.time == s.acted.frame))
  exact ⟨world, enemies, log, (congrArg Prod.fst s.joined_eq).symm.trans hjoined⟩

/-- The turns of the enemies change the world, the generator and the enemies only. -/
theorem moved_fst (s : Stages f keys g events) :
    ∃ world rng enemies, s.moved = { s.joined with world, rng, enemies } := by
  obtain ⟨⟨world, rng, enemies, hmoved⟩, -⟩ := s.joined.enemyPhase_eq
  exact ⟨world, rng, enemies, (congrArg Prod.fst s.moved_eq).symm.trans hmoved⟩

/-- What the sweep and the count make of a fight. -/
theorem counted_fst (s : Stages f keys g events) : g =
    { s.moved with
      world := (s.moved.world.sweep playerBullets s.moved.settings.viewport).sweep enemyBullets
        s.moved.settings.viewport
      frame := s.moved.frame + 1
      ended := s.moved.ended || s.moved.status.isOver } ∧
    s.happened .count = if s.moved.status.isOver then
      [.on (s.moved.frame + 1) (.gameOver (s.moved.frame + 1))] else [] := by
  have hcounted := s.counted_eq
  rw [Fight.countFrame_eq, Prod.mk.injEq] at hcounted
  exact ⟨hcounted.1.symm, hcounted.2.symm⟩

/-- Behind the hits of the player, a frame touches neither timers nor lives nor windows. It is
counted, and it ends the fight when no lives are left. -/
theorem settled (s : Stages f keys g events) : (∃ weapon energy world enemies rng log, g =
    { s.hit with
      player := { s.hit.player with weapon }, status := { s.hit.status with energy }, world,
      enemies, rng, log, frame := f.frame + 1, ended := s.hit.ended || s.hit.status.isOver }) ∧
    s.happened .count = if s.hit.status.isOver then
      [.on (f.frame + 1) (.gameOver (f.frame + 1))] else [] := by
  obtain ⟨weapon, energy, world₁, enemies₁, log₁, hacted⟩ := s.acted_fst
  obtain ⟨world₂, enemies₂, log₂, hjoined⟩ := s.joined_fst
  obtain ⟨world₃, rng, enemies₃, hmoved⟩ := s.moved_fst
  obtain ⟨hg, hcount⟩ := s.counted_fst
  rw [hmoved, hjoined, hacted] at hg hcount
  rw [← s.frame_hit]
  exact ⟨⟨weapon, energy, _, _, rng, log₂, hg⟩, hcount⟩

/-- A frame is counted once. -/
theorem frame_eq (s : Stages f keys g events) : g.frame = f.frame + 1 := by
  obtain ⟨⟨weapon, energy, world, enemies, rng, log, hg⟩, -⟩ := s.settled
  exact (congrArg Fight.frame hg :)

/-- A frame leaves the settings as they are. -/
theorem settings_eq (s : Stages f keys g events) : g.settings = f.settings := by
  obtain ⟨energy, htimed, -⟩ := s.timed_fst
  obtain ⟨invincible, status, timers, hhit⟩ := s.hit_fst
  obtain ⟨⟨weapon, energy', world, enemies, rng, log, hg⟩, -⟩ := s.settled
  have hsettings : s.hit.settings = s.timed.settings := (congrArg Fight.settings hhit :)
  exact (congrArg Fight.settings hg :).trans
    (hsettings.trans (congrArg Fight.settings htimed :))

/-- What every phase keeps holds before the enemies are hit. -/
theorem kept_hit (s : Stages f keys g events) {P : Fight K → Prop} (hP : Fight.KeptByPhases P)
    (h : P f) : P s.hit := by
  have htimed := hP.runTimers h
  rw [s.timed_eq] at htimed
  exact hP.hitPlayerPhase s.hit_eq (hP.moveBodies htimed)

/-- What the phases keep holds when the enemies have been hit. -/
theorem kept_struck (s : Stages f keys g events) {P : Fight K → Prop} (hP : Fight.KeptByPhases P)
    (h : P f) : P s.struck := by
  have hstruck := hP.hitEnemyPhase (s.kept_hit hP h)
  rw [s.struck_eq] at hstruck
  exact hstruck

/-- What every phase keeps holds before the arrivals come. -/
theorem kept_acted (s : Stages f keys g events) {P : Fight K → Prop} (hP : Fight.KeptByPhases P)
    (h : P f) : P s.acted := by
  have hacted := hP.playerPhase keys (s.kept_struck hP h)
  rw [s.acted_eq] at hacted
  exact hacted

/-- What the phases keep holds when the arrivals have come. -/
theorem kept_joined (s : Stages f keys g events) {P : Fight K → Prop} (hP : Fight.KeptByPhases P)
    (h : P f) : P s.joined := by
  have hjoined := hP.arrivalPhase (s.kept_acted hP h)
  rw [s.joined_eq] at hjoined
  exact hjoined

/-- What the phases keep holds when the enemies have moved. -/
theorem kept_moved (s : Stages f keys g events) {P : Fight K → Prop} (hP : Fight.KeptByPhases P)
    (h : P f) : P s.moved := by
  have hmoved := hP.enemyPhase (s.kept_joined hP h)
  rw [s.moved_eq] at hmoved
  exact hmoved

/-- What holds after them, and is kept by every phase, holds at the end of the frame. -/
theorem kept_of_joined (s : Stages f keys g events) {P : Fight K → Prop}
    (hP : Fight.KeptByPhases P) (h : P s.joined) : P g := by
  have hmoved := hP.enemyPhase h
  rw [s.moved_eq] at hmoved
  have hcounted := hP.countFrame (hP.sweepPhase hmoved)
  rw [s.counted_eq] at hcounted
  exact hcounted

/-- What the phases keep holds at the end of a frame. -/
theorem kept (s : Stages f keys g events) {P : Fight K → Prop} (hP : Fight.KeptByPhases P)
    (h : P f) : P g := s.kept_of_joined hP (s.kept_joined hP h)

/-! ## What a frame tells -/

/-- The events of each phase are its own and carry the number of the frame; the end of the fight
carries that of the next one. -/
theorem happened_at (s : Stages f keys g events) (p : Phase) :
    ∀ e ∈ s.happened p, e.At (if p = .count then f.frame + 1 else f.frame) p := by
  have hacted := s.frame_acted
  cases p with
  | timers =>
    obtain ⟨energy, -, htimers⟩ := s.timed_fst
    rw [htimers]
    intro e he
    obtain rfl := List.eq_of_mem_replicate he
    exact Event.at_on rfl
  | playerHits =>
    rcases Fight.hitPlayerPhase_cases s.hit_eq with
      ⟨-, hnone, -⟩ | ⟨-, -, id, timers, -, -, hhits⟩
    · rw [hnone]
      exact nofun
    · rw [hhits]
      intro e he
      obtain rfl := List.mem_singleton.1 he
      rw [show s.timed.moveBodies.frame = f.frame from s.frame_timed]
      exact Event.at_on rfl
  | enemyHits =>
    have hevents := (s.hit.hitEnemies_eq (s.hit.world.overlapPairs playerBullets enemyGroup)).2
    have hstruck : s.hit.hitEnemyPhase.2 = s.happened .enemyHits := congrArg Prod.snd s.struck_eq
    rw [s.frame_hit] at hevents
    rw [← hstruck]
    exact hevents
  | player =>
    have hevents := (s.struck.playerPhase_eq keys).2
    obtain ⟨world, enemies, hstruck⟩ := s.struck_fst
    rw [show s.struck.frame = f.frame by rw [hstruck]; exact s.frame_hit] at hevents
    have hacted : (s.struck.playerPhase keys).2 = s.happened .player := congrArg Prod.snd s.acted_eq
    rw [← hacted]
    exact hevents
  | arrivals =>
    have hevents :=
      (s.acted.bringInAll_eq (s.acted.arrivals.filter (·.time == s.acted.frame))).2
    have hjoined : s.acted.arrivalPhase.2 = s.happened .arrivals := congrArg Prod.snd s.joined_eq
    rw [hacted] at hevents
    rw [← hjoined, Fight.arrivalPhase, hacted]
    exact hevents
  | enemies =>
    have hevents := s.joined.enemyPhase_eq.2
    obtain ⟨world, enemies, log, hjoined⟩ := s.joined_fst
    rw [show s.joined.frame = f.frame by rw [hjoined]; exact hacted] at hevents
    have hmoved : s.joined.enemyPhase.2 = s.happened .enemies := congrArg Prod.snd s.moved_eq
    rw [← hmoved]
    exact hevents
  | count =>
    rw [s.settled.2]
    intro e he
    split at he
    · obtain rfl := List.mem_singleton.1 he
      exact Event.at_on rfl
    · cases he

/-- What is read off the events of one phase is what is read off all events. -/
theorem filter_events (s : Stages f keys g events) {β : Type} {read : Event → Option β} {p : Phase}
    (hread : ∀ e, (read e).isSome → e.data.phase = p) :
    (events.filter fun e => (read e).isSome) = (s.happened p).filter fun e => (read e).isSome :=
  (congrArg (List.filter _) s.events_eq).trans
    (Event.filter_phases (fun p e he => (s.happened_at p e he).2) hread)

/-- A tick tells it in the order in which it happened, when it happened in the order of events. -/
theorem filterMap_sort (s : Stages f keys g events) {β : Type} {read : Event → Option β} {p : Phase}
    (hread : ∀ e, (read e).isSome → e.data.phase = p)
    (hsorted : (s.happened p).Pairwise fun a b => (Event.cmp a b).isLE) :
    (Event.sort events).filterMap read = (s.happened p).filterMap read := by
  have hfilter := s.filter_events hread
  have hkept : (events.filter fun e => (read e).isSome).Pairwise
      fun a b => (Event.cmp a b).isLE := by
    rw [hfilter]
    exact hsorted.filter _
  rw [Event.filterMap_sort hkept, ← Event.filterMap_filter_isSome, hfilter,
    Event.filterMap_filter_isSome]

/-- In any case it tells the same. -/
theorem perm_filterMap_sort (s : Stages f keys g events) {β : Type} {read : Event → Option β}
    {p : Phase} (hread : ∀ e, (read e).isSome → e.data.phase = p) :
    ((Event.sort events).filterMap read).Perm ((s.happened p).filterMap read) := by
  have hperm := (Event.perm_sort events).filterMap read
  rwa [← Event.filterMap_filter_isSome read events, s.filter_events hread,
    Event.filterMap_filter_isSome] at hperm

/-- A frame tells of the one hit that counted, if one did. -/
theorem filterMap_playerHit? (s : Stages f keys g events) :
    (Event.sort events).filterMap Event.playerHit? =
      (s.happened .playerHits).filterMap Event.playerHit? := by
  refine s.filterMap_sort Event.phase_of_playerHit? ?_
  rcases Fight.hitPlayerPhase_cases s.hit_eq with ⟨-, hnone, -⟩ | ⟨-, -, id, timers, -, -, hone⟩
  · rw [hnone]
    exact List.Pairwise.nil
  · rw [hone]
    exact List.pairwise_singleton _ _

end Stages

/-! ## What a run tells -/

namespace Fight

/-- A property of a fight and of the reports so far that every call keeps. -/
structure Chronicle (P : Fight K → List TickReport → Prop) : Prop where
  withKeys : ∀ {f : Fight K} {reports : List TickReport} (keys : Keyboard), P f reports →
    P { f with keys } reports
  /-- Nothing happens in a fight that is over. -/
  ended : ∀ {f : Fight K} {reports : List TickReport}, f.ended = true → P f reports →
    P f (reports ++ [⟨[], false, true⟩])
  pause : ∀ {f : Fight K} {reports : List TickReport}, f.ended = false → P f reports →
    P f (reports ++ [⟨[], true, false⟩])
  frame : ∀ {f g : Fight K} {reports : List TickReport} {keys : ActionSet} {events : List Event},
    f.ended = false → Stages f keys g events → P f reports →
    P g (reports ++ [⟨Event.sort events, false, g.ended⟩])

variable {P : Fight K → List TickReport → Prop} {f g : Fight K} {reports : List TickReport}

/-- A tick keeps what every call keeps. -/
theorem Chronicle.tick (hP : Chronicle P) {raw : ActionSet} {report : TickReport}
    (h : f.tick raw = .ok (g, report)) (hf : P f reports) : P g (reports ++ [report]) := by
  rcases tick_cases h with
    ⟨hended, rfl, rfl⟩ | ⟨hended, -, rfl, rfl⟩ | ⟨hended, -, events, hsim, rfl⟩
  · exact hP.ended hended hf
  · exact hP.pause (f := { f with keys := f.keys.update raw }) hended (hP.withKeys _ hf)
  · obtain ⟨s⟩ := simulate_stages hsim
    exact hP.frame (f := { f with keys := f.keys.update raw }) hended s (hP.withKeys _ hf)

/-- What every call keeps holds after every run, of all that was told. -/
theorem Chronicle.run (hP : Chronicle P) {calls : List Call} {later : List TickReport}
    (h : f.run calls = .ok (g, later)) (hf : P f reports) : P g (reports ++ later) := by
  induction calls generalizing f reports later with
  | nil =>
    cases h
    rw [List.append_nil]
    exact hf
  | cons call rest ih =>
    cases call with
    | tick raw =>
      obtain ⟨f', report, later, htick, hrest, rfl⟩ := run_tick_eq_ok h
      have hrest := ih hrest (hP.tick htick hf)
      rwa [List.append_assoc] at hrest
    | resume => exact ih h (hP.withKeys _ hf)

/-- What every call keeps holds of a run from the start, before which nothing was told. -/
theorem Chronicle.run_start (hP : Chronicle P) {calls : List Call} {later : List TickReport}
    (h : f.run calls = .ok (g, later)) (hf : P f []) : P g later := hP.run h hf

/-- As long as a fight goes on, its frames are the ticks without a pause. -/
theorem chronicle_counted : Chronicle fun (f : Fight K) reports => f.ended = false →
    f.frame = reports.countP fun report => !report.pauseRequested where
  withKeys _ h := h
  ended hended _ hgoes := by
    rw [hended] at hgoes
    cases hgoes
  pause hended h _ := by
    rw [List.countP_append, ← h hended]
    rfl
  frame hended s h _ := by
    rw [s.frame_eq, h hended, List.countP_append]
    rfl

end Fight

end Barrage
