import Barrage.Proofs.Assets
import Barrage.Proofs.Fight.Energy
import Barrage.Proofs.Fight.Turns
import Barrage.Proofs.Level

/-!
# The numbers of a fight

The sheets and routines from which a fight is made have numbers of four bytes. What a fight counts
with does not leave this width: lives and hit points only go down, energy stops at what the special
takes, a weapon cools down from its rate, and the time of a routine stops at the last one that there
is (`Fight.Bounded`). Every phase of a frame keeps these bounds (`Fight.keptByPhases_bounded`).

Between two frames the counters of the fight fit as well, and every enemy is at one of its routines,
since those that find none have left (`Fight.chronicle_settled`).
-/

namespace Barrage

variable {K : Type}

/-! ## Routines and enemies -/

/-- The numbers of a routine fit. -/
structure Routine.Fits (r : Routine K) : Prop where
  time_lt : r.time < 0x100000000
  current_lt : ∀ hp, r.hitPoints = some hp → hp.current < 0x100000000

/-- The numbers of all routines of an enemy fit. -/
def Enemy.Fits (e : Enemy K) : Prop := ∀ r ∈ e.sequence.routines, r.Fits

namespace Routine

variable {r : Routine K}

/-- Damage only takes hit points away. -/
theorem Fits.damage (h : r.Fits) (amount : Nat) : (r.damage amount).Fits := by
  refine ⟨h.time_lt, ?_⟩
  intro hp hpoints
  obtain ⟨before, hbefore, rfl⟩ := Option.map_eq_some_iff.1 hpoints
  exact Nat.lt_of_le_of_lt (Nat.sub_le _ _) (h.current_lt before hbefore)

/-- The time of a routine does not go beyond the last one. -/
theorem Fits.advance (h : r.Fits) (ongoing : Movement K) :
    ({ r with ongoing } : Routine K).advance.Fits := by
  refine ⟨?_, h.current_lt⟩
  rw [Routine.advance, addTime]
  dsimp only
  split
  · decide
  · exact Nat.lt_of_le_of_lt (Nat.min_le_right _ _) (by decide)

/-- A routine fits if the hit points of its script do. -/
theorem fits_ofScript [Scalar K] {s : RoutineScript K}
    (h : ∀ n, s.hitPoints = some n → n < 0x100000000) : (ofScript s).Fits := by
  refine ofScript_induction s ⟨Nat.zero_lt_succ _, ?_⟩ (fun _ _ _ h => ⟨h.time_lt, h.current_lt⟩)
    (fun _ _ h => ⟨h.time_lt, h.current_lt⟩)
  intro hp hpoints
  obtain ⟨n, hn, rfl⟩ := Option.map_eq_some_iff.1 hpoints
  exact h n hn

end Routine

namespace Enemy

variable {e e' : Enemy K}

/-- An enemy that takes damage fits as it did. -/
theorem Fits.damage (h : e.Fits) (amount : Nat) : (e.damage amount).Fits :=
  forall_routines_damage (fun _ hr => hr.damage amount) h

/-- An enemy that has had a turn fits as it did. -/
theorem Fits.turn (h : e.Fits) (hturn : e.Turn e') : e'.Fits :=
  hturn.forall_routines (fun _ ongoing hr => hr.advance ongoing) h

/-- The routines of an enemy that is made from assets fit. -/
theorem fits_spawn [Scalar K] {sheet : EnemySheet} {assets : Assets K} {w w' : World K}
    {group : GroupId} {settings : Settings K} {size : Size K}
    (hspawn : Enemy.spawn sheet assets w group settings size = .ok (e, w')) : e.Fits := by
  refine forall_routines_spawn (fun name _ script hname => ?_) hspawn
  obtain ⟨j, hj⟩ := Assets.read_eq_ok hname
  exact Routine.fits_ofScript fun n hn => RoutineScript.hitPoints_lt hj hn

end Enemy

/-! ## The numbers of a fight -/

/-- Lives and energy fit. -/
structure Status.Fits (s : Status) : Prop where
  lives_nonneg : 0 ≤ s.lives
  lives_lt : s.lives < 0x80000000
  energy_le : s.energy ≤ s.energyRequired
  required_lt : s.energyRequired < 0x100000000

/-- The numbers of a weapon fit. -/
structure Weapon.Fits (w : Weapon K) : Prop where
  rate_lt : w.fireRate < 0x100000000
  cooldown_lt : w.cooldown < 0x100000000

/-- A hit leaves no more lives than there were. -/
theorem Status.Fits.hit {s : Status} (h : s.Fits) : (s.addLives (-1)).Fits := by
  obtain ⟨hnonneg, hlt, henergy, hrequired⟩ := h
  refine ⟨?_, ?_, henergy, hrequired⟩
  · simp only [addLives, clampTo]
    omega
  · simp only [addLives, clampTo]
    omega

namespace Fight

variable {f g : Fight K}

/-- The numbers that a fight counts with fit. -/
structure Bounded (f : Fight K) : Prop where
  status : f.status.Fits
  weapon : f.player.weapon.Fits
  enemies : ∀ e ∈ f.enemies, e.Fits

section
variable [Scalar K]

/-- Every phase keeps the numbers of a fight in their bounds. -/
theorem keptByPhases_bounded : KeptByPhases (Bounded (K := K)) where
  withKeys _ h := ⟨h.status, h.weapon, h.enemies⟩
  runTimers {f} h := by
    have henergy : f.runTimers.1.status.energy = min f.status.energyRequired _ :=
      energy_applyTimers { f with timers := f.timers.advance.2 } _ h.status.energy_le
    obtain ⟨energy, htimers⟩ := f.runTimers_eq
    rw [htimers] at henergy ⊢
    refine ⟨⟨h.status.lives_nonneg, h.status.lives_lt, ?_, h.status.required_lt⟩, ?_, h.enemies⟩
    · exact Nat.le_trans (Nat.le_of_eq henergy) (Nat.min_le_left _ _)
    · dsimp only
      split <;> exact h.weapon
  moveBodies h := ⟨h.status, h.weapon, h.enemies⟩
  hitPlayerPhase hhits h := by
    rcases hitPlayerPhase_cases hhits with ⟨rfl, -, -⟩ | ⟨-, -, id, timers, -, rfl, -⟩
    · exact h
    · exact ⟨h.status.hit, h.weapon, h.enemies⟩
  hitEnemyPhase h := by
    obtain ⟨world, enemies, hstruck, henemies⟩ :=
      exists_hitEnemyPhase_eq (fun _ amount he => Enemy.Fits.damage he amount) h.enemies
    rw [hstruck]
    exact ⟨h.status, h.weapon, henemies⟩
  playerPhase {f} keys h := by
    refine ⟨?_, ?_, h.enemies⟩
    · rcases f.playerPhase_special keys with ⟨-, -, hstatus, -⟩ | ⟨-, hstatus, -⟩
      · rw [hstatus]
        exact ⟨h.status.lives_nonneg, h.status.lives_lt, Nat.zero_le _, h.status.required_lt⟩
      · rw [hstatus]
        exact h.status
    · show (f.player.update keys f.world playerBullets f.sizeOf).2.1.weapon.Fits
      rw [Player.update, Player.fire]
      split
      · exact ⟨h.weapon.rate_lt, h.weapon.rate_lt⟩
      · exact ⟨h.weapon.rate_lt, Nat.lt_of_le_of_lt (Nat.sub_le _ _) h.weapon.cooldown_lt⟩
  arrivalPhase h := by
    obtain ⟨world, enemies, log, hjoined, henemies⟩ :=
      exists_arrivalPhase_eq (fun _ _ => Enemy.fits_spawn) h.enemies
    rw [hjoined]
    exact ⟨h.status, h.weapon, henemies⟩
  enemyPhase h := ⟨h.status, h.weapon,
    forall_enemyPhase (fun _ _ hturn he => Enemy.Fits.turn he hturn) h.enemies⟩
  sweepPhase h := ⟨h.status, h.weapon, h.enemies⟩
  countFrame {f} h := by
    rw [countFrame_eq]
    exact ⟨h.status, h.weapon, h.enemies⟩

/-- A fight starts within its bounds. -/
theorem bounded_of_start {assets : Assets K} {settings : Settings K}
    (hstart : start assets settings = .ok f) : f.Bounded := by
  obtain ⟨sheet, sizes, entries, arrivals, hsheet, -, -, -, rfl⟩ := start_eq_ok hstart
  obtain ⟨j, hj⟩ := Assets.read_eq_ok hsheet
  obtain ⟨hrate, hlives, hrequired⟩ := PlayerSheet.bounds hj
  refine ⟨⟨?_, ?_, Nat.zero_le _, hrequired⟩, ⟨hrate, Nat.zero_lt_succ _⟩, nofun⟩
  · show 0 ≤ clampTo (max settings.maxLives 0) sheet.lives
    rw [clampTo]
    omega
  · show clampTo (max settings.maxLives 0) sheet.lives < 0x80000000
    rw [clampTo]
    omega

/-! ## Between two frames -/

/-- The counters of a fight fit, and every enemy is at one of its routines. -/
structure Settled (f : Fight K) : Prop where
  frame_lt : f.frame < 0x100000000
  nextBody_lt : f.world.nextBody < 0x100000000
  exists_current : ∀ e ∈ f.enemies, ∃ r, e.sequence.current? = some r

/-- An enemy that stays has had a turn in which it has found a routine. -/
theorem exists_current_enemyPhase (f : Fight K) :
    ∀ e ∈ f.enemyPhase.1.enemies, ∃ r, e.sequence.current? = some r := by
  obtain ⟨hturns, hfinished, -⟩ := f.updateEnemies_turns f.world f.rng f.enemies
  let finished := (f.updateEnemies f.world f.rng f.enemies).finished
  have hdone : ∀ e ∈ f.enemies, e.isDone = true → e.body ∈ finished := by
    intro e he hover
    show e.body ∈ (f.updateEnemies f.world f.rng f.enemies).finished
    rw [hfinished]
    exact List.mem_map.2 ⟨e, List.mem_filter.2 ⟨he, hover⟩, rfl⟩
  have hstays := forall_of_turns hturns
    (Q := fun e => e.body ∉ finished → ∃ r, e.sequence.current? = some r)
    (fun e e' hturn hover hbody => hturn.exists_current <| Bool.eq_false_iff.2 fun hend =>
      hbody (hturn.body_eq ▸ hover hend)) hdone
  intro e he
  obtain ⟨he, hbody⟩ := List.mem_filter.1 he
  exact hstays e he (by simpa using hbody)

/-- After each frame a fight is settled. -/
theorem chronicle_settled : Chronicle fun (f : Fight K) _ => f.Settled where
  withKeys _ h := ⟨h.frame_lt, h.nextBody_lt, h.exists_current⟩
  ended _ h := h
  pause _ h := h
  frame {f g _ _ _} _ s _ := by
    obtain ⟨hframe, hnext⟩ := Bool.and_eq_true_iff.1 s.fits
    refine ⟨of_decide_eq_true hframe, of_decide_eq_true hnext, ?_⟩
    have henemies : g.enemies = s.joined.enemyPhase.1.enemies := by
      rw [s.moved_eq]
      exact (congrArg Fight.enemies s.counted_fst.1 :)
    rw [henemies]
    exact s.joined.exists_current_enemyPhase

/-- A fight that was just set up is settled. -/
theorem settled_of_start {assets : Assets K} {settings : Settings K}
    (hstart : start assets settings = .ok f) : f.Settled := by
  obtain ⟨level, -, rfl⟩ := map_eq_ok_iff.1 hstart
  refine ⟨Nat.zero_lt_succ _, ?_, nofun⟩
  show (World.join _ _ _).nextBody < 0x100000000
  rw [World.nextBody_join]
  show 0 + 1 < 0x100000000
  decide

end

end Fight

end Barrage
