import Barrage.Proofs.Fight.Run

/-!
# What the phases of a frame leave aside

A tick looks at the keyboard before the frame, the seed is read when a fight is set up, and random
numbers are drawn by the enemies alone. So every other phase takes a fight with another keyboard,
another seed and another generator to what it makes of the fight, with the same changes: these
parts are its `aside`, and the phase commutes with a change of them (`Fight.mapAside`).

A frame is what happens up to the enemies' turns and what happens from there on
(`Fight.simulate_eq_bind`), so it commutes with a change of the aside if the enemies do
(`Fight.simulate_mapAside`).
-/

namespace Barrage.Fight

variable {K : Type}

/-- The parts of a fight that a frame leaves aside, up to the turns of the enemies. -/
structure Aside where
  keys : Keyboard
  /-- The seed of the settings. -/
  seed : Nat
  rng : Prng

/-- The aside of a fight. -/
def aside (f : Fight K) : Aside := ⟨f.keys, f.settings.seed, f.rng⟩

/-- The fight with a change of its aside. -/
def mapAside (f : Fight K) (change : Aside → Aside) : Fight K :=
  { f with
    keys := (change f.aside).keys
    settings := { f.settings with seed := (change f.aside).seed }
    rng := (change f.aside).rng }

section
variable (f : Fight K) (change : Aside → Aside)

/-- What the timers deliver does not depend on the aside. -/
theorem applyTimers_mapAside (actions : List TimerAction) :
    (f.mapAside change).applyTimers actions =
      ((f.applyTimers actions).1.mapAside change, (f.applyTimers actions).2) := by
  induction actions generalizing f with
  | nil => rfl
  | cons action rest ih =>
    have hstep : (f.mapAside change).applyTimer action =
        ((f.applyTimer action).1.mapAside change, (f.applyTimer action).2) := by
      cases action <;> rfl
    simp only [applyTimers, hstep, ih]

/-- The phase of the timers commutes with a change of the aside. -/
theorem runTimers_mapAside :
    (f.mapAside change).runTimers = (f.runTimers.1.mapAside change, f.runTimers.2) :=
  applyTimers_mapAside { f with timers := f.timers.advance.2 } change f.timers.advance.1

/-- Hits of the player do not depend on the aside. -/
theorem takeHits_mapAside (count : Nat) :
    (f.mapAside change).takeHits count =
      (f.takeHits count).map fun r => (r.1.mapAside change, r.2) := by
  induction count generalizing f with
  | zero => rfl
  | succ count ih =>
    rw [takeHits, takeHits]
    show (hitPlayer f.player f.status f.timers >>= _) = _
    cases hitPlayer f.player f.status f.timers with
    | error fault => rfl
    | ok outcome =>
      cases outcome with
      | none => exact ih f
      | some hit =>
        obtain ⟨player, status, timers⟩ := hit
        show ((({ f with player, status, timers } : Fight K).mapAside change).takeHits count >>=
          _) = Except.map _ (({ f with player, status, timers } : Fight K).takeHits count >>= _)
        rw [ih]
        cases ({ f with player, status, timers } : Fight K).takeHits count <;> rfl

/-- Hits of enemies do not depend on the aside. -/
theorem hitEnemies_mapAside (pairs : List (BodyId × BodyId)) :
    (f.mapAside change).hitEnemies pairs =
      ((f.hitEnemies pairs).1.mapAside change, (f.hitEnemies pairs).2) := by
  induction pairs generalizing f with
  | nil => rfl
  | cons pair rest ih =>
    have hstep : (f.mapAside change).hitEnemyBy pair.1 pair.2 =
        ((f.hitEnemyBy pair.1 pair.2).1.mapAside change, (f.hitEnemyBy pair.1 pair.2).2) := by
      simp only [hitEnemyBy, mapAside]
      split
      · rfl
      · split
        · rfl
        · split <;> rfl
    simp only [hitEnemies, hstep, ih]

/-- The count of a frame does not depend on the aside. -/
theorem countFrame_mapAside :
    (f.mapAside change).countFrame = (f.countFrame.1.mapAside change, f.countFrame.2) := by
  cases hover : f.status.isOver <;> simp [countFrame, mapAside, aside, hover]

/-- No counter is a part of the aside. -/
theorem fits_mapAside : (f.mapAside change).fits = f.fits := rfl

variable [Scalar K]

/-- The phase of the hits of the player commutes with a change of the aside. -/
theorem hitPlayerPhase_mapAside :
    (f.mapAside change).hitPlayerPhase =
      f.hitPlayerPhase.map fun r => (r.1.mapAside change, r.2) :=
  takeHits_mapAside f change _

/-- The world moves on whatever the aside is. -/
theorem moveBodies_mapAside : (f.mapAside change).moveBodies = f.moveBodies.mapAside change := rfl

/-- The phase of the hits of enemies commutes with a change of the aside. -/
theorem hitEnemyPhase_mapAside :
    (f.mapAside change).hitEnemyPhase =
      (f.hitEnemyPhase.1.mapAside change, f.hitEnemyPhase.2) :=
  hitEnemies_mapAside f change _

/-- The player acts on the active keys, and these are no part of the aside. -/
theorem playerPhase_mapAside (active : ActionSet) :
    (f.mapAside change).playerPhase active =
      ((f.playerPhase active).1.mapAside change, (f.playerPhase active).2) := rfl

/-- Enemies come in the same way whatever the aside is. -/
theorem bringInAll_mapAside (arrivals : List Arrival) :
    (f.mapAside change).bringInAll arrivals =
      ((f.bringInAll arrivals).1.mapAside change, (f.bringInAll arrivals).2) := by
  induction arrivals generalizing f with
  | nil => rfl
  | cons a rest ih =>
    have hspawn : Enemy.spawn a.sheet (f.mapAside change).assets (f.mapAside change).world
        enemyGroup (f.mapAside change).settings ((f.mapAside change).sizeOf a.sheet.image) =
          Enemy.spawn a.sheet f.assets f.world enemyGroup f.settings (f.sizeOf a.sheet.image) := rfl
    have hstep : (f.mapAside change).bringIn a =
        ((f.bringIn a).1.mapAside change, (f.bringIn a).2) := by
      rw [bringIn, hspawn, bringIn]
      cases Enemy.spawn a.sheet f.assets f.world enemyGroup f.settings (f.sizeOf a.sheet.image) <;>
        rfl
    simp only [bringInAll, hstep, ih]

/-- The phase of the arrivals commutes with a change of the aside. -/
theorem arrivalPhase_mapAside :
    (f.mapAside change).arrivalPhase = (f.arrivalPhase.1.mapAside change, f.arrivalPhase.2) :=
  bringInAll_mapAside f change _

/-- Bullets are off the screen whatever the aside is. -/
theorem sweepPhase_mapAside : (f.mapAside change).sweepPhase = f.sweepPhase.mapAside change := rfl

/-- The turns of the enemies look at the generator that they are given, and not at the aside. -/
theorem updateEnemies_mapAside (world : World K) (rng : Prng) (enemies : List (Enemy K)) :
    (f.mapAside change).updateEnemies world rng enemies = f.updateEnemies world rng enemies := by
  induction enemies generalizing world rng with
  | nil => rfl
  | cons e rest ih =>
    simp only [updateEnemies, ih]
    rfl

end

/-! ## The two parts of a frame -/

section
variable [Scalar K] (f : Fight K)

/-- The phases of a frame before the turns of the enemies. -/
def approach (keys : ActionSet) : Except Fault (Fight K × List Event) := do
  let (f, timerEvents) := f.runTimers
  let (f, playerHits) ← f.moveBodies.hitPlayerPhase
  let (f, enemyHits) := f.hitEnemyPhase
  let (f, specials) := f.playerPhase keys
  let (f, spawned) := f.arrivalPhase
  return (f, timerEvents ++ playerHits ++ enemyHits ++ specials ++ spawned)

/-- The turns of the enemies and what comes behind them, after the events of the phases before. -/
def conclude (before : List Event) : Except Fault (Fight K × List Event) :=
  let (f, changes) := f.enemyPhase
  let (f, ends) := f.sweepPhase.countFrame
  if f.fits then .ok (f, before ++ changes ++ ends) else .error .counterOverflow

/-- A frame is its two parts, one after the other. -/
theorem simulate_eq_bind (keys : ActionSet) :
    f.simulate keys = f.approach keys >>= fun r => r.1.conclude r.2 := by
  rw [simulate, approach]
  dsimp only
  cases f.runTimers.1.moveBodies.hitPlayerPhase <;> rfl

/-- The first part of a frame commutes with a change of the aside. -/
theorem approach_mapAside (change : Aside → Aside) (keys : ActionSet) :
    (f.mapAside change).approach keys =
      (f.approach keys).map fun r => (r.1.mapAside change, r.2) := by
  rw [approach, approach, runTimers_mapAside]
  dsimp only
  rw [moveBodies_mapAside, hitPlayerPhase_mapAside]
  cases f.runTimers.1.moveBodies.hitPlayerPhase with
  | error fault => rfl
  | ok hit =>
    simp only [Except.map, bind, Except.bind, hitEnemyPhase_mapAside, playerPhase_mapAside,
      arrivalPhase_mapAside]
    rfl

/-- A frame commutes with a change of the aside if the turns of the enemies do. -/
theorem simulate_mapAside (change : Aside → Aside) {keys : ActionSet}
    (henemies : ∀ {m : Fight K} {before : List Event}, f.approach keys = .ok (m, before) →
      (m.mapAside change).enemyPhase = (m.enemyPhase.1.mapAside change, m.enemyPhase.2)) :
    (f.mapAside change).simulate keys =
      (f.simulate keys).map fun r => (r.1.mapAside change, r.2) := by
  rw [simulate_eq_bind, simulate_eq_bind, approach_mapAside]
  cases happroach : f.approach keys with
  | error fault => rfl
  | ok r =>
    show (r.1.mapAside change).conclude r.2 = (r.1.conclude r.2).map _
    rw [conclude, henemies happroach]
    dsimp only
    rw [sweepPhase_mapAside, countFrame_mapAside, fits_mapAside, conclude]
    dsimp only
    split <;> rfl

variable {f}

/-- What the phases keep holds before the turns of the enemies. -/
theorem KeptByPhases.approach {P : Fight K → Prop} (hP : KeptByPhases P) {keys : ActionSet}
    {m : Fight K} {before : List Event} (h : f.approach keys = .ok (m, before)) (hf : P f) :
    P m := by
  obtain ⟨⟨hit, playerHits⟩, hhit, h⟩ := bind_eq_ok_iff.1 h
  cases h
  have hhit : P hit := hP.hitPlayerPhase hhit (hP.moveBodies (hP.runTimers hf))
  exact hP.arrivalPhase (hP.playerPhase keys (hP.hitEnemyPhase hhit))

end

end Barrage.Fight
