import Barrage.Proofs.Fight.Arrivals
import Barrage.Proofs.Fight.Aside
import Barrage.Proofs.Fight.Bounds
import Barrage.Proofs.Prng
import Barrage.Runner.Demo

/-!
# Where the seed matters

Random numbers are drawn for the velocities of movements, and only for a range whose two ends
differ: a range without a choice has a single velocity and draws nothing. When the movements of all
enemies on the timeline are of this kind (`Assets.Rigid`), their turns take every generator to the
same result and leave it as it is (`Fight.updateEnemies_of_rigid`).

All else leaves the generator and the seed aside (`Fight.simulate_mapAside`), so that two fights
which differ in the seed go through the same frames, tell the same events and fail in the same way
(`Fight.run_reseeded`).
-/

namespace Barrage

variable {K : Type}

/-! ## Movements without a choice -/

/-- A range whose two ends are the same. -/
def Range.Rigid (r : Range) : Prop := r.first = r.second

/-- In a range without a choice the upper end is not above the lower one. -/
theorem Range.Rigid.hi_le_lo {r : Range} (h : r.Rigid) : r.hi ≤ r.lo := by
  have h : r.first = r.second := h
  rw [hi, lo, h, ite_self]
  exact Int64.le_refl _

/-- An entry that leaves no choice. -/
def MoveScript.Rigid : MoveScript K → Prop
  | randomized _ x y _ => x.Rigid ∧ y.Rigid
  | _ => True

/-- A maneuver that draws nothing. -/
def Maneuver.Rigid : Maneuver K → Prop
  | fixed _ => True
  | drawn x y _ => x.Rigid ∧ y.Rigid

/-- A routine whose maneuvers draw nothing. -/
def Routine.Rigid (r : Routine K) : Prop :=
  ∀ {time : Nat} {maneuver : Maneuver K}, r.moves[time]? = some maneuver → maneuver.Rigid

/-- An enemy whose routines draw nothing. -/
def Enemy.Rigid (e : Enemy K) : Prop := ∀ r ∈ e.sequence.routines, r.Rigid

/-- An enemy that is hit draws as little as before. -/
theorem Enemy.Rigid.damage {e : Enemy K} (h : e.Rigid) (amount : Nat) : (e.damage amount).Rigid :=
  forall_routines_damage (P := Routine.Rigid) (fun _ hr => hr) h

/-- An enemy that has had a turn draws as little as before. -/
theorem Enemy.Rigid.turn {e e' : Enemy K} (h : e.Rigid) (hturn : e.Turn e') : e'.Rigid :=
  hturn.forall_routines (P := Routine.Rigid) (fun _ _ hr => hr) h

section
variable [Scalar K]

/-- Without a choice a maneuver gives one movement, whatever the generator, and leaves this as it
is. -/
theorem Maneuver.resolve_of_rigid {maneuver : Maneuver K} (h : maneuver.Rigid) (g g' : Prng) :
    maneuver.resolve g = ((maneuver.resolve g').1, g) := by
  cases maneuver with
  | fixed m => rfl
  | drawn x y acceleration =>
    obtain ⟨hx, hy⟩ := h
    simp only [resolve, Prng.between_of_le hx.hi_le_lo, Prng.between_of_le hy.hi_le_lo]

/-- The maneuver of an entry without a choice draws nothing. -/
theorem MoveScript.Rigid.maneuver {entry : MoveScript K} (h : entry.Rigid) {times : List Nat}
    {maneuver : Maneuver K} (hmaneuver : entry.maneuver? = some (times, maneuver)) :
    maneuver.Rigid := by
  cases entry with
  | randomized =>
    cases hmaneuver
    exact h
  | fixed | stop =>
    cases hmaneuver
    trivial
  | unknown => cases hmaneuver

/-- A routine draws nothing if no entry of its script leaves a choice. -/
theorem Routine.rigid_ofScript {s : RoutineScript K} (h : ∀ entry ∈ s.moves, entry.Rigid) :
    (ofScript s).Rigid := by
  intro time maneuver hmaneuver
  obtain ⟨entry, hentry, times, hadded, -⟩ := exists_entry_of_moves hmaneuver
  exact (h entry hentry).maneuver hadded

/-- The movement of a routine that draws nothing does not depend on the generator and leaves it as
it is. -/
theorem Sequence.currentMovement_of_rigid {s : Sequence K} (h : ∀ r ∈ s.routines, r.Rigid)
    (g g' : Prng) :
    s.currentMovement g = ((s.currentMovement g').1, (s.currentMovement g').2.1, g) := by
  cases hr : s.current? with
  | none => rw [currentMovement, currentMovement, hr]
  | some r =>
    have hlookup : r.moves.lookup r.time r.ongoing g =
        ((r.moves.lookup r.time r.ongoing g').1, g) := by
      rw [MoveTable.lookup, MoveTable.lookup]
      split
      · rfl
      · next hmaneuver =>
        exact Maneuver.resolve_of_rigid (h r (List.mem_of_getElem? hr) hmaneuver) g g'
    rw [currentMovement_of_current? hr, currentMovement_of_current? hr, hlookup]

/-- The turn of an enemy that draws nothing is the same with every generator, and leaves it as it
is. -/
theorem Enemy.update_of_rigid {e : Enemy K} (h : e.Rigid) (world : World K) (g g' : Prng)
    (group : GroupId) (dt : K) (sizeOf : String → Size K) :
    e.update world g group dt sizeOf = { e.update world g' group dt sizeOf with rng := g } := by
  rw [update, update]
  cases hfound : e.transition? with
  | none => rfl
  | some found =>
    have hrigid : ∀ r ∈ found.sequence.routines, r.Rigid := routines_transition? hfound ▸ h
    dsimp only
    rw [move, Sequence.currentMovement_of_rigid hrigid g g']
    rfl

/-! ## Contents without a choice -/

/-- No routine of an arrival leaves a choice. -/
def Arrival.Rigid (a : Arrival) (assets : Assets K) : Prop :=
  ∀ name ∈ a.sheet.routines, ∀ {script : RoutineScript K}, assets.routine name = .ok script →
    ∀ entry ∈ script.moves, entry.Rigid

/-- No routine of an enemy on the timeline leaves a choice. -/
def Assets.Rigid (assets : Assets K) : Prop :=
  ∀ {entries : List LevelEntry}, assets.level = .ok entries → ∀ e ∈ entries, e.isEnemy = true →
    ∀ {sheet : EnemySheet}, assets.enemy e.subject = .ok sheet → ∀ name ∈ sheet.routines,
      ∀ {script : RoutineScript K}, assets.routine name = .ok script →
        ∀ entry ∈ script.moves, entry.Rigid

/-- An enemy that comes from an arrival without a choice draws nothing. -/
theorem Enemy.rigid_spawn {a : Arrival} {assets : Assets K} (h : a.Rigid assets) {w w' : World K}
    {group : GroupId} {settings : Settings K} {size : Size K} {e : Enemy K}
    (hspawn : Enemy.spawn a.sheet assets w group settings size = .ok (e, w')) : e.Rigid := by
  refine forall_routines_spawn (fun name hname script hroutine => ?_) hspawn
  exact Routine.rigid_ofScript (h name hname hroutine)

/-! ## Fights without a choice -/

namespace Fight

/-- Enemies that draw nothing have the same turns with every generator, and leave it as it is. -/
theorem updateEnemies_of_rigid (f : Fight K) {enemies : List (Enemy K)}
    (h : ∀ e ∈ enemies, e.Rigid) (world : World K) (g g' : Prng) :
    f.updateEnemies world g enemies = { f.updateEnemies world g' enemies with rng := g } := by
  induction enemies generalizing world g g' with
  | nil => rfl
  | cons e rest ih =>
    obtain ⟨he, hrest⟩ := List.forall_mem_cons.1 h
    rw [updateEnemies, updateEnemies, e.update_of_rigid he world g g']
    dsimp only
    rw [ih hrest _ g (e.update world g' enemyBullets f.settings.dt f.sizeOf).rng]
    split <;> rfl

/-- A fight that draws nothing: its generator is the one that it was given. -/
structure Rigid (assets : Assets K) (arrivals : List Arrival) (rng : Prng) (f : Fight K) :
    Prop where
  assets_eq : f.assets = assets
  arrivals_eq : f.arrivals = arrivals
  rng_eq : f.rng = rng
  enemies : ∀ e ∈ f.enemies, e.Rigid

variable {assets : Assets K} {arrivals : List Arrival} {rng : Prng} {f g : Fight K}

/-- Every phase leaves the generator of such a fight alone. -/
theorem keptByPhases_rigid (harrivals : ∀ a ∈ arrivals, a.Rigid assets) (rng : Prng) :
    KeptByPhases (Rigid assets arrivals rng) where
  withKeys _ h := ⟨h.assets_eq, h.arrivals_eq, h.rng_eq, h.enemies⟩
  runTimers {f} h := by
    obtain ⟨energy, htimers⟩ := f.runTimers_eq
    rw [htimers]
    exact ⟨h.assets_eq, h.arrivals_eq, h.rng_eq, h.enemies⟩
  moveBodies h := ⟨h.assets_eq, h.arrivals_eq, h.rng_eq, h.enemies⟩
  hitPlayerPhase hhits h := by
    rcases hitPlayerPhase_cases hhits with ⟨rfl, -, -⟩ | ⟨-, -, id, timers, -, rfl, -⟩
    · exact h
    · exact ⟨h.assets_eq, h.arrivals_eq, h.rng_eq, h.enemies⟩
  hitEnemyPhase h := by
    obtain ⟨world, enemies, hstruck, henemies⟩ :=
      exists_hitEnemyPhase_eq (fun _ amount he => Enemy.Rigid.damage he amount) h.enemies
    rw [hstruck]
    exact ⟨h.assets_eq, h.arrivals_eq, h.rng_eq, henemies⟩
  playerPhase _ h := ⟨h.assets_eq, h.arrivals_eq, h.rng_eq, h.enemies⟩
  arrivalPhase {f} h := by
    have hcome : ∀ a ∈ f.arrivals, a.Rigid f.assets := by
      rw [h.assets_eq, h.arrivals_eq]
      exact harrivals
    obtain ⟨world, enemies, log, hjoined, henemies⟩ :=
      exists_arrivalPhase_eq (fun a ha => Enemy.rigid_spawn (hcome a ha)) h.enemies
    rw [hjoined]
    exact ⟨h.assets_eq, h.arrivals_eq, h.rng_eq, henemies⟩
  enemyPhase {f} h := by
    refine ⟨h.assets_eq, h.arrivals_eq, ?_,
      forall_enemyPhase (fun _ _ hturn he => Enemy.Rigid.turn he hturn) h.enemies⟩
    rw [← h.rng_eq]
    exact congrArg (·.rng) (f.updateEnemies_of_rigid h.enemies f.world f.rng f.rng)
  sweepPhase h := ⟨h.assets_eq, h.arrivals_eq, h.rng_eq, h.enemies⟩
  countFrame {f} h := by
    rw [countFrame_eq]
    exact ⟨h.assets_eq, h.arrivals_eq, h.rng_eq, h.enemies⟩

/-- The fight as if it had been set up with another seed. -/
def reseeded (f : Fight K) (seed : Nat) : Fight K :=
  f.mapAside fun a => { a with seed, rng := .seeded (UInt64.ofNat seed) }

/-- The turns of enemies that draw nothing commute with a change of the seed. -/
theorem enemyPhase_reseeded (h : f.Rigid assets arrivals rng) (seed : Nat) :
    (f.reseeded seed).enemyPhase = (f.enemyPhase.1.reseeded seed, f.enemyPhase.2) := by
  have hupdates := f.updateEnemies_mapAside
    (fun a => { a with seed, rng := .seeded (UInt64.ofNat seed) }) f.world
    (.seeded (UInt64.ofNat seed)) f.enemies
  rw [f.updateEnemies_of_rigid h.enemies f.world _ f.rng] at hupdates
  simp only [enemyPhase, reseeded, mapAside, aside] at hupdates ⊢
  rw [hupdates]

/-- A tick of a fight that draws nothing is the same under another seed. -/
theorem tick_reseeded (harrivals : ∀ a ∈ arrivals, a.Rigid assets)
    (h : f.Rigid assets arrivals rng) (seed : Nat) (raw : ActionSet) :
    (f.reseeded seed).tick raw = (f.tick raw).map fun r => (r.1.reseeded seed, r.2) := by
  have hkept := keptByPhases_rigid harrivals rng
  have hsim : (({ f with keys := f.keys.update raw } : Fight K).reseeded seed).simulate
      (f.keys.update raw).active = _ := simulate_mapAside _ _ fun happroach =>
    enemyPhase_reseeded (hkept.approach happroach (hkept.withKeys _ h)) seed
  cases hended : f.ended with
  | true =>
    have hended' : (f.reseeded seed).ended = true := hended
    rw [tick_of_ended hended, tick_of_ended hended']
    rfl
  | false =>
    have hended' : (f.reseeded seed).ended = false := hended
    cases hpause : (f.keys.update raw).active.has .pause with
    | true =>
      have hpause' : ((f.reseeded seed).keys.update raw).active.has .pause = true := hpause
      rw [tick_of_pause hended hpause, tick_of_pause hended' hpause']
      rfl
    | false =>
      have hpause' : ((f.reseeded seed).keys.update raw).active.has .pause = false := hpause
      rw [tick_of_play hended hpause, tick_of_play hended' hpause']
      refine (congrArg (Except.map _) hsim).trans ?_
      cases ({ f with keys := f.keys.update raw } : Fight K).simulate (f.keys.update raw).active <;>
        rfl

/-- A run goes the same way with another seed. -/
theorem run_reseeded_of_rigid (harrivals : ∀ a ∈ arrivals, a.Rigid assets)
    (h : f.Rigid assets arrivals rng) (seed : Nat) (calls : List Call) :
    (f.reseeded seed).run calls = (f.run calls).map fun r => (r.1.reseeded seed, r.2) := by
  induction calls generalizing f with
  | nil => rfl
  | cons call rest ih =>
    cases call with
    | resume =>
      rw [run, run]
      exact ih (f := f.resume) ((keptByPhases_rigid harrivals rng).withKeys _ h)
    | tick raw =>
      rw [run, run, tick_reseeded harrivals h]
      cases htick : f.tick raw with
      | error fault => rfl
      | ok r =>
        obtain ⟨f', report⟩ := r
        have hrest := ih ((keptByPhases_rigid harrivals rng).tick htick h)
        simp only [Except.map, bind, Except.bind] at hrest ⊢
        rw [hrest]
        cases f'.run rest <;> rfl

/-- Where no movement leaves a choice, the seed is of no account. A fight that is set up with
another seed fails in the same way or is the same but for the seed and the generator; every sequence
of calls takes it through the same frames with the same reports, or to the same fault, and its
generator stays as it is. -/
theorem run_reseeded (h : assets.Rigid) (settings : Settings K) (seed : Nat) :
    start assets { settings with seed } =
      (start assets settings).map (fun f => f.reseeded seed) ∧
    ∀ {f : Fight K}, start assets settings = .ok f → ∀ calls : List Call,
      (f.reseeded seed).run calls = (f.run calls).map (fun r => (r.1.reseeded seed, r.2)) ∧
      ∀ {g : Fight K} {reports : List TickReport}, f.run calls = .ok (g, reports) →
        g.rng = f.rng := by
  constructor
  · rw [start, start]
    cases Level.load assets <;> rfl
  · intro f hstart calls
    obtain ⟨player, sizes, entries, arrivals, -, -, hlevel, harrivals, rfl⟩ := start_eq_ok hstart
    have hrigid : ∀ a ∈ arrivals, a.Rigid assets := by
      intro a ha name hname script hscript
      obtain ⟨e, he, henemy, hsheet, -⟩ := Level.exists_entry_of_mem_arrivals harrivals ha
      exact h hlevel e he henemy hsheet name hname hscript
    have hf : (ofLevel assets settings ⟨player, sizes, arrivals⟩).Rigid assets arrivals
        (.seeded (UInt64.ofNat settings.seed)) := ⟨rfl, rfl, rfl, nofun⟩
    refine ⟨run_reseeded_of_rigid hrigid hf seed calls, fun hrun => ?_⟩
    exact ((keptByPhases_rigid hrigid _).run hrun hf).rng_eq

end Fight

end

namespace Duel

/-- A routine for the enemy of the duel that drifts off, with ranges that leave no choice. -/
def drift : Json Binary64 :=
  Demo.record [("name", .str "drift"), ("duration", .int 9),
    ("moves", .arr [Demo.record [("type", .str "Randomized"), ("times", Demo.ints [0]),
      ("x_velo_range", Demo.ints [30, 30]), ("y_velo_range", Demo.ints [-70, -70])]])]

/-- The assets of the duel in which the enemy drifts off. -/
def driftAssets : Assets Binary64 := assets.insert "stand" drift

/-- The routine in which the enemy drifts off leaves no choice. -/
theorem rigid_driftAssets : driftAssets.Rigid := by
  have hlevel : driftAssets.level.toOption = some [⟨0, "enemy", "rival"⟩] := by decide +kernel
  have henemy : (driftAssets.enemy "rival").toOption.map (·.routines) = some ["stand"] := by
    decide +kernel
  have hroutine : (driftAssets.routine "stand").toOption.map (·.moves) =
      some [.randomized [0] ⟨30, 30⟩ ⟨-70, -70⟩ .zero] := by
    decide +kernel
  intro entries hentries e he _ sheet hsheet name hname script hscript entry hentry
  rw [hentries] at hlevel
  obtain rfl : entries = [⟨0, "enemy", "rival"⟩] := Option.some.inj hlevel
  obtain rfl := List.mem_singleton.1 he
  rw [hsheet] at henemy
  rw [show sheet.routines = ["stand"] from Option.some.inj henemy] at hname
  obtain rfl := List.mem_singleton.1 hname
  rw [hscript] at hroutine
  rw [show script.moves = _ from Option.some.inj hroutine] at hentry
  obtain rfl := List.mem_singleton.1 hentry
  exact ⟨rfl, rfl⟩

/-- Two duels with different seeds in which the enemy drifts off. -/
theorem run_reseeded_drift : driftAssets.Rigid ∧ ∃ f g reports,
    Fight.start driftAssets settings = .ok f ∧
    Fight.start driftAssets { settings with seed := 7 } = .ok (f.reseeded 7) ∧
    f.run [.tick (.ofList [.fire]), .tick .empty] = .ok (g, reports) ∧
    (f.reseeded 7).run [.tick (.ofList [.fire]), .tick .empty] = .ok (g.reseeded 7, reports) ∧
    g.rng = f.rng ∧ (g.reseeded 7).rng ≠ g.rng ∧ g.enemies.length = 1 := by
  refine ⟨rigid_driftAssets, ?_⟩
  have hrun : ((Fight.start driftAssets settings).toOption.bind fun f =>
      (f.run [.tick (.ofList [.fire]), .tick .empty]).toOption.map fun r =>
        (decide ((r.1.reseeded 7).rng ≠ r.1.rng), r.1.enemies.length)) = some (true, 1) := by
    decide +kernel
  obtain ⟨f, hstart, hrun⟩ := toOption_bind_eq_some_iff.1 hrun
  obtain ⟨⟨g, reports⟩, hrun, hend⟩ := toOption_map_eq_some_iff.1 hrun
  rw [Prod.mk.injEq] at hend
  obtain ⟨hother, hruns⟩ := Fight.run_reseeded rigid_driftAssets settings 7
  obtain ⟨hsame, hrng⟩ := hruns hstart [.tick (.ofList [.fire]), .tick .empty]
  rw [hstart] at hother
  rw [hrun] at hsame
  exact ⟨f, g, reports, hstart, hother, hrun, hsame, hrng hrun, of_decide_eq_true hend.1, hend.2⟩

end Duel

end Barrage
