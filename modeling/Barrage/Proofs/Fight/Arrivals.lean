import Barrage.Proofs.Fight.Integrity
import Barrage.Proofs.Fight.Turns
import Barrage.Proofs.Level

/-!
# The timeline is played

The enemies that come into a fight are those of the timeline, each on its frame, and those of one
frame in the order of the timeline. Nothing can keep one of them away: all its routines were read
when the fight was set up (`Fight.Prepared`).

No phase takes a number of a body back (`Fight.keptByPhases_nextBody`), so the enemies of one frame
get ascending numbers, larger than those of all bodies before (`Stages.exists_spawns_eq`). In that
order a tick tells of them, and the order of the timeline survives the sort. `Fight.run_arrivals`
says what this comes to over a whole run.
-/

namespace Barrage

variable {K : Type}

/-- The enemies that came. -/
def spawns (events : List Event) : List Event.Spawn := events.filterMap Event.spawn?

/-- The arrivals that events tell come one after the other. -/
theorem spawns_append (events later : List Event) :
    spawns (events ++ later) = spawns events ++ spawns later := List.filterMap_append

/-- Whether a warning says that an enemy could not come. -/
def Warning.isFailure : Warning → Bool
  | spawnFailed _ _ => true
  | _ => false

section
variable [Scalar K]

/-! ## Enemies that come -/

/-- An enemy that comes gets the next number, and with it the role of its sheet. -/
theorem Enemy.spawn_eq_ok {sheet : EnemySheet} {assets : Assets K} {w w' : World K}
    {group : GroupId} {settings : Settings K} {size : Size K} {e : Enemy K}
    (h : spawn sheet assets w group settings size = .ok (e, w')) :
    e.role = sheet.role assets w.nextBody ∧ w'.nextBody = w.nextBody + 1 := by
  obtain ⟨scripts, hscripts, h⟩ := map_eq_ok_iff.1 h
  cases h
  refine ⟨?_, World.nextBody_join _ _⟩
  have hnames : (scripts.map Routine.ofScript).map (·.name) = scripts.map (·.name) := by
    rw [List.map_map]
    exact List.map_congr_left fun s _ => Routine.name_ofScript s
  rw [EnemySheet.role, EnemySheet.routineNames, hscripts, Except.toOption, Option.getD_some,
    ← hnames]
  rfl

/-- An arrival that is ready can come into every world. -/
theorem Arrival.Ready.spawn {a : Arrival} {assets : Assets K} (h : a.Ready assets) (w : World K)
    (group : GroupId) (settings : Settings K) (size : Size K) :
    ∃ e w', Enemy.spawn a.sheet assets w group settings size = .ok (e, w') := by
  obtain ⟨scripts, hscripts⟩ := h
  rw [Enemy.spawn, hscripts]
  exact ⟨_, _, rfl⟩

/-- No warning about a pattern says that an enemy could not come. -/
theorem PatternScript.isFailure_warnings (routine : String) (p : PatternScript K) :
    ∀ w ∈ p.warnings routine, w.isFailure = false := by
  have htiming : ∀ t, ∀ w ∈ p.timingWarnings routine t, w.isFailure = false := by
    intro t
    rw [timingWarnings]
    split
    · exact List.forall_mem_singleton.2 rfl
    · exact nofun
  cases p with
  | volley v => exact nofun
  | row r =>
    rw [warnings]
    split
    · exact nofun
    · split
      · exact htiming r.timing
      · exact List.forall_mem_singleton.2 rfl
  | circle c =>
    rw [warnings]
    split
    · exact nofun
    · split
      · exact htiming c.timing
      · exact List.forall_mem_singleton.2 rfl
  | twister t =>
    rw [warnings]
    split
    · exact nofun
    · split
      · exact List.forall_mem_singleton.2 rfl
      · split
        · exact List.forall_mem_singleton.2 rfl
        · exact nofun
  | unknown => exact List.forall_mem_singleton.2 rfl

omit [Scalar K] in
/-- No warning about a movement says that an enemy could not come. -/
theorem MoveScript.isFailure_warnings (routine : String) (m : MoveScript K) :
    ∀ w ∈ m.warnings routine, w.isFailure = false := by
  cases m with
  | unknown => exact List.forall_mem_singleton.2 rfl
  | _ => exact nofun

/-- What an enemy that comes leaves out is no failure. -/
theorem Enemy.isFailure_spawnWarnings (sheet : EnemySheet) (assets : Assets K) :
    ∀ w ∈ spawnWarnings sheet assets, w.isFailure = false := by
  intro w hw
  obtain ⟨script, -, hw⟩ := List.mem_flatMap.1 hw
  cases hscript : script.toOption with
  | none =>
    rw [hscript] at hw
    cases hw
  | some s =>
    rw [hscript] at hw
    rcases List.mem_append.1 hw with hw | hw
    · obtain ⟨m, -, hw⟩ := List.mem_flatMap.1 hw
      exact m.isFailure_warnings s.name w hw
    · obtain ⟨p, -, hw⟩ := List.mem_flatMap.1 hw
      exact p.isFailure_warnings s.name w hw

/-! ## Numbers of bodies -/

namespace Fight

variable {f g : Fight K}

omit [Scalar K] in
/-- The roles of the enemies say which bodies are theirs. -/
theorem map_body_roles (f : Fight K) : f.roles.map (·.body) = f.enemyBodies := List.map_map

omit [Scalar K] in
/-- Hits of enemies give out no number. -/
theorem nextBody_hitEnemies (f : Fight K) (pairs : List (BodyId × BodyId)) :
    (f.hitEnemies pairs).1.world.nextBody = f.world.nextBody := by
  induction pairs generalizing f with
  | nil => rfl
  | cons pair rest ih =>
    rw [hitEnemies_cons, ih]
    obtain ⟨-, hnone⟩ | ⟨-, i, e, amount, -, -, -, hhit⟩ := f.hitEnemyBy_cases pair.1 pair.2
    · rw [hnone]
    · rw [hhit]
      exact f.world.nextBody_destroy _

/-- The updates of enemies take no number back. -/
theorem le_nextBody_updateEnemies (f : Fight K) (w : World K) (rng : Prng)
    (enemies : List (Enemy K)) :
    w.nextBody ≤ (f.updateEnemies w rng enemies).world.nextBody := by
  induction enemies generalizing w rng with
  | nil => exact Nat.le_refl _
  | cons e rest ih =>
    have hfirst := e.le_nextBody_update w rng enemyBullets f.settings.dt f.sizeOf
    rw [updateEnemies]
    split
    · exact Nat.le_trans hfirst (ih _ _)
    · exact Nat.le_trans hfirst (ih _ _)

/-- An arrival takes no number back. -/
theorem le_nextBody_bringIn (f : Fight K) (a : Arrival) :
    f.world.nextBody ≤ (f.bringIn a).1.world.nextBody := by
  rw [bringIn]
  split
  · next enemy world hspawn =>
    show f.world.nextBody ≤ world.nextBody
    rw [(Enemy.spawn_eq_ok hspawn).2]
    exact Nat.le_succ _
  · exact Nat.le_refl _

/-- No phase takes a number back. -/
theorem keptByPhases_nextBody (n : Nat) :
    KeptByPhases fun f : Fight K => n ≤ f.world.nextBody where
  withKeys _ h := h
  runTimers {f} h := by
    obtain ⟨energy, htimers⟩ := f.runTimers_eq
    rw [htimers]
    exact h
  moveBodies h := h
  hitPlayerPhase hhits h := by
    rcases hitPlayerPhase_cases hhits with ⟨rfl, -, -⟩ | ⟨-, -, id, timers, -, rfl, -⟩
    · exact h
    · exact h
  hitEnemyPhase {f} h := by
    show n ≤ (f.hitEnemies _).1.world.nextBody
    rw [nextBody_hitEnemies]
    exact h
  playerPhase {f} keys h := by
    have hupdate : f.world.nextBody ≤
        (f.player.update keys f.world playerBullets f.sizeOf).2.2.nextBody := by
      rw [Player.update, Player.fire]
      split
      · exact World.le_nextBody_spawnShots (w := f.world.setVelocity _ _) ..
      · exact Nat.le_refl _
    refine Nat.le_trans h (Nat.le_trans hupdate (Nat.le_of_eq ?_))
    rw [Fight.playerPhase]
    dsimp only
    rw [useSpecial]
    split
    · dsimp only
      split <;> rfl
    · rfl
  arrivalPhase {f} h := by
    have hall : ∀ {g : Fight K} (arrivals : List Arrival),
        g.world.nextBody ≤ (g.bringInAll arrivals).1.world.nextBody := by
      intro g arrivals
      induction arrivals generalizing g with
      | nil => exact Nat.le_refl _
      | cons a rest ih => exact Nat.le_trans (g.le_nextBody_bringIn a) ih
    exact Nat.le_trans h (hall _)
  enemyPhase {f} h := by
    refine Nat.le_trans h (Nat.le_trans (f.le_nextBody_updateEnemies f.world f.rng f.enemies) ?_)
    exact Nat.le_of_eq (World.nextBody_foldl_destroy _).symm
  sweepPhase {f} h := by
    refine Nat.le_trans h (Nat.le_of_eq ?_)
    exact ((World.nextBody_foldl_destroy _).trans (World.nextBody_foldl_destroy _)).symm
  countFrame {f} h := by
    rw [countFrame_eq]
    exact h

/-! ## Arrivals that are ready -/

/-- The arrivals of a fight are ready, and no enemy was kept away so far. -/
structure Prepared (assets : Assets K) (arrivals : List Arrival) (f : Fight K) : Prop where
  assets_eq : f.assets = assets
  arrivals_eq : f.arrivals = arrivals
  ready : ∀ a ∈ arrivals, a.Ready assets
  no_failure : ∀ w ∈ f.log, w.isFailure = false

/-- An arrival that is ready comes, and gets the next number. -/
theorem bringIn_of_ready {a : Arrival} (h : a.Ready f.assets) : ∃ e w',
    f.bringIn a =
      ({ f with world := w', log := f.log ++ Enemy.spawnWarnings a.sheet f.assets
                enemies := f.enemies ++ [e] },
        [.on f.frame (.enemySpawned f.world.nextBody a.sheet.image)]) ∧
    e.role = a.sheet.role f.assets f.world.nextBody ∧ w'.nextBody = f.world.nextBody + 1 := by
  obtain ⟨e, w', hspawn⟩ := h.spawn f.world enemyGroup f.settings (f.sizeOf a.sheet.image)
  obtain ⟨hrole, hnext⟩ := Enemy.spawn_eq_ok hspawn
  have hbody : e.body = f.world.nextBody := congrArg Role.body hrole
  have himage : e.image = a.sheet.image := congrArg Role.image hrole
  refine ⟨e, w', ?_, hrole, hnext⟩
  rw [bringIn, hspawn, ← hbody, ← himage]

/-- Every phase leaves the arrivals ready. -/
theorem keptByPhases_prepared (assets : Assets K) (arrivals : List Arrival) :
    KeptByPhases (Prepared assets arrivals) where
  withKeys _ h := ⟨h.assets_eq, h.arrivals_eq, h.ready, h.no_failure⟩
  runTimers {f} h := by
    obtain ⟨energy, htimers⟩ := f.runTimers_eq
    rw [htimers]
    exact ⟨h.assets_eq, h.arrivals_eq, h.ready, h.no_failure⟩
  moveBodies h := ⟨h.assets_eq, h.arrivals_eq, h.ready, h.no_failure⟩
  hitPlayerPhase hhits h := by
    rcases hitPlayerPhase_cases hhits with ⟨rfl, -, -⟩ | ⟨-, -, id, timers, -, rfl, -⟩
    · exact h
    · exact ⟨h.assets_eq, h.arrivals_eq, h.ready, h.no_failure⟩
  hitEnemyPhase {f} h := by
    obtain ⟨⟨world, enemies, hhits⟩, -⟩ :=
      f.hitEnemies_eq (f.world.overlapPairs playerBullets enemyGroup)
    rw [Fight.hitEnemyPhase, hhits]
    exact ⟨h.assets_eq, h.arrivals_eq, h.ready, h.no_failure⟩
  playerPhase {f} keys h := by
    refine ⟨h.assets_eq, h.arrivals_eq, h.ready, ?_⟩
    intro w hw
    rcases List.mem_append.1 hw with hw | hw
    · exact h.no_failure w hw
    · -- a special that is not known is not a failure
      rw [useSpecial] at hw
      split at hw
      · dsimp only at hw
        split at hw
        · cases hw
        · rw [List.mem_singleton.1 hw]
          rfl
      · cases hw
  arrivalPhase {f} h := by
    rw [Fight.arrivalPhase]
    have hready : ∀ a ∈ f.arrivals.filter (·.time == f.frame), a.Ready assets := by
      intro a ha
      exact h.ready a (h.arrivals_eq ▸ (List.mem_filter.1 ha).1)
    generalize f.arrivals.filter (·.time == f.frame) = coming at hready
    induction coming generalizing f with
    | nil => exact h
    | cons a rest ih =>
      refine ih (f := (f.bringIn a).1) ?_ fun b hb => hready b (List.mem_cons_of_mem _ hb)
      have ha : a.Ready f.assets := h.assets_eq ▸ hready a List.mem_cons_self
      obtain ⟨e, w', hfirst, -⟩ := bringIn_of_ready ha
      rw [hfirst]
      refine ⟨h.assets_eq, h.arrivals_eq, h.ready, ?_⟩
      intro w hw
      rcases List.mem_append.1 hw with hw | hw
      · exact h.no_failure w hw
      · exact Enemy.isFailure_spawnWarnings _ _ w hw
  enemyPhase h := ⟨h.assets_eq, h.arrivals_eq, h.ready, h.no_failure⟩
  sweepPhase h := ⟨h.assets_eq, h.arrivals_eq, h.ready, h.no_failure⟩
  countFrame {f} h := by
    rw [countFrame_eq]
    exact ⟨h.assets_eq, h.arrivals_eq, h.ready, h.no_failure⟩

/-- Arrivals that are ready come one after the other. Each gets the next number, and with it the
role of its sheet. -/
theorem bringInAll_of_ready {arrivals : List Arrival} (h : ∀ a ∈ arrivals, a.Ready f.assets) :
    (f.bringInAll arrivals).2 = (arrivals.zipIdx f.world.nextBody).map (fun a =>
      .on f.frame (.enemySpawned a.2 a.1.sheet.image)) ∧
    (f.bringInAll arrivals).1.roles = f.roles ++ (arrivals.zipIdx f.world.nextBody).map (fun a =>
      a.1.sheet.role f.assets a.2) ∧
    (f.bringInAll arrivals).1.world.nextBody = f.world.nextBody + arrivals.length := by
  induction arrivals generalizing f with
  | nil => exact ⟨rfl, (List.append_nil _).symm, rfl⟩
  | cons a rest ih =>
    obtain ⟨e, w', hfirst, hrole, hnext⟩ := bringIn_of_ready (h a List.mem_cons_self)
    have hrest := ih (f := (f.bringIn a).1) (by
      rw [hfirst]
      exact fun b hb => h b (List.mem_cons_of_mem _ hb))
    rw [bringInAll_cons, hfirst]
    rw [hfirst] at hrest
    dsimp only [roles] at hrest ⊢
    rw [hnext, List.map_append, List.map_singleton, hrole] at hrest
    rw [hrest.1, hrest.2.1, hrest.2.2, List.zipIdx_cons, List.map_cons, List.length_cons,
      Nat.add_right_comm, Nat.add_assoc, List.append_assoc]
    exact ⟨rfl, rfl, rfl⟩

end Fight

/-! ## Arrivals over a frame -/

section
variable {f g : Fight K} {keys : ActionSet} {events : List Event} {assets : Assets K}
  {arrivals : List Arrival}

/-- On a frame the enemies come whose frame it is. -/
theorem Stages.joined_of_prepared (s : Stages f keys g events) (h : f.Prepared assets arrivals) :
    s.happened .arrivals = ((arrivals.filter (·.time == f.frame)).zipIdx s.acted.world.nextBody).map
      (fun a => .on f.frame (.enemySpawned a.2 a.1.sheet.image)) ∧
    s.joined.roles = s.acted.roles ++
      ((arrivals.filter (·.time == f.frame)).zipIdx s.acted.world.nextBody).map
        (fun a => a.1.sheet.role assets a.2) ∧
    s.joined.world.nextBody =
      s.acted.world.nextBody + (arrivals.filter (·.time == f.frame)).length := by
  have hacted := s.kept_acted (Fight.keptByPhases_prepared assets arrivals) h
  have hready : ∀ a ∈ arrivals.filter (·.time == f.frame), a.Ready s.acted.assets := by
    rw [hacted.assets_eq]
    exact fun a ha => h.ready a (List.mem_filter.1 ha).1
  have hcome := Fight.bringInAll_of_ready hready
  have hjoined := s.joined_eq
  rw [Fight.arrivalPhase, hacted.arrivals_eq, s.frame_acted] at hjoined
  rwa [hjoined, s.frame_acted, hacted.assets_eq] at hcome

/-- A frame tells of the enemies whose frame it is, in the order of the timeline, with ascending
numbers that were not handed out before. -/
theorem Stages.spawns_eq (s : Stages f keys g events) (h : f.Prepared assets arrivals) :
    spawns (Event.sort events) =
      ((arrivals.filter (·.time == f.frame)).zipIdx s.acted.world.nextBody).map
        (fun a => ⟨f.frame, a.2, a.1.sheet.image⟩) := by
  have hhappened := (s.joined_of_prepared h).1
  rw [spawns, s.filterMap_sort Event.phase_of_spawn?, hhappened, List.filterMap_map,
    ← List.filterMap_eq_map]
  · rfl
  · -- on one frame the events of arrivals are ordered by the numbers
    rw [hhappened, List.pairwise_map]
    have hlt : (List.range' s.acted.world.nextBody
        (arrivals.filter (·.time == f.frame)).length).Pairwise (· < ·) :=
      List.pairwise_lt_range'
    rw [← List.zipIdx_map_snd, List.pairwise_map] at hlt
    refine hlt.imp fun hab => ?_
    rw [Event.isLE_cmp]
    exact .inr ⟨rfl, .inr ⟨rfl, Nat.succ_le_succ (Nat.le_of_lt hab)⟩⟩

/-- The arrivals that a frame tells are those of its time, in the order of the timeline, with
numbers that were not given out before. -/
theorem Stages.exists_spawns_eq (s : Stages f keys g events) (h : f.Prepared assets arrivals) :
    ∃ n, f.world.nextBody ≤ n ∧
      spawns (Event.sort events) = ((arrivals.filter (·.time == f.frame)).zipIdx n).map
        (fun a => ⟨f.frame, a.2, a.1.sheet.image⟩) ∧
      n + (arrivals.filter (·.time == f.frame)).length ≤ g.world.nextBody := by
  obtain ⟨-, -, hnext⟩ := s.joined_of_prepared h
  exact ⟨s.acted.world.nextBody, s.kept_acted (Fight.keptByPhases_nextBody _) (Nat.le_refl _),
    s.spawns_eq h, s.kept_of_joined (Fight.keptByPhases_nextBody _) (Nat.le_of_eq hnext.symm)⟩

/-- The enemies that a frame tells of are those that the entries list for it. -/
theorem Stages.exists_arrived (s : Stages f keys g events) {entries : List LevelEntry}
    (harrivals : Level.arrivals? assets entries = .ok arrivals)
    (h : f.Prepared assets arrivals) : ∃ n count, f.world.nextBody ≤ n ∧
      n + count ≤ g.world.nextBody ∧
      (spawns (Event.sort events)).map (·.body) = List.range' n count ∧
      (spawns (Event.sort events)).map (fun s => (s.frame, some s.image)) =
        (entries.filter fun e => e.isEnemy && e.time == f.frame).map fun e =>
          (f.frame, e.image? assets) := by
  obtain ⟨n, hn, hnew, hnext⟩ := s.exists_spawns_eq h
  refine ⟨n, _, hn, hnext, ?_, ?_⟩
  · rw [hnew, List.map_map, ← List.zipIdx_map_snd]
    rfl
  · have himages := congrArg (List.map (Prod.mk f.frame))
      ((Level.arrivals?_spec harrivals).2 f.frame)
    rw [List.map_map, List.map_map] at himages
    rw [hnew, List.map_map]
    refine Eq.trans ?_ himages
    rw [← List.zipIdx_map_fst n (arrivals.filter (·.time == f.frame)), List.map_map,
      List.zipIdx_map_fst]
    rfl

end

/-! ## Arrivals over a run -/

namespace Fight

variable {f g : Fight K}

/-- The enemies that the entries of a timeline list for the frames before one, frame by frame. -/
def listed (assets : Assets K) (entries : List LevelEntry) (frame : Nat) :
    List (Nat × Option String) :=
  (List.range frame).flatMap fun time =>
    (entries.filter fun e => e.isEnemy && e.time == time).map fun e => (time, e.image? assets)

/-- What every call keeps of a fight and of what was told of its arrivals. -/
structure ArrivalsTold (assets : Assets K) (entries : List LevelEntry) (arrivals : List Arrival)
    (f : Fight K) (reports : List TickReport) : Prop where
  prepared : f.Prepared assets arrivals
  spawns_eq : (spawns (told reports)).map (fun s => (s.frame, some s.image)) =
    listed assets entries f.frame
  ascending : ((spawns (told reports)).map (·.body)).Pairwise (· < ·)
  body_lt : ∀ s ∈ spawns (told reports), s.body < f.world.nextBody
  frame_eq : f.ended = false → f.frame = reports.countP fun report => !report.pauseRequested

variable {assets : Assets K} {entries : List LevelEntry} {arrivals : List Arrival}

/-- What is told of the arrivals is kept by every tick. -/
theorem chronicle_arrivalsTold (harrivals : Level.arrivals? assets entries = .ok arrivals) :
    Chronicle (ArrivalsTold assets entries arrivals) where
  withKeys keys h :=
    ⟨(keptByPhases_prepared assets arrivals).withKeys keys h.prepared, h.spawns_eq, h.ascending,
      h.body_lt, h.frame_eq⟩
  ended {f reports} hended h := by
    have htold := told_quiet reports false true
    exact ⟨h.prepared, htold ▸ h.spawns_eq, htold ▸ h.ascending, htold ▸ h.body_lt,
      chronicle_counted.ended hended h.frame_eq⟩
  pause {f reports} hended h := by
    have htold := told_quiet reports true false
    exact ⟨h.prepared, htold ▸ h.spawns_eq, htold ▸ h.ascending, htold ▸ h.body_lt,
      chronicle_counted.pause hended h.frame_eq⟩
  frame {f g reports keys events} hended s h := by
    obtain ⟨n, count, hn, hnext, hbodies, hcome⟩ := s.exists_arrived harrivals h.prepared
    have htold : spawns (told (reports ++ [⟨Event.sort events, false, g.ended⟩])) =
        spawns (told reports) ++ spawns (Event.sort events) := by
      rw [told_concat, spawns_append]
    have hbody : ∀ s ∈ spawns (Event.sort events), n ≤ s.body ∧ s.body < g.world.nextBody := by
      intro s hs
      have hin := List.mem_map_of_mem (f := (·.body)) hs
      rw [hbodies, List.mem_range'_1] at hin
      exact ⟨hin.1, Nat.lt_of_lt_of_le hin.2 hnext⟩
    have hframe := s.frame_eq
    refine ⟨s.kept (keptByPhases_prepared assets arrivals) h.prepared, ?_, ?_, ?_,
      chronicle_counted.frame hended s h.frame_eq⟩
    · rw [htold, List.map_append, h.spawns_eq, hcome, listed, listed, hframe, List.range_succ,
        List.flatMap_append, List.flatMap_singleton]
    · rw [htold, List.map_append, hbodies, List.pairwise_append]
      refine ⟨h.ascending, List.pairwise_lt_range', ?_⟩
      intro a ha b hb
      obtain ⟨old, hold, rfl⟩ := List.mem_map.1 ha
      have hlt := h.body_lt old hold
      exact Nat.lt_of_lt_of_le hlt (Nat.le_trans hn (List.mem_range'_1.1 hb).1)
    · intro a ha
      rw [htold] at ha
      rcases List.mem_append.1 ha with ha | ha
      · have hkept := s.kept (keptByPhases_nextBody f.world.nextBody) (Nat.le_refl _)
        exact Nat.lt_of_lt_of_le (h.body_lt a ha) hkept
      · exact (hbody a ha).2

/-- What holds of a fight with the entries of a timeline, of its reports so far, and of the next
one. -/
structure ArrivalsKept (assets : Assets K) (entries : List LevelEntry) (g : Fight K)
    (reports : List TickReport) : Prop where
  /-- The enemies that came are those that were listed. -/
  spawns_eq : (spawns (told reports)).map (fun s => (s.frame, some s.image)) =
    listed assets entries g.frame
  /-- Each of them has a larger number than those before, ... -/
  ascending : ((spawns (told reports)).map (·.body)).Pairwise (· < ·)
  /-- ... and none of the numbers that were handed out before its frame. -/
  fresh : ∀ {raw : ActionSet} {g' : Fight K} {report : TickReport},
    g.tick raw = .ok (g', report) → ∀ s ∈ spawns report.events, g.world.nextBody ≤ s.body
  bodies_lt : ∀ id ∈ g.world.bodies, id < g.world.nextBody
  /-- An enemy that is to come can come into every world, and so far none could not. -/
  spawn_ok : ∀ a ∈ g.arrivals, ∀ (w : World K) (size : Size K), ∃ e w',
    Enemy.spawn a.sheet g.assets w enemyGroup g.settings size = .ok (e, w')
  no_failure : ∀ w ∈ g.log, w.isFailure = false
  /-- As long as the fight goes on, its frames are the ticks without a pause. -/
  frame_eq : g.ended = false → g.frame = reports.countP fun report => !report.pauseRequested

/-- The arrivals are ready when a fight is set up, and nothing has gone wrong. -/
theorem prepared_of_start {settings : Settings K} {player : PlayerSheet K} {sizes : SizeTable K}
    (harrivals : Level.arrivals? assets entries = .ok arrivals) :
    (ofLevel assets settings ⟨player, sizes, arrivals⟩).Prepared assets arrivals := by
  refine ⟨rfl, rfl, (Level.arrivals?_spec harrivals).1, ?_⟩
  intro w hw
  rw [show (ofLevel assets settings ⟨player, sizes, arrivals⟩).log = Level.warnings assets from rfl,
    Level.warnings] at hw
  split at hw
  · obtain ⟨e, -, hw⟩ := List.mem_flatMap.1 hw
    rw [LevelEntry.warnings] at hw
    split at hw
    · cases hw
    · rw [List.mem_singleton.1 hw]
      rfl
  · cases hw

/-- In every run, the enemies of the timeline come on their frames and in its order, and no other
enemies do. -/
theorem run_arrivals {settings : Settings K} (hstart : start assets settings = .ok f)
    {calls : List Call} {reports : List TickReport} (hrun : f.run calls = .ok (g, reports)) :
    ∃ entries, assets.level = .ok entries ∧ ArrivalsKept assets entries g reports := by
  have hstaffed := keptByPhases_staffed.run hrun (staffed_of_start hstart)
  obtain ⟨player, sizes, entries, arrivals, -, -, hlevel, harrivals, rfl⟩ := start_eq_ok hstart
  have hbefore : ArrivalsTold assets entries arrivals
      (ofLevel assets settings ⟨player, sizes, arrivals⟩) [] :=
    ⟨prepared_of_start harrivals, rfl, List.Pairwise.nil, nofun, fun _ => rfl⟩
  have hafter := (chronicle_arrivalsTold harrivals).run hrun hbefore
  obtain ⟨hassets, harrivals_eq, hready, hlog⟩ := hafter.prepared
  refine ⟨entries, hlevel, hafter.spawns_eq, hafter.ascending, ?_, ?_, ?_, hlog, hafter.frame_eq⟩
  · intro raw g' report htick a ha
    rcases tick_cases htick with
      ⟨-, -, rfl⟩ | ⟨-, -, -, rfl⟩ | ⟨-, -, events, hsim, rfl⟩
    · cases ha
    · cases ha
    · obtain ⟨s⟩ := simulate_stages hsim
      obtain ⟨n, hn, hnew, -⟩ := s.exists_spawns_eq
        ((keptByPhases_prepared assets arrivals).withKeys _ hafter.prepared)
      rw [hnew] at ha
      obtain ⟨p, hp, rfl⟩ := List.mem_map.1 ha
      exact Nat.le_trans hn (List.le_snd_of_mem_zipIdx hp)
  · intro id hid
    exact (World.Staffed.enrolled hstaffed).lt_nextBody hid
  · intro a ha w size
    rw [harrivals_eq] at ha
    rw [hassets]
    exact (hready a ha).spawn w enemyGroup g.settings size

end Fight

end

/-- In the siege the two enemies of the first frame come in their order, and the late arrival that
is listed first comes last. -/
theorem Siege.run_arrivals_calls : ∃ f g reports, Fight.start assets settings = .ok f ∧
    f.run calls = .ok (g, reports) ∧ g.frame = 4 ∧
    ∃ entries, assets.level = .ok entries ∧ Fight.ArrivalsKept assets entries g reports ∧
      Fight.listed assets entries g.frame =
        [(0, some "tower"), (0, some "kite"), (2, some "tower")] := by
  obtain ⟨f, g, reports, hstart, hrun, hend, -⟩ := run_calls
  simp only [Prod.mk.injEq] at hend
  obtain ⟨entries, hlevel, hkept⟩ := Fight.run_arrivals hstart hrun
  refine ⟨f, g, reports, hstart, hrun, hend.1, entries, hlevel, hkept, ?_⟩
  have hlisted : assets.level.toOption.map (fun entries => Fight.listed assets entries 4) =
      some [(0, some "tower"), (0, some "kite"), (2, some "tower")] := by
    decide +kernel
  rw [hlevel] at hlisted
  rw [hend.1]
  exact Option.some.inj hlisted

end Barrage
