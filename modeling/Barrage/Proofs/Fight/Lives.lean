import Barrage.Proofs.Fight.Integrity
import Barrage.Proofs.Fight.Stages

/-!
# Lives and the end of a fight

A hit that counts costs one life, whatever the clamps say: they would only matter for a hit without
a life left. There is none, since the frame that takes the last life ends the fight, and a fight
that starts without lives is over after its first frame, on which nothing hostile is there yet
(`LivesTold.counts`).

So the lives that the hits tell go down one by one from those at the start, and the end of the fight
is told once, with the hit that took the last of them (`Fight.run_lives`).
-/

namespace Barrage

variable {K : Type}

/-- Lives that the hits of the player left. -/
def livesTold (events : List Event) : List Int := (events.filterMap Event.playerHit?).map (·.2)

/-- Frames on which a fight was over, and the numbers of frames that were told with them. -/
def gameOvers (events : List Event) : List (Nat × Nat) := events.filterMap Event.gameOver?

/-- The lives that events tell stand in the order of the events. -/
theorem livesTold_append (events later : List Event) :
    livesTold (events ++ later) = livesTold events ++ livesTold later := by
  rw [livesTold, List.filterMap_append, List.map_append]
  rfl

/-- The ends that events tell stand in the order of the events. -/
theorem gameOvers_append (events later : List Event) :
    gameOvers (events ++ later) = gameOvers events ++ gameOvers later := List.filterMap_append

/-! ## Lives over a frame -/

section
variable [Scalar K]

namespace Stages

variable {f g : Fight K} {keys : ActionSet} {events : List Event}

/-- A frame ends the fight when no lives are left after it. -/
theorem ended_eq (s : Stages f keys g events) : g.ended = (f.ended || g.status.isOver) := by
  obtain ⟨energy, htimed, -⟩ := s.timed_fst
  obtain ⟨invincible, status, timers, hhit⟩ := s.hit_fst
  obtain ⟨⟨weapon, energy', world, enemies, rng, log, hg⟩, -⟩ := s.settled
  have hended : s.hit.ended = f.ended :=
    (congrArg Fight.ended hhit :).trans (congrArg Fight.ended htimed :)
  have hover : g.status.isOver = s.hit.status.isOver := (congrArg (·.status.isOver) hg :)
  rw [hover, ← hended]
  exact (congrArg Fight.ended hg :)

/-- A frame takes one life, when something hostile meets the player and counts, or none. -/
theorem lives_cases (s : Stages f keys g events) :
    g.status.maxLives = f.status.maxLives ∧
    (livesTold (Event.sort events) = [] ∧ g.status.lives = f.status.lives ∨
      (f.world.step f.settings.dt).hitsOf f.player.body [enemyGroup, enemyBullets] ≠ 0 ∧
      g.status.lives = (f.status.addLives (-1)).lives ∧
      livesTold (Event.sort events) = [g.status.lives]) := by
  obtain ⟨energy, htimed, -⟩ := s.timed_fst
  obtain ⟨⟨weapon, energy', world, enemies, rng, log, hg⟩, -⟩ := s.settled
  have hlives : g.status.lives = s.hit.status.lives := (congrArg (·.status.lives) hg :)
  have hmax : g.status.maxLives = s.hit.status.maxLives := (congrArg (·.status.maxLives) hg :)
  have hstatus : s.timed.moveBodies.status = { f.status with energy } :=
    (congrArg (·.moveBodies.status) htimed :)
  rw [livesTold, s.filterMap_playerHit?, hmax, hlives]
  rcases Fight.hitPlayerPhase_cases s.hit_eq with
    ⟨hhit, hnone, -⟩ | ⟨-, hcount, id, timers, -, hhit, hone⟩
  · rw [hnone, hhit, hstatus]
    exact ⟨rfl, .inl ⟨rfl, rfl⟩⟩
  · have hbody : s.timed.moveBodies.player.body = f.player.body := by
      rw [(congrArg (·.moveBodies.player) htimed :)]
      split <;> rfl
    have hworld : s.timed.moveBodies.world = f.world.step f.settings.dt :=
      (congrArg (·.moveBodies.world) htimed :)
    rw [hbody, hworld] at hcount
    rw [hone, hhit, hstatus]
    exact ⟨rfl, .inr ⟨hcount, rfl, rfl⟩⟩

/-- A frame tells that the fight is over when it ends it. -/
theorem gameOvers_sort (s : Stages f keys g events) :
    gameOvers (Event.sort events) = if g.status.isOver then [(g.frame, g.frame)] else [] := by
  obtain ⟨⟨weapon, energy, world, enemies, rng, log, hg⟩, hcount⟩ := s.settled
  have hover : g.status.isOver = s.hit.status.isOver := (congrArg (·.status.isOver) hg :)
  rw [gameOvers, s.filterMap_sort Event.phase_of_gameOver?, hcount, s.frame_eq, hover]
  · split <;> rfl
  · rw [hcount]
    split
    · exact List.pairwise_singleton _ _
    · exact List.Pairwise.nil

/-- A frame that ends the fight tells so last, since this event carries the number of the next
frame. -/
theorem exists_sort_eq (s : Stages f keys g events) (hover : g.status.isOver = true) :
    ∃ before, Event.sort events = before ++ [.on g.frame (.gameOver g.frame)] ∧
      gameOvers before = [] := by
  obtain ⟨⟨weapon, energy, world, enemies, rng, log, hg⟩, hcount⟩ := s.settled
  have hhit : s.hit.status.isOver = true := (congrArg (·.status.isOver) hg :).symm.trans hover
  rw [hhit, if_pos rfl, ← s.frame_eq] at hcount
  let others := [Phase.timers, .playerHits, .enemyHits, .player, .arrivals, .enemies]
  have hevents : events = others.flatMap s.happened ++ [.on g.frame (.gameOver g.frame)] := by
    refine s.events_eq.trans ?_
    rw [show Phase.all = others ++ [.count] from rfl, List.flatMap_append, List.flatMap_singleton,
      hcount]
  have hothers : ∀ e ∈ others.flatMap s.happened, e.frame = f.frame ∧ e.data.phase ≠ .count := by
    intro e he
    obtain ⟨p, hp, he⟩ := List.mem_flatMap.1 he
    have hne : p ≠ .count := by
      rintro rfl
      revert hp
      decide
    have hat := s.happened_at p e he
    rw [if_neg hne] at hat
    exact ⟨hat.frame_eq, hat.2 ▸ hne⟩
  have hlater : ∀ e ∈ others.flatMap s.happened,
      e.frame < (Event.on g.frame (.gameOver g.frame)).frame := by
    intro e he
    rw [(hothers e he).1]
    show f.frame < g.frame
    rw [s.frame_eq]
    exact Nat.lt_succ_self _
  obtain ⟨before, hsort, hperm⟩ := Event.exists_sort_concat hlater
  refine ⟨before, (congrArg Event.sort hevents).trans hsort, ?_⟩
  rw [gameOvers, List.filterMap_eq_nil_iff]
  intro e he
  have hphase := (hothers e (hperm.subset he)).2
  cases h : e.gameOver? with
  | none => rfl
  | some _ => exact absurd (Event.phase_of_gameOver? e (by rw [h]; rfl)) hphase

end Stages

end

/-! ## Lives over a run -/

namespace Fight

variable {f g : Fight K}

/-- Nothing hostile is in the world. -/
def Quiet (f : Fight K) : Prop :=
  f.world.members enemyGroup = [] ∧ f.world.members enemyBullets = []

/-- In a fight without enemies and bullets nothing hits the player. -/
theorem Quiet.hitsOf_step [Scalar K] (h : f.Quiet) :
    (f.world.step f.settings.dt).hitsOf f.player.body [enemyGroup, enemyBullets] = 0 := by
  have hnone : ∀ {group}, f.world.members group = [] →
      (f.world.step f.settings.dt).overlapping f.player.body group = [] := by
    intro group hgroup
    rw [World.overlapping]
    split
    · rfl
    · rw [show (f.world.step f.settings.dt).members group = [] from hgroup, List.filter_nil]
  rw [World.hitsOf, List.flatMap_cons, List.flatMap_singleton, hnone h.1, hnone h.2]
  rfl

/-- What every call keeps of a fight that started with so many lives, and of what was told of
them. -/
structure LivesTold (start : Int) (f : Fight K) (reports : List TickReport) : Prop where
  told_eq : livesTold (told reports) =
    (List.range (livesTold (told reports)).length).map fun k : Nat => start - (k + 1)
  lives_eq : f.status.lives = start - (livesTold (told reports)).length
  lives_nonneg : 0 ≤ f.status.lives
  le_maxLives : f.status.lives ≤ f.status.maxLives
  /-- As long as the fight goes on there are lives left, unless nothing was simulated so far. -/
  lives_pos : f.ended = false → 0 < f.status.lives ∨ f.frame = 0 ∧ f.Quiet
  lives_ended : f.ended = true → f.status.lives = 0 ∧ 0 < f.frame
  frame_eq_zero_iff : f.frame = 0 ↔ ∀ report ∈ reports, report.pauseRequested = true
  told_of_zero : f.frame = 0 → livesTold (told reports) = []
  overs_eq : gameOvers (told reports) = if f.ended then [(f.frame, f.frame)] else []

variable {start : Int} {reports : List TickReport}

/-- A pause, or a tick after the end. -/
theorem LivesTold.quiet (h : LivesTold start f reports) {pause ended : Bool}
    (hpause : pause = true ∨ f.ended = true) :
    LivesTold start f (reports ++ [⟨[], pause, ended⟩]) := by
  have htold := told_quiet reports pause ended
  refine ⟨htold ▸ h.told_eq, htold ▸ h.lives_eq, h.lives_nonneg, h.le_maxLives, h.lives_pos,
    h.lives_ended, ?_, htold ▸ h.told_of_zero, htold ▸ h.overs_eq⟩
  rw [h.frame_eq_zero_iff]
  constructor
  · intro hall report hin
    rcases List.mem_append.1 hin with hin | hin
    · exact hall report hin
    · obtain rfl := List.mem_singleton.1 hin
      rcases hpause with hpause | hended
      · exact hpause
      · have hpos := (h.lives_ended hended).2
        rw [h.frame_eq_zero_iff.2 hall] at hpos
        cases hpos
  · intro hall report hin
    exact hall report (List.mem_append_left _ hin)

variable [Scalar K]

/-- A hit that counts takes exactly one life. -/
theorem LivesTold.counts (h : LivesTold start f reports) (hended : f.ended = false)
    (hhits : (f.world.step f.settings.dt).hitsOf f.player.body [enemyGroup, enemyBullets] ≠ 0) :
    0 < f.status.lives ∧ (f.status.addLives (-1)).lives = f.status.lives - 1 := by
  have hpos : 0 < f.status.lives := by
    rcases h.lives_pos hended with hpos | ⟨-, hquiet⟩
    · exact hpos
    · exact absurd hquiet.hitsOf_step hhits
  have hmax := h.le_maxLives
  refine ⟨hpos, ?_⟩
  simp only [Status.addLives, clampTo]
  omega

/-- A frame takes one life and tells how many are left, or none. -/
theorem LivesTold.frame_cases (h : LivesTold start f reports) (hended : f.ended = false)
    {keys : ActionSet} {events : List Event} (s : Stages f keys g events) :
    (livesTold (Event.sort events) = [] ∧ g.status.lives = f.status.lives ∨
      g.status.lives = f.status.lives - 1 ∧
        livesTold (Event.sort events) = [f.status.lives - 1]) ∧
    0 ≤ g.status.lives ∧ g.status.lives ≤ f.status.lives := by
  have hnonneg := h.lives_nonneg
  rcases s.lives_cases.2 with ⟨hnone, hsame⟩ | ⟨hhits, hless, hone⟩
  · exact ⟨.inl ⟨hnone, hsame⟩, by omega, by omega⟩
  · obtain ⟨hpos, hcount⟩ := h.counts hended hhits
    rw [hcount] at hless
    rw [hless] at hone
    exact ⟨.inr ⟨hless, hone⟩, by omega, by omega⟩

/-- Every tick keeps the count of the lives, and ends the fight when none are left. -/
theorem chronicle_livesTold (start : Int) : Chronicle (K := K) (LivesTold start) where
  withKeys _ h := ⟨h.told_eq, h.lives_eq, h.lives_nonneg, h.le_maxLives, h.lives_pos,
    h.lives_ended, h.frame_eq_zero_iff, h.told_of_zero, h.overs_eq⟩
  ended hended h := h.quiet (.inr hended)
  pause _ h := h.quiet (.inl rfl)
  frame {f g reports keys events} hended s h := by
    have hover : g.ended = g.status.isOver := by
      rw [s.ended_eq, hended, Bool.false_or]
    have hframe : g.frame ≠ 0 := by
      rw [s.frame_eq]
      exact Nat.succ_ne_zero _
    obtain ⟨hcases, hnonneg, hle⟩ := h.frame_cases hended s
    have hmax := s.lives_cases.1
    have hmore := h.told_eq
    have hbefore := h.lives_eq
    generalize hn : livesTold (told reports) = before at hmore hbefore
    have htold : livesTold (told (reports ++ [⟨Event.sort events, false, g.ended⟩])) =
        before ++ livesTold (Event.sort events) := by
      rw [told_concat, livesTold_append, hn]
    refine ⟨?_, ?_, hnonneg, by have := h.le_maxLives; omega, ?_, ?_, ?_,
      fun hzero => absurd hzero hframe, ?_⟩
    · rw [htold]
      rcases hcases with ⟨hnone, -⟩ | ⟨-, hone⟩
      · rw [hnone, List.append_nil]
        exact hmore
      · rw [hone, List.length_append, List.length_singleton, List.range_succ, List.map_append,
          ← hmore, hbefore, List.map_singleton]
        congr 2
        omega
    · rw [htold, List.length_append]
      rcases hcases with ⟨hnone, hsame⟩ | ⟨hless, hone⟩
      · rw [hnone, hsame, hbefore, List.length_nil]
        omega
      · rw [hone, hless, hbefore, List.length_singleton]
        omega
    · intro hgoes
      rw [hover, Status.isOver, decide_eq_false_iff_not] at hgoes
      exact .inl (by omega)
    · intro hends
      rw [hover, Status.isOver, decide_eq_true_eq] at hends
      exact ⟨by omega, Nat.pos_of_ne_zero hframe⟩
    · refine ⟨fun hzero => absurd hzero hframe, fun hall => ?_⟩
      cases hall _ (List.mem_append_right _ (List.mem_singleton_self _))
    · rw [told_concat, gameOvers_append, h.overs_eq, hended, if_neg Bool.false_ne_true, hover]
      exact s.gameOvers_sort

/-- Before the first frame the player is alone. -/
theorem members_spawn (sheet : PlayerSheet K) (bounds : Rect K) (settings : Settings K)
    (size : Size K) {group : GroupId} (hgroup : group ≠ playerGroup) :
    (Player.spawn sheet (emptyWorld bounds) playerGroup settings size).2.members group = [] := by
  refine ((enrolled_emptyWorld bounds).members_join (grown_player bounds settings size)
    (playerGroup_lt_length bounds) group).trans ?_
  rw [if_neg hgroup.symm, members_emptyWorld]

/-- A fight that was just set up has told nothing, and its lives are those of the sheet within the
bound of the settings. -/
theorem livesTold_of_start {assets : Assets K} {settings : Settings K}
    (hstart : Fight.start assets settings = .ok f) : ∃ sheet, assets.player = .ok sheet ∧
      LivesTold (clampTo (max settings.maxLives 0) sheet.lives) f [] := by
  obtain ⟨sheet, sizes, entries, arrivals, hsheet, -, -, -, rfl⟩ := start_eq_ok hstart
  refine ⟨sheet, hsheet, rfl, ?_, ?_, ?_, fun _ => .inr ⟨rfl, ?_, ?_⟩, ?_, ?_,
    fun _ => rfl, rfl⟩
  · show clampTo (max settings.maxLives 0) sheet.lives = _ - (0 : Nat)
    omega
  · show 0 ≤ clampTo (max settings.maxLives 0) sheet.lives
    rw [clampTo]
    omega
  · show clampTo (max settings.maxLives 0) sheet.lives ≤ max settings.maxLives 0
    rw [clampTo]
    omega
  · exact members_spawn sheet _ settings _ (by decide)
  · exact members_spawn sheet _ settings _ (by decide)
  · intro hended
    cases hended
  · refine ⟨fun _ report hin => ?_, fun _ => rfl⟩
    cases hin

/-- A tick is the last one of a fight when it takes the last life, or when nothing was simulated
before it and there was no life to start with. -/
def IsLast (start : Int) (reports : List TickReport) (report : TickReport) : Prop :=
  ((livesTold (told reports)).length < start ∧
    (livesTold (told (reports ++ [report]))).length = start) ∨
  (start = 0 ∧ report.pauseRequested = false ∧
    ∀ earlier ∈ reports, earlier.pauseRequested = true)

/-- What holds of a fight that started with so many lives, of its reports so far, and of the next
one. -/
structure LivesKept (start : Int) (g : Fight K) (reports : List TickReport) : Prop where
  /-- Each hit tells one life less. -/
  told_eq : livesTold (told reports) =
    (List.range (livesTold (told reports)).length).map fun k : Nat => start - (k + 1)
  lives_eq : g.status.lives = start - (livesTold (told reports)).length
  /-- The end is told once, and the fight remembers when. -/
  overs_eq : gameOvers (told reports) = if g.ended then [(g.frame, g.frame)] else []
  over_iff : ∀ {raw : ActionSet} {g' : Fight K} {report : TickReport},
    g.tick raw = .ok (g', report) → (gameOvers report.events ≠ [] ↔ IsLast start reports report)
  over_last : ∀ {raw : ActionSet} {g' : Fight K} {report : TickReport},
    g.tick raw = .ok (g', report) → gameOvers report.events ≠ [] →
      g'.ended = true ∧ report.ended = true ∧ ∃ before, gameOvers before = [] ∧
        report.events = before ++ [.on g'.frame (.gameOver g'.frame)]
  /-- Nothing happens after the end. -/
  tick_of_ended : g.ended = true → ∀ raw : ActionSet, g.tick raw = .ok (g, ⟨[], false, true⟩)

/-- The tick that tells the end is the last one that counts. -/
theorem LivesTold.over_iff (h : LivesTold start g reports) {raw : ActionSet} {g' : Fight K}
    {report : TickReport} (htick : g.tick raw = .ok (g', report)) :
    gameOvers report.events ≠ [] ↔ IsLast start reports report := by
  have hnow := (chronicle_livesTold start).tick htick h
  have hlives := h.lives_eq
  have hlater := hnow.lives_eq
  rw [IsLast]
  rcases tick_cases htick with
    ⟨hended, rfl, rfl⟩ | ⟨hended, -, rfl, rfl⟩ | ⟨hended, -, events, hsim, rfl⟩
  · -- all lives are gone, and something was simulated before
    obtain ⟨hzero, hpos⟩ := h.lives_ended hended
    refine ⟨fun hne => absurd rfl hne, ?_⟩
    rintro (⟨hlt, -⟩ | ⟨-, -, hall⟩)
    · omega
    · rw [h.frame_eq_zero_iff.2 hall] at hpos
      cases hpos
  · refine ⟨fun hne => absurd rfl hne, ?_⟩
    rintro (⟨hlt, heq⟩ | ⟨-, hpause, -⟩)
    · rw [told_quiet] at heq
      omega
    · cases hpause
  · obtain ⟨s⟩ := simulate_stages hsim
    have hover : gameOvers (Event.sort events) ≠ [] ↔ g'.status.lives ≤ 0 := by
      rw [s.gameOvers_sort, Status.isOver]
      split
      · next hzero => exact ⟨fun _ => of_decide_eq_true hzero, fun _ => List.cons_ne_nil _ _⟩
      · next hzero =>
        exact ⟨fun hne => absurd rfl hne, fun hle => absurd (decide_eq_true hle) hzero⟩
    have hnonneg := hnow.lives_nonneg
    rw [hover, ← h.frame_eq_zero_iff]
    constructor
    · intro hzero
      by_cases hpos : 0 < g.status.lives
      · exact .inl ⟨by omega, by omega⟩
      · -- nothing was simulated so far, so nobody has taken a life
        rcases h.lives_pos hended with hpos' | ⟨hframe, -⟩
        · exact absurd hpos' hpos
        · have hnone := congrArg List.length (h.told_of_zero hframe)
          have := h.lives_nonneg
          rw [List.length_nil] at hnone
          exact .inr ⟨by omega, rfl, hframe⟩
    · rintro (⟨-, heq⟩ | ⟨hzero, -, -⟩)
      · omega
      · omega

/-- A tick that tells the end of the fight tells it last, and the fight is over. -/
theorem over_last_of_tick {raw : ActionSet} {g' : Fight K}
    {report : TickReport} (htick : g.tick raw = .ok (g', report))
    (hover : gameOvers report.events ≠ []) :
    g'.ended = true ∧ report.ended = true ∧ ∃ before, gameOvers before = [] ∧
      report.events = before ++ [.on g'.frame (.gameOver g'.frame)] := by
  rcases tick_cases htick with
    ⟨-, rfl, rfl⟩ | ⟨-, -, rfl, rfl⟩ | ⟨hended, -, events, hsim, rfl⟩
  · exact absurd rfl hover
  · exact absurd rfl hover
  · obtain ⟨s⟩ := simulate_stages hsim
    have hzero : g'.status.isOver = true := by
      rw [s.gameOvers_sort] at hover
      split at hover
      · next hzero => exact hzero
      · exact absurd rfl hover
    have hend : g'.ended = true := by rw [s.ended_eq, hzero, Bool.or_true]
    obtain ⟨before, hsort, hnone⟩ := s.exists_sort_eq hzero
    exact ⟨hend, hend, before, hnone, hsort⟩

/-- In every run, lives and hits add up, and the end of the fight is told once: with the hit that
takes the last life, or with the first frame when there is none. -/
theorem run_lives {assets : Assets K} {settings : Settings K}
    (hstart : Fight.start assets settings = .ok f) {calls : List Call} {reports : List TickReport}
    (hrun : f.run calls = .ok (g, reports)) : ∃ sheet, assets.player = .ok sheet ∧
      LivesKept (clampTo (max settings.maxLives 0) sheet.lives) g reports := by
  obtain ⟨sheet, hsheet, hbefore⟩ := livesTold_of_start hstart
  have hafter := (chronicle_livesTold _).run hrun hbefore
  exact ⟨sheet, hsheet, hafter.told_eq, hafter.lives_eq, hafter.overs_eq, hafter.over_iff,
    over_last_of_tick, fun hended raw => tick_of_ended hended raw⟩

end Fight

/-- The siege ends with the second hit. -/
theorem Siege.run_lives_calls : ∃ f g reports, Fight.start assets settings = .ok f ∧
    f.run calls = .ok (g, reports) ∧ g.ended = true ∧ g.status.lives = 0 ∧
    ∃ sheet, assets.player = .ok sheet ∧
      Fight.LivesKept (clampTo (max settings.maxLives 0) sheet.lives) g reports := by
  obtain ⟨f, g, reports, hstart, hrun, hend, -⟩ := run_calls
  simp only [Prod.mk.injEq] at hend
  exact ⟨f, g, reports, hstart, hrun, hend.2.1, hend.2.2.1, Fight.run_lives hstart hrun⟩

end Barrage
