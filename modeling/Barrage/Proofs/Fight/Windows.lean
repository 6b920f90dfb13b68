import Barrage.Proofs.Fight.Stages
import Barrage.Proofs.TimerQueue.Following

/-!
# Windows without harm

A hit starts a window in which the player takes no further harm, and sets the timer that ends it. So
the timers of a fight follow a timetable that its hits have written: energy from the start, and one
timer for each hit (`Fight.timetable`).

A hit counts only when no window is running, so the hits are at least a window apart, and at most
one timer of theirs is pending: the flag of the player and the queue say the same (`Windows`). A
frame first lets the timers act (`Windows.advance`) and then the hits (`Windows.strike`), so a hit
on the very frame on which a window ends counts. `Fight.run_windows` says what this comes to over a
whole run.
-/

namespace Barrage

variable {K : Type}

/-- Frames of the hits of the player. -/
def hitFrames (events : List Event) : List Nat := (events.filterMap Event.playerHit?).map (·.1)

/-- Frames on which windows ended. -/
def windowEnds (events : List Event) : List Nat := events.filterMap Event.windowEnd?

/-- The frames of the hits stand in the order of the events. -/
theorem hitFrames_append (events later : List Event) :
    hitFrames (events ++ later) = hitFrames events ++ hitFrames later := by
  rw [hitFrames, List.filterMap_append, List.map_append]
  rfl

/-- The ends of the windows stand in the order of the events. -/
theorem windowEnds_append (events later : List Event) :
    windowEnds (events ++ later) = windowEnds events ++ windowEnds later := List.filterMap_append

/-- The timer of a hit. The timers are ahead of the fight by one frame when a hit happens. -/
def Fight.windowTimer (window hit : Nat) : Appointment TimerAction :=
  ⟨.endInvincibility, hit + 1, .once window, false⟩

/-- The timetable of a fight with hits on some frames. -/
def Fight.timetable (interval window frame : Nat) (hits : List Nat) : Timetable TimerAction where
  frame := frame
  entries := ⟨.gainEnergy, 0, .every interval, false⟩ :: hits.map (windowTimer window)

/-- The timer of a hit is pending until the window of the hit is over. -/
theorem Fight.isPending_windowTimer (window hit frame : Nat) :
    (windowTimer window hit).isPending frame = decide (frame ≤ hit + max window 1) := by
  show (!false && decide (frame < hit + 1 + max window 1)) = _
  rw [Bool.not_false, Bool.true_and]
  exact decide_eq_decide.2 (by omega)

/-- The timer of a hit fires when its window has passed, and a window of no frames lasts for one. -/
theorem Fight.fires_windowTimer (window hit frame : Nat) :
    (windowTimer window hit).fires (frame + 1) = (hit + max window 1 == frame) := by
  show (!false && decide (frame + 1 = hit + 1 + max window 1)) = decide (hit + max window 1 = frame)
  rw [Bool.not_false, Bool.true_and]
  exact decide_eq_decide.2 (by omega)

/-- The timers have seen the hits, and the player is invincible while the window of one of them is
running. -/
structure Windows (interval : Nat) (timers : TimerQueue TimerAction) (player : Player K)
    (hits : List Nat) : Prop where
  follows : timers.Follows (Fight.timetable interval player.window timers.frame hits)
  spaced : hits.Pairwise fun a b => a + max player.window 1 ≤ b
  past : ∀ hit ∈ hits, hit < timers.frame
  invincible_iff : player.invincible = true ↔
    ∃ hit ∈ hits, timers.frame ≤ hit + max player.window 1

section
variable {interval : Nat} {timers : TimerQueue TimerAction} {player : Player K} {hits : List Nat}

/-- Of the player only its window counts. -/
theorem Windows.of_player (h : Windows interval timers player hits) {player' : Player K}
    (hwindow : player'.window = player.window)
    (hinvincible : player'.invincible = player.invincible) :
    Windows interval timers player' hits := by
  refine ⟨?_, ?_, h.past, ?_⟩
  · rw [hwindow]
    exact h.follows
  · rw [hwindow]
    exact h.spaced
  · rw [hwindow, hinvincible]
    exact h.invincible_iff

/-- Two windows are not open at once. -/
theorem Windows.countP_open (h : Windows interval timers player hits) :
    (hits.countP fun hit => decide (timers.frame ≤ hit + max player.window 1)) =
      if player.invincible then 1 else 0 := by
  have hflag : player.invincible =
      hits.any fun hit => decide (timers.frame ≤ hit + max player.window 1) := by
    rw [Bool.eq_iff_iff, h.invincible_iff, List.any_eq_true]
    simp only [decide_eq_true_eq]
  rw [hflag]
  have hspaced := h.spaced
  have hpast := h.past
  clear hflag h
  induction hits with
  | nil => rfl
  | cons hit rest ih =>
    obtain ⟨hafter, hspaced⟩ := List.pairwise_cons.1 hspaced
    have hrest := ih hspaced fun later hl => hpast later (List.mem_cons_of_mem _ hl)
    rw [List.countP_cons, hrest, List.any_cons]
    by_cases hopen : timers.frame ≤ hit + max player.window 1
    · -- no later hit can have happened, since this window is still running
      have hnone : rest = [] := by
        refine List.eq_nil_iff_forall_not_mem.2 fun later hl => ?_
        have := hafter later hl
        have := hpast later (List.mem_cons_of_mem _ hl)
        omega
      simp [hnone, hopen]
    · simp [hopen]

/-- Energy is always to come, and the end of a window exactly while one is running. -/
theorem Windows.countP_action (h : Windows interval timers player hits) :
    timers.countP (·.action == .gainEnergy) = 1 ∧
      timers.countP (·.action == .endInvincibility) = if player.invincible then 1 else 0 := by
  rw [h.follows.countP_eq, h.follows.countP_eq, ← h.countP_open]
  unfold Fight.timetable
  rw [List.countP_cons, List.countP_cons, List.countP_map, List.countP_map]
  constructor
  · rw [List.countP_eq_zero.2 fun hit _ => by simp [Appointment.timer, Fight.windowTimer]]
    rfl
  · refine congrArg (· + 0) (List.countP_congr fun hit _ => ?_)
    rw [Function.comp_apply, Fight.isPending_windowTimer]
    simp [Appointment.timer, Fight.windowTimer]

/-- On the next frame, the timers of the hits that are a window old end their windows. -/
theorem Windows.count_advance (h : Windows interval timers player hits) :
    timers.advance.1.count .endInvincibility =
      hits.countP fun hit => hit + max player.window 1 == timers.frame := by
  rw [h.follows.advance_fst, List.count_eq_countP, List.countP_map, List.countP_filter]
  unfold Fight.timetable
  rw [List.countP_cons, List.countP_map]
  refine congrArg (· + 0) (List.countP_congr fun hit _ => ?_)
  rw [Function.comp_apply, Fight.fires_windowTimer]
  simp [Fight.windowTimer]

/-- A later hit is a window later. -/
theorem Windows.apart (h : Windows interval timers player hits) {a b : Nat} (ha : a ∈ hits)
    (hb : b ∈ hits) (hlt : a < b) : a + max player.window 1 ≤ b := by
  obtain ⟨i, hi, rfl⟩ := List.getElem_of_mem ha
  obtain ⟨j, hj, rfl⟩ := List.getElem_of_mem hb
  have hspaced := List.pairwise_iff_getElem.1 h.spaced
  rcases Nat.lt_trichotomy i j with hij | rfl | hji
  · exact hspaced i j hi hj hij
  · omega
  · have := hspaced j i hj hi hji
    omega

/-- A frame of the timers. -/
theorem Windows.advance (h : Windows interval timers player hits) :
    Windows interval timers.advance.2
      (if .endInvincibility ∈ timers.advance.1 then player.endWindow else player) hits := by
  have hframe : timers.advance.2.frame = timers.frame + 1 := TimerQueue.frame_fire _
  have hwindow : ∀ {b : Prop} [Decidable b],
      (if b then player.endWindow else player).window = player.window := by
    intro b _
    split <;> rfl
  have hends : .endInvincibility ∈ timers.advance.1 ↔
      ∃ hit ∈ hits, hit + max player.window 1 = timers.frame := by
    rw [← List.count_pos_iff, h.count_advance, List.countP_pos_iff]
    simp only [beq_iff_eq]
  refine ⟨?_, ?_, ?_, ?_⟩
  · rw [hwindow, hframe]
    exact h.follows.advance
  · rw [hwindow]
    exact h.spaced
  · intro hit hin
    have := h.past hit hin
    omega
  · rw [hwindow, hframe]
    split
    · next hend =>
      obtain ⟨old, hold, heq⟩ := hends.1 hend
      refine ⟨nofun, ?_⟩
      rintro ⟨hit, hin, hle⟩
      -- a later hit would be on this frame at the earliest, but all hits are past
      have hapart := h.apart hold hin (by omega)
      have hpast := h.past hit hin
      omega
    · next hend =>
      rw [h.invincible_iff]
      constructor
      · rintro ⟨hit, hin, hle⟩
        have : hit + max player.window 1 ≠ timers.frame := fun heq => hend (hends.2 ⟨hit, hin, heq⟩)
        exact ⟨hit, hin, by omega⟩
      · rintro ⟨hit, hin, hle⟩
        exact ⟨hit, hin, by omega⟩

/-- A hit outside of a window, on the frame before that of the timers. -/
theorem Windows.strike (h : Windows interval timers player hits)
    (hinvincible : player.invincible = false) {frame id : Nat} {timers' : TimerQueue TimerAction}
    (hframe : timers.frame = frame + 1)
    (honce : timers.once player.window .endInvincibility = .ok (id, timers')) :
    Windows interval timers' { player with invincible := true } (hits ++ [frame]) ∧
      timers'.frame = timers.frame := by
  obtain ⟨hlt, rfl⟩ : timers.frame + max player.window 1 < timerCapacity ∧
      timers' = (timers.arm player.window ⟨.endInvincibility, none⟩).2 := by
    rw [TimerQueue.once, TimerQueue.insert] at honce
    split at honce
    · next hlt =>
      rw [Except.ok.injEq, Prod.mk.injEq] at honce
      exact ⟨hlt, honce.2.symm⟩
    · cases honce
  have hclosed : ∀ hit ∈ hits, hit + max player.window 1 ≤ frame := by
    intro hit hin
    have hnot : ¬ timers.frame ≤ hit + max player.window 1 := fun hle =>
      Bool.eq_false_iff.1 hinvincible (h.invincible_iff.2 ⟨hit, hin, hle⟩)
    omega
  refine ⟨⟨?_, ?_, ?_, ?_⟩, rfl⟩
  · have hopen : (Plan.once player.window).isOpen timers.frame timers.frame = true :=
      decide_eq_true (by omega)
    have harm : (timers.arm player.window ⟨.endInvincibility, none⟩).2.Follows _ :=
      h.follows.arm hopen rfl
    rw [Timetable.add, Fight.timetable, hframe] at harm
    rw [Fight.timetable, List.map_append]
    rw [show (timers.arm player.window ⟨.endInvincibility, none⟩).2.frame = frame + 1 from hframe]
    exact harm
  · rw [List.pairwise_append]
    refine ⟨h.spaced, List.pairwise_singleton _ _, ?_⟩
    intro hit hin last hlast
    obtain rfl := List.mem_singleton.1 hlast
    exact hclosed hit hin
  · intro hit hin
    show hit < timers.frame
    rcases List.mem_append.1 hin with hin | hin
    · exact h.past hit hin
    · obtain rfl := List.mem_singleton.1 hin
      omega
  · refine ⟨fun _ => ⟨frame, List.mem_append_right _ List.mem_cons_self, ?_⟩, fun _ => rfl⟩
    show timers.frame ≤ frame + max player.window 1
    omega

end

/-! ## Windows over a frame -/

/-- What is below the next number is below this one, or is this one. -/
theorem filter_lt_succ {l : List Nat} (h : l.Pairwise (· ≤ ·)) (n : Nat) :
    l.filter (fun a => decide (a < n + 1)) =
      l.filter (fun a => decide (a < n)) ++ l.filter (· == n) := by
  induction l with
  | nil => rfl
  | cons a rest ih =>
    obtain ⟨hafter, h⟩ := List.pairwise_cons.1 h
    rw [List.filter_cons, List.filter_cons, List.filter_cons, ih h]
    rcases Nat.lt_trichotomy a n with hlt | rfl | hgt
    · rw [if_pos (decide_eq_true (Nat.lt_succ_of_lt hlt)), if_pos (decide_eq_true hlt),
        if_neg (by rw [beq_iff_eq]; exact Nat.ne_of_lt hlt)]
      rfl
    · have hnone : rest.filter (fun b => decide (b < a)) = [] := by
        rw [List.filter_eq_nil_iff]
        intro b hb hlt
        exact Nat.not_lt.2 (hafter b hb) (of_decide_eq_true hlt)
      rw [if_pos (decide_eq_true (Nat.lt_succ_self a)),
        if_neg (by rw [decide_eq_true_eq]; exact Nat.lt_irrefl a), if_pos (beq_self_eq_true a),
        hnone]
      rfl
    · rw [if_neg (by rw [decide_eq_true_eq]; omega), if_neg (by rw [decide_eq_true_eq]; omega),
        if_neg (by rw [beq_iff_eq]; omega)]

section
variable [Scalar K]

namespace Stages

variable {f g : Fight K} {keys : ActionSet} {events : List Event}

/-- A frame tells of the windows whose timers fired. -/
theorem windowEnds_sort (s : Stages f keys g events) : windowEnds (Event.sort events) =
    List.replicate (f.timers.advance.1.count .endInvincibility) f.frame := by
  obtain ⟨energy, -, hends⟩ := s.timed_fst
  rw [windowEnds, s.filterMap_sort Event.phase_of_windowEnd?, hends, List.filterMap_replicate]
  · rfl
  · rw [hends]
    exact List.pairwise_replicate.2 (.inr (Event.isLE_cmp_refl _))

/-- Over a frame at most one hit comes to those before, and the windows that are over with this
frame end. -/
theorem windows (s : Stages f keys g events) {interval : Nat} {hits : List Nat}
    (h : Windows interval f.timers f.player hits) (hframe : f.timers.frame = f.frame) :
    (hitFrames (Event.sort events) = [] ∨ hitFrames (Event.sort events) = [f.frame]) ∧
    Windows interval g.timers g.player (hits ++ hitFrames (Event.sort events)) ∧
    g.timers.frame = g.frame ∧ g.player.window = f.player.window ∧
    windowEnds (Event.sort events) =
      (hits.map (· + max f.player.window 1)).filter (· == f.frame) := by
  obtain ⟨energy, htimed, -⟩ := s.timed_fst
  obtain ⟨⟨weapon, energy', world, enemies, rng, log, hg⟩, -⟩ := s.settled
  have htimers : g.timers = s.hit.timers := (congrArg Fight.timers hg :)
  have hplayer : g.player = { s.hit.player with weapon } := (congrArg Fight.player hg :)
  have htimed_timers : s.timed.moveBodies.timers = f.timers.advance.2 :=
    (congrArg (·.moveBodies.timers) htimed :)
  have htimed_player : s.timed.moveBodies.player =
      if .endInvincibility ∈ f.timers.advance.1 then f.player.endWindow else f.player :=
    (congrArg (·.moveBodies.player) htimed :)
  have hwindow : s.timed.moveBodies.player.window = f.player.window := by
    rw [htimed_player]
    split <;> rfl
  have hadvance := h.advance
  rw [← htimed_timers, ← htimed_player] at hadvance
  have hnow : s.timed.moveBodies.timers.frame = f.frame + 1 := by
    rw [htimed_timers, ← hframe]
    exact TimerQueue.frame_fire _
  have hends : windowEnds (Event.sort events) =
      (hits.map (· + max f.player.window 1)).filter (· == f.frame) := by
    rw [s.windowEnds_sort, h.count_advance, List.filter_beq, List.count_eq_countP, List.countP_map,
      hframe]
    rfl
  rw [hitFrames, s.filterMap_playerHit?, htimers, s.frame_eq, hplayer]
  rcases Fight.hitPlayerPhase_cases s.hit_eq with
    ⟨hhit, hnone, -⟩ | ⟨hopen, -, id, timers, honce, hhit, hone⟩
  · rw [hnone, hhit, List.filterMap_nil, List.map_nil, List.append_nil]
    exact ⟨.inl rfl, hadvance.of_player rfl rfl, hnow, hwindow, hends⟩
  · obtain ⟨hstrike, hlater⟩ := hadvance.strike hopen hnow honce
    rw [hone, hhit]
    have hhits : [Event.on s.timed.moveBodies.frame (.playerHit
        (s.timed.moveBodies.status.addLives (-1)).lives)].filterMap Event.playerHit? =
        [(f.frame, (s.timed.moveBodies.status.addLives (-1)).lives)] :=
      congrArg (fun frame => [(frame, _)]) s.frame_timed
    rw [hhits, List.map_singleton]
    exact ⟨.inr rfl, hstrike.of_player rfl rfl, hlater.trans hnow, hwindow, hends⟩

end Stages

end

/-! ## Windows over a run -/

namespace Fight

variable {f g : Fight K}

/-- What every call keeps of a fight and of what was told of its windows. -/
structure WindowsTold (interval window : Nat) (f : Fight K) (reports : List TickReport) :
    Prop where
  windows : Windows interval f.timers f.player (hitFrames (told reports))
  frame_eq : f.timers.frame = f.frame
  window_eq : f.player.window = window
  once : ∀ report ∈ reports, (hitFrames report.events).length ≤ 1
  ends_eq : windowEnds (told reports) =
    ((hitFrames (told reports)).map (· + max window 1)).filter (· < f.frame)

/-- A call on which nothing happens. -/
theorem WindowsTold.quiet {interval window : Nat} {reports : List TickReport}
    (h : WindowsTold interval window f reports) (pause ended : Bool) :
    WindowsTold interval window f (reports ++ [⟨[], pause, ended⟩]) := by
  have htold := told_quiet reports pause ended
  obtain ⟨hwindows, hframe, hwindow, honce, hends⟩ := h
  refine ⟨htold ▸ hwindows, hframe, hwindow, ?_, htold ▸ hends⟩
  intro report hin
  rcases List.mem_append.1 hin with hin | hin
  · exact honce report hin
  · obtain rfl := List.mem_singleton.1 hin
    exact Nat.zero_le _

section
variable [Scalar K]

/-- Every tick keeps the timetable of the windows. -/
theorem chronicle_windowsTold (interval window : Nat) :
    Chronicle (K := K) (WindowsTold interval window) where
  withKeys _ h := ⟨h.windows, h.frame_eq, h.window_eq, h.once, h.ends_eq⟩
  ended _ h := h.quiet false true
  pause _ h := h.quiet true false
  frame {f g reports keys events} _ s h := by
    obtain ⟨hhits, hwindows, hframe, hwindow, hends⟩ := s.windows h.windows h.frame_eq
    rw [h.window_eq] at hwindow hends
    have hold : hitFrames (told (reports ++ [⟨Event.sort events, false, g.ended⟩])) =
        hitFrames (told reports) ++ hitFrames (Event.sort events) := by
      rw [told_concat, hitFrames_append]
    have hspaced : ((hitFrames (told reports)).map (· + max window 1)).Pairwise (· ≤ ·) := by
      have := h.windows.spaced
      rw [h.window_eq] at this
      exact List.pairwise_map.2 (this.imp fun hle => by omega)
    -- the window of a new hit is still running
    have hnew : ((hitFrames (Event.sort events)).map (· + max window 1)).filter
        (fun frame => decide (frame < f.frame + 1)) = [] := by
      rw [List.filter_eq_nil_iff]
      intro frame hend
      obtain ⟨hit, hin, rfl⟩ := List.mem_map.1 hend
      rw [decide_eq_true_eq]
      rcases hhits with hnone | hone
      · rw [hnone] at hin
        cases hin
      · rw [hone] at hin
        obtain rfl := List.mem_singleton.1 hin
        omega
    refine ⟨hold ▸ hwindows, hframe, hwindow, ?_, ?_⟩
    · intro report hin
      rcases List.mem_append.1 hin with hin | hin
      · exact h.once report hin
      · obtain rfl := List.mem_singleton.1 hin
        rcases hhits with hnone | hone
        · exact Nat.le_trans (Nat.le_of_eq (congrArg List.length hnone)) (Nat.zero_le 1)
        · exact Nat.le_of_eq (congrArg List.length hone)
    · rw [hold, List.map_append, List.filter_append, s.frame_eq, hnew, List.append_nil,
        filter_lt_succ hspaced, ← hends, ← h.ends_eq, told_concat, windowEnds_append]

/-- Before the first frame energy is to come and nothing else. -/
theorem windowsTold_of_start {assets : Assets K} {settings : Settings K}
    (hstart : start assets settings = .ok f) : ∃ sheet, assets.player = .ok sheet ∧
      WindowsTold settings.energyInterval sheet.invincibility f [] := by
  obtain ⟨sheet, sizes, entries, arrivals, hsheet, -, -, -, rfl⟩ := start_eq_ok hstart
  refine ⟨sheet, hsheet, ⟨?_, List.Pairwise.nil, nofun, nofun, nofun⟩, rfl, rfl, nofun, rfl⟩
  have hnext : (Plan.every settings.energyInterval).next 0 0 =
      0 + max (max settings.energyInterval 1) 1 := by
    simp only [Plan.next, Nat.sub_self, Nat.zero_div]
    omega
  show (startTimers settings.energyInterval).Follows (timetable _ _ _ [])
  exact TimerQueue.Follows.empty.arm rfl hnext

/-- What holds of a fight, and of its reports so far, when hits open windows of a length. -/
structure WindowsKept (window : Nat) (g : Fight K) (reports : List TickReport) : Prop where
  /-- The timers are on the frame of the fight. -/
  frame_eq : g.timers.frame = g.frame
  gains_pending : g.timers.countP (·.action == .gainEnergy) = 1
  ends_pending : g.timers.countP (·.action == .endInvincibility) =
    if g.player.invincible then 1 else 0
  /-- At most one hit counts in a tick. -/
  hit_once : ∀ report ∈ reports, (hitFrames report.events).length ≤ 1
  hits_spaced : (hitFrames (told reports)).Pairwise fun a b => a + window ≤ b
  /-- Windows end after their length, each of them once, as far as frames were simulated. -/
  ends_eq : windowEnds (told reports) =
    ((hitFrames (told reports)).map (· + window)).filter (· < g.frame)

/-- In every fight that a run can come to, the window of the player and the timer that ends it
agree, and so do the hits and the ends of windows that were told. -/
theorem run_windows {assets : Assets K} {settings : Settings K}
    (hstart : start assets settings = .ok f) {calls : List Call} {reports : List TickReport}
    (hrun : f.run calls = .ok (g, reports)) :
    ∃ sheet, assets.player = .ok sheet ∧ WindowsKept (max sheet.invincibility 1) g reports := by
  obtain ⟨sheet, hsheet, hbefore⟩ := windowsTold_of_start hstart
  obtain ⟨hwindows, hframe, hwindow, honce, hends⟩ :=
    (chronicle_windowsTold settings.energyInterval sheet.invincibility).run hrun hbefore
  obtain ⟨hgains, hpending⟩ := hwindows.countP_action
  refine ⟨sheet, hsheet, hframe, hgains, hpending, honce, ?_, hends⟩
  rw [← hwindow]
  exact hwindows.spaced

end

end Fight

/-- At the end of the siege the window of the last hit is running, and its end is to come. -/
theorem Siege.run_windows_calls : ∃ f g reports, Fight.start assets settings = .ok f ∧
    f.run calls = .ok (g, reports) ∧ g.player.invincible = true ∧
    ∃ sheet, assets.player = .ok sheet ∧
      Fight.WindowsKept (max sheet.invincibility 1) g reports := by
  obtain ⟨f, g, reports, hstart, hrun, hend, -⟩ := run_calls
  simp only [Prod.mk.injEq] at hend
  exact ⟨f, g, reports, hstart, hrun, hend.2.2.2, Fight.run_windows hstart hrun⟩

end Barrage
