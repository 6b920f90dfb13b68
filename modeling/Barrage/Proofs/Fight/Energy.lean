import Barrage.Proofs.Fight.Pause
import Barrage.Proofs.Fight.Windows

/-!
# Energy in closed form

Energy is gained on every frame that completes an interval, up to what the special takes, and the
special spends all of it. What a gain leaves out at the bound is never missed: a sum that is cut at
the bound after each gain is the whole sum, cut once (`Fight.energy_applyTimers`). So the energy
after a number of frames follows from that number and from the frame on which the special was last
used (`energyAfter`).

A frame first gains and then spends (`Stages.energy`), hence the special can be used on the very
frame that completes its energy. `Fight.run_energy` says what this comes to over a whole run.
-/

namespace Barrage

variable {K : Type}

/-- Frames on which the special was used. -/
def specialFrames (events : List Event) : List Nat := events.filterMap Event.special?

/-- The frames of the specials that events tell come one after the other. -/
theorem specialFrames_append (events later : List Event) :
    specialFrames (events ++ later) = specialFrames events ++ specialFrames later :=
  List.filterMap_append

/-- The energy after a number of frames, when so much is gained with each interval and the special,
which takes `required`, was last used on some frame or not at all. -/
def energyAfter (gain interval required : Nat) : (last : Option Nat) → (frames : Nat) → Nat
  | none, frames => min required (gain * (frames / interval))
  | some last, frames => min required (gain * (frames / interval - (last + 1) / interval))

section
variable {gain interval required : Nat} {last : Option Nat} {frames : Nat}

/-- The frame that completes an interval gains, and any other one does not. -/
theorem energyAfter_succ (hlast : ∀ m ∈ last, m < frames) :
    energyAfter gain interval required last (frames + 1) =
      min required (energyAfter gain interval required last frames +
        gain * if interval ∣ frames + 1 then 1 else 0) := by
  cases last with
  | none =>
    rw [energyAfter, energyAfter, Nat.succ_div, Nat.mul_add]
    omega
  | some m =>
    have hle : (m + 1) / interval ≤ frames / interval :=
      Nat.div_le_div_right (hlast m rfl)
    rw [energyAfter, energyAfter, Nat.succ_div, Nat.sub_add_comm hle, Nat.mul_add]
    omega

/-- Nothing is left on the frame of the special. -/
theorem energyAfter_self (m : Nat) : energyAfter gain interval required (some m) (m + 1) = 0 := by
  rw [energyAfter, Nat.sub_self, Nat.mul_zero, Nat.min_zero]

/-- There is never more energy than the special takes. -/
theorem energyAfter_le : energyAfter gain interval required last frames ≤ required := by
  cases last with
  | none => exact Nat.min_le_left _ _
  | some m => exact Nat.min_le_left _ _

end

/-- The timer of the energy fires on the frames that complete an interval. -/
theorem Windows.count_gains {interval : Nat} {timers : TimerQueue TimerAction} {player : Player K}
    {hits : List Nat} (h : Windows interval timers player hits) :
    timers.advance.1.count .gainEnergy =
      if max interval 1 ∣ timers.frame + 1 then 1 else 0 := by
  have hdue : (Plan.every interval).Due 0 (timers.frame + 1) ↔ max interval 1 ∣ timers.frame + 1 :=
    (Plan.exists_eq_add_mul_iff (by omega) _).trans (and_iff_right (Nat.succ_pos _))
  have hhits : (hits.map (Fight.windowTimer player.window)).countP (fun a =>
      a.action == .gainEnergy && a.fires (timers.frame + 1)) = 0 := by
    rw [List.countP_map, List.countP_eq_zero]
    exact fun _ _ => Bool.false_ne_true
  rw [h.follows.advance_fst, List.count_eq_countP, List.countP_map, List.countP_filter]
  refine (List.countP_cons ..).trans ?_
  refine (congrArg (· + _) hhits).trans ?_
  rw [Nat.zero_add]
  show (if decide ((Plan.every interval).Due 0 (timers.frame + 1)) = true then 1 else 0) = _
  simp only [decide_eq_true_eq, hdue]

/-! ## Energy over a frame -/

/-- Several gains in a row are cut at the bound as one. -/
theorem Fight.energy_applyTimers (f : Fight K) (actions : List TimerAction)
    (h : f.status.energy ≤ f.status.energyRequired) :
    (f.applyTimers actions).1.status.energy = min f.status.energyRequired
      (f.status.energy + f.settings.energyGain * actions.count .gainEnergy) := by
  induction actions generalizing f with
  | nil => exact (Nat.min_eq_right h).symm
  | cons action rest ih =>
    have hstep := ih (f.applyTimer action).1
    rw [applyTimers_cons]
    cases action with
    | endInvincibility => exact hstep h
    | gainEnergy =>
      have hgain : (f.status.addEnergy f.settings.energyGain).energy =
          min f.status.energyRequired (f.status.energy + f.settings.energyGain) := by
        simp only [Status.addEnergy, clampTo]
        omega
      refine (hstep (Status.energy_addEnergy_le _ _)).trans ?_
      show min f.status.energyRequired ((f.status.addEnergy f.settings.energyGain).energy +
        f.settings.energyGain * rest.count .gainEnergy) = _
      rw [hgain, List.count_cons_self, Nat.mul_succ]
      omega

section
variable [Scalar K]

/-- The player uses the special when its key is active and the energy is full. That spends all
energy, and nothing else does. -/
theorem Fight.playerPhase_special (f : Fight K) (keys : ActionSet) :
    (f.status.energy = f.status.energyRequired ∧ keys.has .special = true ∧
      (f.playerPhase keys).1.status = { f.status with energy := 0 } ∧
      (f.playerPhase keys).2 = [.on f.frame (.specialExecuted f.status.special)]) ∨
    (¬ (f.status.energy = f.status.energyRequired ∧ keys.has .special = true) ∧
      (f.playerPhase keys).1.status = f.status ∧ (f.playerPhase keys).2 = []) := by
  have hready : (f.status.isReady && keys.has .special) = true ↔
      f.status.energy = f.status.energyRequired ∧ keys.has .special = true := by
    rw [Bool.and_eq_true, Status.isReady, beq_iff_eq]
  rw [playerPhase]
  dsimp only
  rw [useSpecial]
  split
  · next h => exact .inl ⟨(hready.1 h).1, (hready.1 h).2, rfl, rfl⟩
  · next h => exact .inr ⟨mt hready.2 h, rfl, rfl⟩

namespace Stages

variable {f g : Fight K} {keys : ActionSet} {events : List Event}

/-- Behind the player's actions a frame leaves lives and energy as they are. -/
theorem status_eq (s : Stages f keys g events) : g.status = s.acted.status := by
  obtain ⟨world, enemies, log, hjoined⟩ := s.joined_fst
  obtain ⟨world', rng, enemies', hmoved⟩ := s.moved_fst
  rw [(congrArg Fight.status s.counted_fst.1 :), hmoved, hjoined]

/-- When the player acts, its energy is what was there and what the timers delivered. -/
theorem energy_struck (s : Stages f keys g events)
    (h : f.status.energy ≤ f.status.energyRequired) :
    s.struck.status.energyRequired = f.status.energyRequired ∧
    s.struck.status.energy = min f.status.energyRequired
      (f.status.energy + f.settings.energyGain * f.timers.advance.1.count .gainEnergy) := by
  obtain ⟨energy, htimed, -⟩ := s.timed_fst
  obtain ⟨world, enemies, hstruck⟩ := s.struck_fst
  have hgained := Fight.energy_applyTimers { f with timers := f.timers.advance.2 }
    f.timers.advance.1 h
  have htimed_energy : s.timed.status.energy = _ :=
    (congrArg (·.1.status.energy) s.timed_eq).symm.trans hgained
  have htimed_required : s.timed.status.energyRequired = f.status.energyRequired :=
    (congrArg (·.status.energyRequired) htimed :)
  have hstatus : s.struck.status = s.hit.status := (congrArg Fight.status hstruck :)
  rw [hstatus, ← htimed_energy, ← htimed_required]
  -- a hit takes a life and leaves the energy
  rcases Fight.hitPlayerPhase_cases s.hit_eq with ⟨hhit, -, -⟩ | ⟨-, -, id, timers, -, hhit, -⟩
  · rw [hhit]
    exact ⟨rfl, rfl⟩
  · rw [hhit]
    exact ⟨rfl, rfl⟩

/-- A frame gains what its timers deliver. Then the special is used if its key is active and the
energy is full, and nothing is left. -/
theorem energy (s : Stages f keys g events) (h : f.status.energy ≤ f.status.energyRequired)
    {gained : Nat} (hgained : gained = min f.status.energyRequired
      (f.status.energy + f.settings.energyGain * f.timers.advance.1.count .gainEnergy)) :
    g.status.energyRequired = f.status.energyRequired ∧
    ((gained = f.status.energyRequired ∧ keys.has .special = true ∧
        g.status.energy = 0 ∧ specialFrames (Event.sort events) = [f.frame]) ∨
      (¬ (gained = f.status.energyRequired ∧ keys.has .special = true) ∧
        g.status.energy = gained ∧ specialFrames (Event.sort events) = [])) := by
  obtain ⟨hrequired, henergy⟩ := s.energy_struck h
  obtain ⟨world, enemies, hstruck⟩ := s.struck_fst
  have hframe : s.struck.frame = f.frame := (congrArg Fight.frame hstruck :).trans s.frame_hit
  have hacted : (s.struck.playerPhase keys).1 = s.acted := congrArg Prod.fst s.acted_eq
  have hevents : (s.struck.playerPhase keys).2 = s.happened .player := congrArg Prod.snd s.acted_eq
  rw [← hgained] at henergy
  have hspecial := s.struck.playerPhase_special keys
  rw [hacted, hevents, ← s.status_eq, henergy, hrequired, hframe] at hspecial
  have hsorted : (s.happened .player).Pairwise fun a b => (Event.cmp a b).isLE := by
    rcases hspecial with ⟨-, -, -, hone⟩ | ⟨-, -, hnone⟩
    · rw [hone]
      exact List.pairwise_singleton _ _
    · rw [hnone]
      exact List.Pairwise.nil
  rw [specialFrames, s.filterMap_sort Event.phase_of_special? hsorted]
  rcases hspecial with ⟨hfull, hkey, hstatus, hone⟩ | ⟨hnot, hstatus, hnone⟩
  · rw [hstatus, hone]
    exact ⟨hrequired, .inl ⟨hfull, hkey, rfl, rfl⟩⟩
  · rw [hstatus, hnone]
    exact ⟨hrequired, .inr ⟨hnot, henergy, rfl⟩⟩

end Stages

end

/-! ## Energy over a run -/

namespace Fight

section
variable {f : Fight K}

/-- What every call keeps of a fight whose special takes so much, and of what was told of its
specials. -/
structure EnergyTold (settings : Settings K) (window required : Nat) (f : Fight K)
    (reports : List TickReport) : Prop where
  windows : WindowsTold settings.energyInterval window f reports
  settings_eq : f.settings = settings
  required_eq : f.status.energyRequired = required
  energy_eq : f.status.energy = energyAfter settings.energyGain (max settings.energyInterval 1)
    required (specialFrames (told reports)).getLast? f.frame
  ascending : (specialFrames (told reports)).Pairwise (· < ·)
  used_lt : ∀ frame ∈ specialFrames (told reports), frame < f.frame

variable {settings : Settings K} {window required : Nat} {reports : List TickReport}

/-- A tick that tells nothing leaves the account of the energy as it is. -/
theorem EnergyTold.quiet (h : EnergyTold settings window required f reports) (pause ended : Bool) :
    EnergyTold settings window required f (reports ++ [⟨[], pause, ended⟩]) := by
  have htold := told_quiet reports pause ended
  exact ⟨h.windows.quiet pause ended, h.settings_eq, h.required_eq, htold ▸ h.energy_eq,
    htold ▸ h.ascending, htold ▸ h.used_lt⟩

/-- The energy with which the player acts on the next frame. -/
theorem EnergyTold.gained_eq (h : EnergyTold settings window required f reports) :
    energyAfter settings.energyGain (max settings.energyInterval 1) required
      (specialFrames (told reports)).getLast? (f.frame + 1) = min f.status.energyRequired
        (f.status.energy + f.settings.energyGain * f.timers.advance.1.count .gainEnergy) := by
  have hlast : ∀ frame ∈ (specialFrames (told reports)).getLast?, frame < f.frame :=
    fun frame hin => h.used_lt frame (List.mem_of_getLast? hin)
  rw [energyAfter_succ hlast, ← h.energy_eq, h.required_eq, h.settings_eq,
    h.windows.windows.count_gains, h.windows.frame_eq]

/-- The energy of the fight is at most what the special takes. -/
theorem EnergyTold.energy_le (h : EnergyTold settings window required f reports) :
    f.status.energy ≤ f.status.energyRequired := by
  rw [h.energy_eq, h.required_eq]
  exact energyAfter_le

end

variable [Scalar K] {f g : Fight K} {settings : Settings K} {reports : List TickReport}

/-- Every tick keeps the account of the energy. -/
theorem chronicle_energyTold (settings : Settings K) (window required : Nat) :
    Chronicle (EnergyTold settings window required) where
  withKeys keys h := ⟨(chronicle_windowsTold _ _).withKeys keys h.windows, h.settings_eq,
    h.required_eq, h.energy_eq, h.ascending, h.used_lt⟩
  ended _ h := h.quiet false true
  pause _ h := h.quiet true false
  frame {f g reports keys events} hended s h := by
    have hwindows := (chronicle_windowsTold _ _).frame hended s h.windows
    obtain ⟨hrequired, hcases⟩ := s.energy h.energy_le h.gained_eq
    have htold : specialFrames (told (reports ++ [⟨Event.sort events, false, g.ended⟩])) =
        specialFrames (told reports) ++ specialFrames (Event.sort events) := by
      rw [told_concat, specialFrames_append]
    have hframe := s.frame_eq
    have hlater : ∀ frame ∈ specialFrames (told reports), frame < f.frame + 1 :=
      fun frame hin => Nat.lt_succ_of_lt (h.used_lt frame hin)
    refine ⟨hwindows, s.settings_eq.trans h.settings_eq, hrequired.trans h.required_eq, ?_, ?_, ?_⟩
    · rw [htold, hframe]
      rcases hcases with ⟨-, -, hzero, hone⟩ | ⟨-, hgained, hnone⟩
      · rw [hzero, hone, List.getLast?_concat, energyAfter_self]
      · rw [hgained, hnone, List.append_nil]
    · rw [htold]
      rcases hcases with ⟨-, -, -, hone⟩ | ⟨-, -, hnone⟩
      · rw [hone]
        refine List.pairwise_append.2 ⟨h.ascending, List.pairwise_singleton _ _, ?_⟩
        intro frame hin now hnow
        exact Nat.lt_of_lt_of_eq (h.used_lt frame hin) (List.mem_singleton.1 hnow).symm
      · rw [hnone, List.append_nil]
        exact h.ascending
    · rw [htold, hframe]
      rcases hcases with ⟨-, -, -, hone⟩ | ⟨-, -, hnone⟩
      · rw [hone]
        exact List.forall_mem_append.2 ⟨hlater, List.forall_mem_singleton.2 (Nat.lt_succ_self _)⟩
      · rw [hnone, List.append_nil]
        exact hlater

/-- Before the first frame there is no energy. -/
theorem energyTold_of_start {assets : Assets K} (hstart : start assets settings = .ok f) :
    ∃ sheet, assets.player = .ok sheet ∧
      EnergyTold settings sheet.invincibility sheet.special.energyRequired f [] := by
  obtain ⟨sheet, hsheet, hwindows⟩ := windowsTold_of_start hstart
  obtain ⟨sheet', sizes, entries, arrivals, hsheet', -, -, -, rfl⟩ := start_eq_ok hstart
  obtain rfl : sheet = sheet' := Except.ok.inj (hsheet.symm.trans hsheet')
  refine ⟨sheet, hsheet, hwindows, rfl, rfl, ?_, List.Pairwise.nil, nofun⟩
  show 0 = min sheet.special.energyRequired
    (settings.energyGain * (0 / max settings.energyInterval 1))
  rw [Nat.zero_div, Nat.mul_zero, Nat.min_zero]

/-- What holds of a fight in which so much energy is gained with each interval and the special takes
`required`, of its reports so far, and of the next one. -/
structure EnergyKept (gain interval required : Nat) (g : Fight K) (reports : List TickReport) :
    Prop where
  /-- The energy follows from the frames so far and from the last use of the special, ... -/
  energy_eq : g.status.energy =
    energyAfter gain interval required (specialFrames (told reports)).getLast? g.frame
  ascending : (specialFrames (told reports)).Pairwise (· < ·)
  /-- ... and as long as the fight goes on, its frames are the ticks without a pause. -/
  frame_eq : g.ended = false → g.frame = reports.countP fun report => !report.pauseRequested
  /-- The special is used on a frame if its key is held and the energy, with what the frame gains,
  is full. -/
  used_eq : ∀ {raw : ActionSet} {g' : Fight K} {report : TickReport},
    g.tick raw = .ok (g', report) → specialFrames report.events =
      if g.ended = false ∧ report.pauseRequested = false ∧ raw.has .special = true ∧
        energyAfter gain interval required (specialFrames (told reports)).getLast? (g.frame + 1) =
          required
      then [g.frame] else []
  /-- That spends all energy. -/
  energy_of_used : ∀ {raw : ActionSet} {g' : Fight K} {report : TickReport},
    g.tick raw = .ok (g', report) → specialFrames report.events ≠ [] → g'.status.energy = 0

/-- What a tick tells of the special, when what is held is active. -/
theorem EnergyTold.used {window required : Nat} (h : EnergyTold settings window required f reports)
    {raw : ActionSet} {report : TickReport} (htick : f.tick raw = .ok (g, report))
    (hkeys : f.ended = false → (f.keys.update raw).active.has .special = raw.has .special) :
    (specialFrames report.events =
      if f.ended = false ∧ report.pauseRequested = false ∧ raw.has .special = true ∧
        energyAfter settings.energyGain (max settings.energyInterval 1) required
          (specialFrames (told reports)).getLast? (f.frame + 1) = required
      then [f.frame] else []) ∧
    (specialFrames report.events ≠ [] → g.status.energy = 0) := by
  rcases tick_cases htick with
    ⟨hended, rfl, rfl⟩ | ⟨hended, -, rfl, rfl⟩ | ⟨hended, -, events, hsim, rfl⟩
  · rw [if_neg fun hall => Bool.false_ne_true (hall.1.symm.trans hended)]
    exact ⟨rfl, fun hne => absurd rfl hne⟩
  · rw [if_neg fun hall => Bool.false_ne_true hall.2.1.symm]
    exact ⟨rfl, fun hne => absurd rfl hne⟩
  · obtain ⟨s⟩ := simulate_stages hsim
    have hnow : EnergyTold settings window required { f with keys := f.keys.update raw } reports :=
      (chronicle_energyTold settings window required).withKeys _ h
    obtain ⟨-, hcases⟩ := s.energy hnow.energy_le hnow.gained_eq
    rw [hkeys hended, hnow.required_eq] at hcases
    rcases hcases with ⟨hfull, hkey, hzero, hone⟩ | ⟨hnot, -, hnone⟩
    · rw [if_pos ⟨hended, rfl, hkey, hfull⟩]
      exact ⟨hone, fun _ => hzero⟩
    · rw [if_neg fun hall => hnot ⟨hall.2.2.2, hall.2.2.1⟩]
      exact ⟨hnone, fun hne => absurd hnone hne⟩

/-- In every run the energy is what was gained since the special was used last, up to what it takes,
and the special is used on the frames on which its key is held and the energy is full. -/
theorem run_energy {assets : Assets K} (hstart : start assets settings = .ok f)
    {calls : List Call} (hrun : f.run calls = .ok (g, reports)) :
    ∃ sheet, assets.player = .ok sheet ∧
      EnergyKept settings.energyGain (max settings.energyInterval 1) sheet.special.energyRequired g
        reports := by
  obtain ⟨sheet, hsheet, hbefore⟩ := energyTold_of_start hstart
  have hafter := (chronicle_energyTold _ _ _).run_start hrun hbefore
  have hcounted : g.ended = false → g.frame = reports.countP fun report => !report.pauseRequested :=
    chronicle_counted.run_start hrun fun _ => by
      obtain ⟨level, -, rfl⟩ := map_eq_ok_iff.1 hstart
      rfl
  have hkeys : ∀ raw, g.ended = false →
      (g.keys.update raw).active.has .special = raw.has .special :=
    fun raw hended => has_active_of_run hstart hrun hended raw nofun
  exact ⟨sheet, hsheet, hafter.energy_eq, hafter.ascending, hcounted,
    fun htick => (hafter.used htick (hkeys _)).1, fun htick => (hafter.used htick (hkeys _)).2⟩

end Fight

/-- The settings of a siege in which energy is gained on every frame. -/
def Siege.restless : Settings Binary64 := { settings with energyInterval := 0 }

/-- In such a siege the first frame fills the energy, and the special spends it at once: without a
special there would be energy for one. The pauses before and after that frame do not count. -/
theorem Siege.run_energy_special : ∃ f g reports sheet,
    Fight.start assets restless = .ok f ∧
    f.run [.tick (.ofList [.special, .pause]), .resume, .tick (.ofList [.special]),
      .tick (.ofList [.pause])] = .ok (g, reports) ∧
    assets.player = .ok sheet ∧
    (g.frame, g.ended, g.status.energy, sheet.special.energyRequired) = (1, false, 0, 2) ∧
    specialFrames (told reports) ≠ [] ∧
    Fight.EnergyKept restless.energyGain (max restless.energyInterval 1)
      sheet.special.energyRequired g reports := by
  have hrun : ((Fight.start assets restless).toOption.bind fun f =>
      (f.run [.tick (.ofList [.special, .pause]), .resume, .tick (.ofList [.special]),
        .tick (.ofList [.pause])]).toOption.bind fun r => assets.player.toOption.map fun sheet =>
          (r.1.frame, r.1.ended, r.1.status.energy, sheet.special.energyRequired)) =
      some (1, false, 0, 2) := by
    decide +kernel
  obtain ⟨f, hstart, hrun⟩ := toOption_bind_eq_some_iff.1 hrun
  obtain ⟨⟨g, reports⟩, hrun, hend⟩ := toOption_bind_eq_some_iff.1 hrun
  obtain ⟨sheet, hsheet, hend⟩ := toOption_map_eq_some_iff.1 hend
  obtain ⟨sheet', hsheet', hkept⟩ := Fight.run_energy hstart hrun
  obtain rfl : sheet = sheet' := Except.ok.inj (hsheet.symm.trans hsheet')
  refine ⟨f, g, reports, sheet, hstart, hrun, hsheet, hend, ?_, hkept⟩
  intro hnone
  have henergy := hkept.energy_eq
  simp only [Prod.mk.injEq] at hend
  rw [hnone, hend.1, hend.2.2.1, hend.2.2.2] at henergy
  revert henergy
  decide

end Barrage
