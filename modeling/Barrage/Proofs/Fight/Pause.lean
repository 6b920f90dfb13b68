import Barrage.Proofs.Fight.Aside
import Barrage.Proofs.Input.Keyboard

/-!
# Pauses leave no trace

Within a fight no key is ever blocked, so all that the keyboard of a fight knows is whether the
pause key was held (`Keyboard.Calm`). A tick either asks for a pause, when the pause key goes down,
or simulates a frame with the seven actions that play; and a simulated frame neither reads nor
changes the keyboard (`Fight.simulate_withKeys`).

So a run may be stripped of its pauses (`Fight.unpaused`): without the resumptions, without the
ticks on which the pause key goes down, and with nothing but the seven actions held on the others,
it comes to the same fight with the same events, the keyboard apart (`Fight.run_unpaused`).
-/

namespace Barrage

namespace ActionSet

/-- The bits of the actions that a simulated frame looks at: all but pause and enter. -/
def playing (s : ActionSet) : ActionSet := ⟨s.bits &&& 0x7f⟩

/-- Pause and enter are left out, and the others are as before. -/
theorem has_playing (s : ActionSet) (a : Action) :
    s.playing.has a = (s.has a && decide (a ≠ .pause) && decide (a ≠ .enter)) := by
  simp only [has, playing, BitVec.getLsbD_and]
  rw [Bool.and_assoc]
  congr 1
  cases a <;> decide

/-- The keys without the pause key are the same when it is taken out again. -/
@[simp] theorem playing_playing (s : ActionSet) : s.playing.playing = s.playing := by
  rw [playing, playing, BitVec.and_assoc, BitVec.and_self]

/-- Two sets agree on the actions that a simulated frame looks at. -/
def SamePlay (s t : ActionSet) : Prop := ∀ a, a ≠ .pause → a ≠ .enter → s.has a = t.has a

end ActionSet

namespace Fight

variable {K : Type}

/-- The fight with another keyboard. -/
def withKeys (f : Fight K) (keys : Keyboard) : Fight K := { f with keys }

/-! ## The keyboard within a frame -/

/-- A simulated frame neither reads the keyboard nor changes it. -/
theorem simulate_withKeys [Scalar K] (f : Fight K) (k : Keyboard) (active : ActionSet) :
    (f.withKeys k).simulate active =
      (f.simulate active).map fun r => (r.1.withKeys k, r.2) := by
  refine simulate_mapAside f (fun a => { a with keys := k }) fun {m _} _ => ?_
  have hupdates := m.updateEnemies_mapAside (fun a => { a with keys := k }) m.world m.rng m.enemies
  simp only [enemyPhase, mapAside, aside] at hupdates ⊢
  rw [hupdates]

/-- A frame does not change the keyboard. -/
theorem keys_simulate [Scalar K] {f g : Fight K} {active : ActionSet} {events : List Event}
    (h : f.simulate active = .ok (g, events)) : g.keys = f.keys := by
  have hsame := simulate_withKeys f f.keys active
  rw [show f.withKeys f.keys = f from rfl, h] at hsame
  exact congrArg (·.1.keys) (Except.ok.inj hsame)

/-! ## The actions of a frame -/

section
variable [Scalar K]

/-- The player is steered by the seven actions alone. -/
theorem playerPhase_congr (f : Fight K) {s t : ActionSet} (h : s.SamePlay t) :
    f.playerPhase s = f.playerPhase t := by
  have hhas : ∀ a, a ≠ .pause → a ≠ .enter → s.has a = t.has a := h
  have hvelocity : f.player.velocity s = f.player.velocity t := by
    simp only [Player.velocity, hhas, ne_eq, reduceCtorEq, not_false_eq_true]
  have hupdate : f.player.update s f.world playerBullets f.sizeOf =
      f.player.update t f.world playerBullets f.sizeOf := by
    simp only [Player.update, Player.fire, hvelocity, hhas, ne_eq, reduceCtorEq, not_false_eq_true]
  have hup := hhas .up nofun nofun
  have hdown := hhas .down nofun nofun
  have hleft := hhas .left nofun nofun
  have hright := hhas .right nofun nofun
  have hblink : (blinkDegrees s : K) = blinkDegrees t := by
    rw [blinkDegrees, blinkDegrees, ActionSet.only, ActionSet.only, ActionSet.only, ActionSet.only,
      hup, hdown, hleft, hright]
    rfl
  have hspecial : ∀ status (world : World K) body playfield distance,
      useSpecial s status world body playfield distance =
        useSpecial t status world body playfield distance := by
    intro status world body playfield distance
    simp only [useSpecial, World.blink, hblink, hhas, ne_eq, reduceCtorEq, not_false_eq_true]
  simp only [playerPhase, hupdate, hspecial]

/-- So a frame depends on the seven actions alone. -/
theorem simulate_congr (f : Fight K) {s t : ActionSet} (h : s.SamePlay t) :
    f.simulate s = f.simulate t := by
  simp only [simulate, playerPhase_congr _ h]

end

/-! ## Ticks of a fight on whose keyboard nothing is blocked -/

/-- Whether the pause key goes down: it is held now, and was not held on the tick before, if there
was one. -/
def goesDown (before : Option ActionSet) (raw : ActionSet) : Bool :=
  raw.has .pause && !before.any (·.has .pause)

/-- There is nothing to go on from when no key is blocked. -/
theorem resume_of_calm {f : Fight K} {pauseHeld : Bool} (hcalm : f.keys.Calm pauseHeld) :
    f.resume = f := by
  rw [resume, hcalm.releaseAll_eq]

section
variable [Scalar K] {f : Fight K} {before : Option ActionSet} {raw : ActionSet}

/-- When the pause key goes down, a tick takes the keys and asks for a pause, and that is all. -/
theorem tick_of_goesDown (hcalm : f.keys.Calm (before.any (·.has .pause)))
    (hended : f.ended = false) (h : goesDown before raw = true) :
    f.tick raw = .ok (f.withKeys (f.keys.update raw), ⟨[], true, false⟩) := by
  have hpause : (f.keys.update raw).active.has .pause = true := by
    rw [hcalm.has_active_update, if_pos rfl]
    exact h
  exact tick_of_pause hended hpause

/-- Otherwise it simulates a frame with the seven actions. -/
theorem tick_of_not_goesDown (hcalm : f.keys.Calm (before.any (·.has .pause)))
    (hended : f.ended = false) (h : goesDown before raw = false) :
    f.tick raw = (f.simulate raw.playing).map fun r =>
      (r.1.withKeys (f.keys.update raw), ⟨Event.sort r.2, false, r.1.ended⟩) := by
  have hpause : (f.keys.update raw).active.has .pause = false := by
    rw [hcalm.has_active_update, if_pos rfl]
    exact h
  have hplay : (f.keys.update raw).active.SamePlay raw.playing := by
    intro a hpause henter
    rw [hcalm.has_active_update, if_neg hpause, ActionSet.has_playing]
    simp only [hpause, henter, ne_eq, not_false_eq_true, decide_true, Bool.and_true]
  have hsim := simulate_withKeys f (f.keys.update raw) raw.playing
  rw [← simulate_congr _ hplay] at hsim
  rw [tick_of_play hended hpause]
  refine (congrArg (Except.map _) hsim).trans ?_
  cases f.simulate raw.playing <;> rfl

/-- Either way it takes the keys. -/
theorem keys_tick (hended : f.ended = false) {g : Fight K} {report : TickReport}
    (h : f.tick raw = .ok (g, report)) : g.keys = f.keys.update raw := by
  rcases tick_cases h with ⟨hover, -⟩ | ⟨-, -, rfl, -⟩ | ⟨-, -, events, hsim, -⟩
  · rw [hended] at hover
    cases hover
  · rfl
  · exact keys_simulate hsim

end

/-! ## Runs without their pauses -/

/-- What was held on the last tick of some calls, or before them when there is none. -/
def lastHeld (before : Option ActionSet) : List Call → Option ActionSet
  | [] => before
  | .tick raw :: rest => lastHeld (some raw) rest
  | .resume :: rest => lastHeld before rest

/-- The calls without their pauses: the resumptions and the ticks on which the pause key goes down
are left out, and on the other ticks only the seven actions are held. -/
def unpaused (before : Option ActionSet) : List Call → List Call
  | [] => []
  | .tick raw :: rest =>
    if goesDown before raw then unpaused (some raw) rest
    else .tick raw.playing :: unpaused (some raw) rest
  | .resume :: rest => unpaused before rest

/-- What a run comes to: the fight, its keyboard apart, and all events. -/
def outcome (r : Fight K × List TickReport) : Fight K × List Event :=
  (r.1.withKeys .idle, r.2.flatMap (·.events))

section
variable [Scalar K] {f g : Fight K} {before : Option ActionSet}

/-- A run that begins with a tick comes to what the rest of the run comes to, with the events of the
tick in front. -/
theorem map_outcome_run_tick {raw : ActionSet} {report : TickReport}
    (h : f.tick raw = .ok (g, report)) (rest : List Call) :
    (f.run (.tick raw :: rest)).map outcome =
      ((g.run rest).map outcome).map fun r => (r.1, report.events ++ r.2) := by
  rw [run, h]
  show Except.map outcome (g.run rest >>= fun r => pure (r.1, report :: r.2)) = _
  cases g.run rest <;> rfl

/-- Nothing happens in a fight that is over. -/
theorem map_outcome_run_of_ended (hended : f.ended = true) (calls : List Call) :
    (f.run calls).map outcome = .ok (f.withKeys .idle, []) := by
  induction calls generalizing f with
  | nil => rfl
  | cons call rest ih =>
    cases call with
    | tick raw =>
      rw [map_outcome_run_tick (tick_of_ended hended raw), ih hended]
      rfl
    | resume => exact ih hended

/-- A run and the run without its pauses come to the same, whatever the keyboard of the second one,
as long as nothing is blocked on both and the pause key is not held on the second one. -/
theorem map_outcome_run_unpaused {k : Keyboard} (hcalm : f.keys.Calm (before.any (·.has .pause)))
    (hk : k.Calm false) (calls : List Call) :
    (f.run calls).map outcome = ((f.withKeys k).run (unpaused before calls)).map outcome := by
  induction calls generalizing f k before with
  | nil => rfl
  | cons call rest ih =>
    cases hended : f.ended with
    | true =>
      have hright : (f.withKeys k).ended = true := hended
      rw [map_outcome_run_of_ended hended, map_outcome_run_of_ended hright]
      rfl
    | false =>
      cases call with
      | resume =>
        rw [run, resume_of_calm hcalm, unpaused]
        exact ih hcalm hk
      | tick raw =>
        have hafter : (f.keys.update raw).Calm ((some raw).any (·.has .pause)) := hcalm.update raw
        cases hdown : goesDown before raw with
        | true =>
          rw [map_outcome_run_tick (tick_of_goesDown hcalm hended hdown), unpaused, hdown,
            if_pos rfl, ih (f := f.withKeys (f.keys.update raw)) hafter hk]
          show Except.map _ (Except.map outcome ((f.withKeys k).run _)) = _
          cases (f.withKeys k).run (unpaused (some raw) rest) <;> rfl
        | false =>
          -- both runs simulate the same frame, and then their keyboards are such as before
          have hplaying : raw.playing.has .pause = false := by simp [ActionSet.has_playing]
          have hnot : goesDown none raw.playing = false := by rw [goesDown, hplaying]; rfl
          have hk' : (k.update raw.playing).Calm false := hplaying ▸ hk.update raw.playing
          have hleft := tick_of_not_goesDown hcalm hended hdown
          have hk : (f.withKeys k).keys.Calm ((none : Option ActionSet).any (·.has .pause)) := hk
          have hright := tick_of_not_goesDown hk hended hnot
          rw [simulate_withKeys, ActionSet.playing_playing] at hright
          rw [unpaused, hdown, if_neg Bool.false_ne_true]
          cases hsim : f.simulate raw.playing with
          | error fault =>
            rw [hsim] at hleft hright
            rw [run, run, hleft, hright]
            rfl
          | ok r =>
            rw [hsim] at hleft hright
            rw [map_outcome_run_tick hleft, map_outcome_run_tick hright,
              ih (f := r.1.withKeys (f.keys.update raw)) hafter hk']
            rfl

/-- As long as a fight is not over, its keyboard has taken the keys of every tick. -/
theorem calm_run (hcalm : f.keys.Calm (before.any (·.has .pause))) {calls : List Call}
    {reports : List TickReport} (h : f.run calls = .ok (g, reports)) (hended : g.ended = false) :
    g.keys.Calm ((lastHeld before calls).any (·.has .pause)) := by
  induction calls generalizing f before reports with
  | nil =>
    cases h
    exact hcalm
  | cons call rest ih =>
    cases hf : f.ended with
    | true =>
      have hout := map_outcome_run_of_ended hf (call :: rest)
      rw [h] at hout
      have hg : g.ended = f.ended := congrArg (·.1.ended) (Except.ok.inj hout)
      rw [hg, hf] at hended
      cases hended
    | false =>
      cases call with
      | resume =>
        rw [run, resume_of_calm hcalm] at h
        exact ih hcalm h
      | tick raw =>
        obtain ⟨f', report, later, htick, hrest, -⟩ := run_tick_eq_ok h
        have hafter : f'.keys.Calm ((some raw).any (·.has .pause)) := by
          rw [keys_tick hf htick]
          exact hcalm.update raw
        exact ih hafter hrest

/-- A fight is set up with a keyboard on which nothing is blocked. -/
theorem calm_of_start {assets : Assets K} {settings : Settings K}
    (hstart : start assets settings = .ok f) : f.keys.Calm false := by
  obtain ⟨level, -, hf⟩ := map_eq_ok_iff.1 hstart
  rw [← hf]
  exact Keyboard.calm_idle

/-- So whatever is held is active while the fight is not over, the pause key apart. -/
theorem has_active_of_run {assets : Assets K} {settings : Settings K}
    (hstart : start assets settings = .ok f) {calls : List Call} {reports : List TickReport}
    (hrun : f.run calls = .ok (g, reports)) (hended : g.ended = false) (raw : ActionSet)
    {a : Action} (ha : a ≠ .pause) : (g.keys.update raw).active.has a = raw.has a := by
  have hcalm : f.keys.Calm ((none : Option ActionSet).any (·.has .pause)) := calm_of_start hstart
  rw [(calm_run hcalm hrun hended).has_active_update, if_neg ha]

/-- Pauses leave no trace. Whatever calls are made on a fight that was set up, they come to the same
fight, the keyboard apart, and to the same events as the calls without their pauses. And while the
fight is not over, it is on the ticks that are left out that it asks for a pause, without an event,
and on no other ones. -/
theorem run_unpaused {assets : Assets K} {settings : Settings K}
    (hstart : start assets settings = .ok f) (calls : List Call) :
    (f.run calls).map outcome = (f.run (unpaused none calls)).map outcome ∧
    ∀ {g : Fight K} {reports : List TickReport}, f.run calls = .ok (g, reports) → g.ended = false →
      ∀ raw,
        (goesDown (lastHeld none calls) raw = true →
          ∃ g', g.tick raw = .ok (g', ⟨[], true, false⟩)) ∧
        (goesDown (lastHeld none calls) raw = false → ∀ {g' : Fight K} {report : TickReport},
          g.tick raw = .ok (g', report) → report.pauseRequested = false) := by
  obtain ⟨level, -, hf⟩ := map_eq_ok_iff.1 hstart
  have hkeys : f.keys = .idle := by rw [← hf]; rfl
  have hcalm : f.keys.Calm ((none : Option ActionSet).any (·.has .pause)) :=
    hkeys ▸ Keyboard.calm_idle
  have hself : f.withKeys .idle = f := by rw [withKeys, ← hkeys]
  refine ⟨?_, fun {g reports} hrun hended raw => ?_⟩
  · have hout := map_outcome_run_unpaused hcalm Keyboard.calm_idle calls
    rwa [hself] at hout
  · have hg := calm_run hcalm hrun hended
    constructor
    · intro hdown
      exact ⟨_, tick_of_goesDown hg hended hdown⟩
    · intro hdown g' report htick
      rw [tick_of_not_goesDown hg hended hdown] at htick
      obtain ⟨r, -, hr⟩ := map_eq_ok_iff.1 htick
      cases hr
      rfl

end

end Fight

/-- The pause key is held on the first tick of the duel. Without the pause one tick is left, on
which the player fires; and after it the pause key goes down again. -/
theorem Duel.run_unpaused_fire : ∃ f g reports, Fight.start assets settings = .ok f ∧
    f.run [.tick (.ofList [.fire, .pause]), .resume, .tick (.ofList [.fire, .enter])] =
      .ok (g, reports) ∧
    (g.frame, g.ended, reports.map (·.pauseRequested)) = (1, false, [true, false]) ∧
    .ok (Fight.outcome (g, reports)) =
      (f.run [.tick (.ofList [.fire])]).map Fight.outcome ∧
    ∃ g', g.tick (.ofList [.fire, .pause]) = .ok (g', ⟨[], true, false⟩) := by
  have hrun : ((Fight.start assets settings).toOption.bind fun f =>
      (f.run [.tick (.ofList [.fire, .pause]), .resume,
        .tick (.ofList [.fire, .enter])]).toOption.map fun r =>
          (r.1.frame, r.1.ended, r.2.map (·.pauseRequested))) = some (1, false, [true, false]) := by
    decide +kernel
  obtain ⟨f, hstart, hrun⟩ := toOption_bind_eq_some_iff.1 hrun
  obtain ⟨⟨g, reports⟩, hrun, hend⟩ := toOption_map_eq_some_iff.1 hrun
  obtain ⟨hsame, hticks⟩ := Fight.run_unpaused hstart
    [.tick (.ofList [.fire, .pause]), .resume, .tick (.ofList [.fire, .enter])]
  have hended : g.ended = false := congrArg (·.2.1) hend
  rw [hrun] at hsame
  exact ⟨f, g, reports, hstart, hrun, hend, hsame,
    (hticks hrun hended (.ofList [.fire, .pause])).1 (by decide)⟩

end Barrage
