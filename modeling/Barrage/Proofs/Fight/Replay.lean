import Barrage.Proofs.Fight.Run
import Barrage.Proofs.Input.Recording
import Barrage.Runner.Basic

/-!
# A recording played again

A session records the keys of each input frame and plays it. What it leaves behind is the recording
of the frames that were played, and the fight that these frames lead to (`Session.play_eq_ok`).
Since a recording gives back what was recorded, and a fight sees nothing but its assets, its
settings and the keys, playing the recording from the start comes to the same fight
(`Session.replay_recording`). So the two runs of the command line never end in different states.
-/

namespace Barrage

variable {K : Type} [Scalar K]

namespace Session

variable {s s' : Session K}

/-- One frame of a session is one frame of its fight, and is recorded. -/
theorem step_eq_ok {raw : ActionSet} {report : TickReport} (h : s.step raw = .ok (s', report)) :
    s.fight.playFrame raw = .ok (s'.fight, report) ∧
      s'.recording = s.recording.record s.next raw ∧ s'.next = s.next + 1 := by
  obtain ⟨⟨fight, report'⟩, hframe, hs⟩ := map_eq_ok_iff.1 h
  cases hs
  exact ⟨hframe, rfl, rfl⟩

/-- What a session leaves behind: it played some of the frames, from the first one on, and recorded
them under their numbers. -/
theorem play_eq_ok {untilOver : Bool} {inputs : List ActionSet}
    (h : s.play untilOver inputs = .ok s') :
    ∃ played, played <+: inputs ∧ s.fight.play played = .ok s'.fight ∧
      s'.recording = (played.zipIdx s.next).foldl (fun r e => r.record e.2 e.1) s.recording := by
  induction inputs generalizing s with
  | nil =>
    cases h
    exact ⟨[], List.nil_prefix, rfl, rfl⟩
  | cons raw rest ih =>
    obtain ⟨⟨s₁, report⟩, hstep, h⟩ := bind_eq_ok_iff.1 h
    obtain ⟨hframe, hrecording, hnext⟩ := step_eq_ok hstep
    dsimp only at h
    split at h
    · -- the fight is over, and the frames behind this one are not played
      cases h
      refine ⟨[raw], List.prefix_append [raw] rest, ?_, hrecording⟩
      rw [Fight.play, hframe]
      rfl
    · obtain ⟨played, hprefix, hplay, hrest⟩ := ih h
      refine ⟨raw :: played, List.cons_prefix_cons.2 ⟨rfl, hprefix⟩, ?_, ?_⟩
      · rw [Fight.play, hframe]
        exact hplay
      · rw [hrest, hrecording, hnext]
        rfl

/-- A session that begins with its first frame leaves behind the recording of what was played. -/
theorem play_start_eq_ok {assets : Assets K} {settings : Settings K} {untilOver : Bool}
    {inputs : List ActionSet} (hstart : start assets settings = .ok s)
    (h : s.play untilOver inputs = .ok s') :
    ∃ f played, Fight.start assets settings = .ok f ∧ f.play played = .ok s'.fight ∧
      s'.recording = .ofInputs settings.seed played := by
  obtain ⟨f, hf, rfl⟩ := map_eq_ok_iff.1 hstart
  obtain ⟨played, -, hplay, hrecording⟩ := play_eq_ok h
  exact ⟨f, played, hf, hplay, hrecording⟩

end Session

/-- A recording of frames that a fight can play leads to where these frames lead. -/
theorem Fight.replay_ofInputs {assets : Assets K} {settings : Settings K} {f g : Fight K}
    {inputs : List ActionSet} (hstart : start assets settings = .ok f)
    (hplay : f.play inputs = .ok g) :
    replay assets settings (.ofInputs settings.seed inputs) = .ok g := by
  rw [replay, Recording.seed_ofInputs, Recording.map_snd_frames_ofInputs]
  simp only [hstart, hplay]

namespace Runner

/-- The scripted player plays a session up to the end of the fight. -/
theorem playFrames_eq_ok {p p' : Progress} {count : Nat} (h : playFrames p count = .ok p') :
    p.session.play true ((List.range' p.session.next count).map scriptedKeys) =
      .ok p'.session := by
  induction count generalizing p with
  | zero =>
    cases h
    rfl
  | succ count ih =>
    rw [playFrames] at h
    dsimp only at h
    split at h
    · cases h
    · next session report hstep =>
      have hnext := (Session.step_eq_ok hstep).2.2
      rw [List.range'_succ, List.map_cons, Session.play, hstep]
      split at h
      · next hended =>
        cases h
        simp only [bind, Except.bind, Bool.true_and, hended, if_true]
        rfl
      · next hended =>
        simp only [bind, Except.bind, Bool.true_and, hended]
        rw [← hnext]
        exact ih h

/-- A run that gets through its fight ends with the message that both states agree. -/
theorem runFight_of_playFrames {log : List String} {assets : Assets Binary64}
    {settings : Settings Binary64} {frames : Nat} {s : Session Binary64} {p : Progress}
    (hstart : Session.start assets settings = .ok s)
    (hplay : playFrames { session := s, events := 0, lines := [] } frames = .ok p) :
    ∃ lines, runFight log assets settings frames =
      .success (lines ++ ["DETERMINISM VERIFIED: Hashes match!"]) := by
  obtain ⟨f, played, hf, hplayed, hrecording⟩ :=
    Session.play_start_eq_ok hstart (playFrames_eq_ok hplay)
  have hreplay := Fight.replay_ofInputs hf hplayed
  rw [← hrecording] at hreplay
  rw [runFight, hstart]
  simp only [hplay, hreplay, if_true]
  exact ⟨_, rfl⟩

/-- What a run says when its two states differ. -/
def mismatch : String := "Error: Determinism failure: hashes differ"

/-- No run says so: it fails before its fight, or in it, or not at all. -/
theorem runFight_error_ne (log : List String) (assets : Assets Binary64)
    (settings : Settings Binary64) (frames : Nat) :
    (runFight log assets settings frames).error ≠ some mismatch := by
  cases hstart : Session.start assets settings with
  | error e =>
    rw [runFight, hstart]
    simp only [Report.failed]
    decide
  | ok s =>
    cases hplay : playFrames { session := s, events := 0, lines := [] } frames with
    | error lines =>
      rw [runFight, hstart]
      simp only [hplay]
      exact nofun
    | ok p =>
      obtain ⟨lines, hrun⟩ := runFight_of_playFrames hstart hplay
      rw [hrun]
      exact nofun

end Runner

/-- A session that gets through its frames, all of them or those up to the end of the fight, leaves
a recording that leads to the very same fight when it is played from the start; and no run of the
command line finds its two states to differ. -/
theorem Session.replay_recording :
    (∀ {K : Type} [Scalar K] (assets : Assets K) (settings : Settings K) (untilOver : Bool)
      (inputs : List ActionSet) (s s' : Session K),
      Session.start assets settings = .ok s → s.play untilOver inputs = .ok s' →
      Fight.replay assets settings s'.recording = .ok s'.fight) ∧
    ∀ (log : List String) (assets : Assets Binary64) (settings : Settings Binary64) (frames : Nat),
      (Runner.runFight log assets settings frames).error ≠ some Runner.mismatch := by
  refine ⟨?_, Runner.runFight_error_ne⟩
  intro K _ assets settings untilOver inputs s s' hstart hplay
  obtain ⟨f, played, hf, hplayed, hrecording⟩ := Session.play_start_eq_ok hstart hplay
  rw [hrecording]
  exact Fight.replay_ofInputs hf hplayed

/-- The duel is over on the third of its five input frames. Two changes are recorded, and they lead
to the end of the duel again. -/
theorem Duel.replay_recording_inputs : ∃ s s',
    Session.start assets settings = .ok s ∧ s.play true inputs = .ok s' ∧
    (s'.recording.changes.length, s'.fight.frame, s'.fight.ended) = (2, 2, true) ∧
    Fight.replay assets settings s'.recording = .ok s'.fight := by
  have hrun : ((Session.start assets settings).toOption.bind fun s =>
      (s.play true inputs).toOption.map fun s' =>
        (s'.recording.changes.length, s'.fight.frame, s'.fight.ended)) = some (2, 2, true) := by
    decide +kernel
  obtain ⟨s, hstart, hrun⟩ := toOption_bind_eq_some_iff.1 hrun
  obtain ⟨s', hplay, hend⟩ := toOption_map_eq_some_iff.1 hrun
  exact ⟨s, s', hstart, hplay, hend,
    Session.replay_recording.1 assets settings true inputs s s' hstart hplay⟩

end Barrage
