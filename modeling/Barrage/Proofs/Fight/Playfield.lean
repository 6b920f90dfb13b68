import Barrage.Proofs.World.Confinement
import Barrage.Proofs.Fight.Bodies

/-!
# The player stays on the screen

Two mechanisms keep the player on the screen: a step of the world brings its body back inside the
bounds, and a jump ends at the border of the playfield. Both go by the same rectangle
(`Fight.Penned`). So wherever the player starts, the first simulated frame brings it inside, and it
stays there (`Fight.Penned.frame`), if its box fits on the screen at all.

Numbers are exact here, and what the sine and the cosine of an angle are does not matter.
-/

namespace Barrage

variable {K : Type} [Field K] [LinearOrder K] [IsStrictOrderedRing K] [Elementary K]

/-- The rectangle of a screen of some size. -/
def Size.screen (size : Size K) : Rect K := .ofCorner 0 0 size.width size.height

/-- A box fits into another one. -/
structure Size.FitsIn (size room : Size K) : Prop where
  width : size.width ≤ room.width
  height : size.height ≤ room.height

namespace Fight

/-- The player has a body of some size, which is kept inside the screen by the bounds of the world
and by the playfield. -/
structure Penned (screen size : Size K) (f : Fight K) (b : Body K) : Prop where
  staffed : f.Staffed
  body : f.world.bodies[f.player.body]? = some b
  bounded : b.bounded = true
  half_eq : b.half = ⟨size.width / Scalar.whole 2, size.height / Scalar.whole 2⟩
  bounds_eq : f.world.bounds = screen.screen
  playfield_eq : f.playfield = .ofRect screen.screen

section
variable {f g : Fight K} {screen size : Size K} {b : Body K}

/-- A bounded body that fits on the screen is inside it after a step. -/
theorem Penned.encloses_step (h : Penned screen size f b) (hfits : size.FitsIn screen) (dt : K) :
    (Limits.ofRect screen.screen).Encloses (b.step screen.screen dt).rect := by
  have htwo : (Scalar.whole 2 : K) = 2 := Scalar.whole_exact 2
  rw [Body.step, h.bounded, if_pos rfl]
  refine encloses_confine fun a => ?_
  dsimp only
  rw [h.half_eq, htwo]
  cases a with
  | x =>
    simp only [Vec.along, Rect.high, Rect.low, Size.screen, Rect.ofCorner]
    linarith [hfits.width]
  | y =>
    simp only [Vec.along, Rect.high, Rect.low, Size.screen, Rect.ofCorner]
    linarith [hfits.height]

/-- A frame brings the player inside the screen. -/
theorem Penned.frame (h : Penned screen size f b) (hfits : size.FitsIn screen) {keys : ActionSet}
    {events : List Event} (s : Stages f keys g events) : ∃ b', Penned screen size g b' ∧
      (Limits.ofRect screen.screen).Encloses b'.rect := by
  obtain ⟨hbounds, velocity, b', hb', hmoved⟩ := s.exists_body_player h.staffed h.body
  rw [h.bounds_eq, h.playfield_eq] at hmoved
  have hstep : (Limits.ofRect screen.screen).Encloses
      ({ b.step screen.screen f.settings.dt with velocity } : Body K).rect :=
    h.encloses_step hfits f.settings.dt
  obtain ⟨hhalf, hbounded⟩ := b.shape_step screen.screen f.settings.dt
  refine ⟨b', ⟨s.kept keptByPhases_staffed h.staffed, hb', ?_, ?_, hbounds.trans h.bounds_eq, ?_⟩,
    ?_⟩
  · rcases hmoved with rfl | ⟨delta, rfl⟩
    · exact hbounded.trans h.bounded
    · exact hbounded.trans h.bounded
  · rcases hmoved with rfl | ⟨delta, rfl⟩
    · exact hhalf.trans h.half_eq
    · exact hhalf.trans h.half_eq
  · exact (s.kept (keptByPhases_keeps f) (.refl f)).playfield_eq.trans h.playfield_eq
  · rcases hmoved with rfl | ⟨delta, rfl⟩
    · exact hstep
    · exact hstep.teleport delta

/-- The player is penned, and inside the screen as soon as a tick was no pause. -/
def PennedSoFar (screen size : Size K) (f : Fight K) (reports : List TickReport) : Prop :=
  ∃ b, Penned screen size f b ∧
    ((f.ended = true ∨ ∃ report ∈ reports, report.pauseRequested = false) →
      (Limits.ofRect screen.screen).Encloses b.rect)

/-- Every tick keeps the player on the screen once it is penned in. -/
theorem chronicle_pennedSoFar (hfits : size.FitsIn screen) :
    Chronicle (PennedSoFar screen size) where
  withKeys _ := fun ⟨b, h, hinside⟩ => ⟨b, ⟨h.1, h.2, h.3, h.4, h.5, h.6⟩, hinside⟩
  ended hended := fun ⟨b, h, hinside⟩ => ⟨b, h, fun _ => hinside (.inl hended)⟩
  pause {f reports} hended := by
    rintro ⟨b, h, hinside⟩
    refine ⟨b, h, fun hplayed => hinside (hplayed.imp_right ?_)⟩
    rintro ⟨report, hin, hpause⟩
    rcases List.mem_append.1 hin with hin | hin
    · exact ⟨report, hin, hpause⟩
    · rw [List.mem_singleton.1 hin] at hpause
      cases hpause
  frame _ s := by
    rintro ⟨b, h, -⟩
    obtain ⟨b', h', hinside⟩ := h.frame hfits s
    exact ⟨b', h', fun _ => hinside⟩

omit [IsStrictOrderedRing K] in
/-- A fight is set up with the player penned. -/
theorem exists_penned_of_start {assets : Assets K} {settings : Settings K}
    (hstart : start assets settings = .ok f) :
    ∃ b, Penned settings.viewport (f.sizeOf playerSprite) f b := by
  have hstaffed := staffed_of_start hstart
  obtain ⟨player, sizes, entries, arrivals, -, -, -, -, rfl⟩ := start_eq_ok hstart
  let bounds := settings.viewport.screen
  let size := sizes.sizeOf settings.spriteSize playerSprite
  let created := ((emptyWorld bounds).create playerSprite
    (settings.playerPlace.onScreen settings.viewport.width settings.viewport.height) size).2.modify
      0 fun b => { b with bounded := true }
  have hcreated : created.bodies[0]? = some
      { sprite := playerSprite
        position :=
          settings.playerPlace.onScreen settings.viewport.width settings.viewport.height
        half := ⟨size.width / Scalar.whole 2, size.height / Scalar.whole 2⟩
        velocity := .zero, acceleration := .zero, bounded := true } := by
    dsimp only [created]
    rw [World.bodies_modify, if_pos rfl, World.create]
    exact congrArg (Option.map _) Std.ExtTreeMap.getElem?_insert_self
  obtain ⟨velocity, acceleration, hjoin⟩ := created.exists_body_join playerGroup hcreated
  exact ⟨_, hstaffed, hjoin, rfl, rfl, created.bounds_join playerGroup 0, rfl⟩

/-- In every run, the player's box is on the screen after the first tick that is no pause, if it
fits there at all. -/
theorem run_playfield {assets : Assets K} {settings : Settings K}
    (hstart : start assets settings = .ok f) {calls : List Call} {reports : List TickReport}
    (hrun : f.run calls = .ok (g, reports))
    (hfits : (f.sizeOf playerSprite).FitsIn settings.viewport)
    (hplayed : ∃ report ∈ reports, report.pauseRequested = false) :
    ∃ b, g.world.bodies[g.player.body]? = some b ∧
      0 ≤ b.rect.left ∧ b.rect.right ≤ settings.viewport.width ∧
      0 ≤ b.rect.top ∧ b.rect.bottom ≤ settings.viewport.height := by
  obtain ⟨b₀, hpenned⟩ := exists_penned_of_start hstart
  have hended : f.ended = false := by
    obtain ⟨player, sizes, entries, arrivals, -, -, -, -, rfl⟩ := start_eq_ok hstart
    rfl
  have hbegin : PennedSoFar settings.viewport (f.sizeOf playerSprite) f [] :=
    ⟨b₀, hpenned, fun h => by simp [hended] at h⟩
  obtain ⟨b, h, hinside⟩ := (chronicle_pennedSoFar hfits).run_start hrun hbegin
  have hinside := hinside (.inr hplayed)
  refine ⟨b, h.body, hinside.low .x _ rfl, ?_, hinside.low .y _ rfl, ?_⟩
  · exact (hinside.high .x _ rfl).trans_eq (zero_add _)
  · exact (hinside.high .y _ rfl).trans_eq (zero_add _)

end

end Fight

/-! ## A leap

A fight without enemies over the rational numbers. The player starts off the screen and can jump at
once.
-/

namespace Leap

open Demo

/-- A player without a gun that can jump. -/
def ship : Json ℚ :=
  record [("asset_folder", .str "ship"),
    ("weapon", record [("fire_rate", .int 2), ("shots", .arr [])]),
    ("movement", record [("normal", .int 240), ("slowed", .int 90)]),
    ("invincibility_window", .int 2), ("lives", .int 1),
    ("special", record [("name", .str "blink"), ("energy_required", .int 2)])]

/-- The assets of the leap: a level without enemies. -/
def assets : Assets ℚ :=
  (Assets.empty.insert Assets.playerKey ship).insert Assets.levelKey (.arr [])

/-- The settings of the leap: the screen is small, and the energy is full after one frame. -/
def settings : Settings ℚ :=
  { Settings.standard with
    viewport := ⟨100, 80⟩, playerPlace := ⟨2, -1⟩, energyInterval := 1 }

/-- The player is brought back to the upper right corner of the screen, and from there it jumps to
the left border. -/
theorem run_playfield_blink : ∃ f g reports, Fight.start assets settings = .ok f ∧
    f.run [.tick (.ofList [.pause]), .tick (.ofList [.left]), .tick (.ofList [.left, .special])] =
      .ok (g, reports) ∧
    (f.sizeOf playerSprite, reports.map (·.pauseRequested),
      g.world.bodies[g.player.body]?.map (·.position)) =
        (⟨32, 32⟩, [true, false, false], some ⟨16, 16⟩) ∧
    ∃ b, g.world.bodies[g.player.body]? = some b ∧
      0 ≤ b.rect.left ∧ b.rect.right ≤ settings.viewport.width ∧
      0 ≤ b.rect.top ∧ b.rect.bottom ≤ settings.viewport.height := by
  have hrun : ((Fight.start assets settings).toOption.bind fun f =>
      (f.run [.tick (.ofList [.pause]), .tick (.ofList [.left]),
        .tick (.ofList [.left, .special])]).toOption.map fun r =>
          (f.sizeOf playerSprite, r.2.map (·.pauseRequested),
            r.1.world.bodies[r.1.player.body]?.map (·.position))) =
      some (⟨32, 32⟩, [true, false, false], some ⟨16, 16⟩) := by
    decide +kernel
  obtain ⟨f, hstart, hrun⟩ := toOption_bind_eq_some_iff.1 hrun
  obtain ⟨⟨g, reports⟩, hrun, hend⟩ := toOption_map_eq_some_iff.1 hrun
  have hsize : f.sizeOf playerSprite = ⟨32, 32⟩ := congrArg (·.1) hend
  have hpauses : reports.map (·.pauseRequested) = [true, false, false] := congrArg (·.2.1) hend
  have hfits : (f.sizeOf playerSprite).FitsIn settings.viewport := by
    rw [hsize]
    exact ⟨by decide +kernel, by decide +kernel⟩
  have hplayed : ∃ report ∈ reports, report.pauseRequested = false := by
    have hin : false ∈ reports.map (·.pauseRequested) := by rw [hpauses]; decide
    exact List.mem_map.1 hin
  exact ⟨f, g, reports, hstart, hrun, hend, Fight.run_playfield hstart hrun hfits hplayed⟩

end Leap

end Barrage
