import Barrage.Proofs.World.Confinement
import Barrage.Proofs.Enemy.Movement

/-!
# An enemy that is held within its limits

An enemy keeps its limits, and its routines are those that were built for it, for as long as it is
in a fight (`Enemy.Turn.makeup_eq`). It roams when no movement of them is given outright
(`Enemy.Roams`). Then whatever it looks up is checked against its limits, or is no motion at all
(`Movement.Checked`). The check is a prediction: what carries it over to the next frame is that the
body is inside now and will be inside after the next step (`Enemy.Held`). A step and an update keep
it so (`Enemy.Held.step`, `Enemy.Inside.play`), through changes of routines, new draws and stops.

An axis that was blocked stays at rest: no routine that is current or still to come has any motion
left along it (`Enemy.Rests`), until an entry of a table is looked up.
-/

namespace Barrage

variable {K : Type}

/-! ## Movements along an axis -/

section
variable [Scalar K] {m : Movement K}

/-- The next step of a body that is not kept inside the bounds of its world. -/
theorem Body.along_step {b : Body K} (hb : b.bounded = false) (bounds : Rect K) (dt : K)
    (a : Axis) :
    (b.step bounds dt).position.along a = b.position.along a +
      (b.velocity.along a + b.acceleration.along a * dt) * dt ∧
    (b.step bounds dt).velocity.along a = b.velocity.along a + b.acceleration.along a * dt ∧
    (b.step bounds dt).acceleration.along a = b.acceleration.along a := by
  rw [step, hb]
  cases a <;> exact ⟨rfl, rfl, rfl⟩

/-- The displacement along an axis depends on the movement along that axis alone. -/
theorem Movement.along_displacement (m : Movement K) (dt : K) (a : Axis) :
    (m.displacement dt).along a = (m.velocity.along a + m.acceleration.along a * dt) * dt := by
  cases a <;> rfl

/-- What is left of a movement along an axis. -/
theorem Movement.along_limitedTo (m : Movement K) (fits : AxisMoves) (a : Axis) :
    (m.limitedTo fits).velocity.along a = (if fits.along a then m.velocity.along a else 0) ∧
      (m.limitedTo fits).acceleration.along a =
        (if fits.along a then m.acceleration.along a else 0) := by
  obtain ⟨x, y⟩ := fits
  cases a <;> cases x <;> cases y <;> exact ⟨rfl, rfl⟩

/-- A movement without a part along an axis. -/
def Movement.RestsAlong (m : Movement K) (a : Axis) : Prop :=
  m.velocity.along a = 0 ∧ m.acceleration.along a = 0

/-- Without a movement both axes are at rest. -/
theorem Movement.restsAlong_still (a : Axis) : (still : Movement K).RestsAlong a := by
  cases a <;> exact ⟨rfl, rfl⟩

/-- What does not fit along an axis is left out, and so is what was not there. -/
theorem Movement.restsAlong_limitedTo {fits : AxisMoves} {a : Axis}
    (h : fits.along a = false ∨ m.RestsAlong a) : (m.limitedTo fits).RestsAlong a := by
  obtain ⟨hvelocity, hacceleration⟩ := m.along_limitedTo fits a
  rw [RestsAlong, hvelocity, hacceleration]
  rcases h with hnot | ⟨hv, ha⟩
  · rw [hnot]
    exact ⟨rfl, rfl⟩
  · rw [hv, ha, ite_self]
    exact ⟨rfl, rfl⟩

/-- A movement that is checked against the limits, or is none. -/
def Movement.Checked (m : Movement K) : Prop := m.mayLeave = true → m = .still

/-- What is left of a movement is checked if the movement is. -/
theorem Movement.Checked.limitedTo (h : m.Checked) (fits : AxisMoves) :
    (m.limitedTo fits).Checked := by
  obtain ⟨x, y⟩ := fits
  intro hleave
  have hstill : m = .still := h (by cases x <;> cases y <;> exact hleave)
  rw [hstill]
  cases x <;> cases y <;> rfl

/-- A body that takes up a movement keeps its extent and gets what is left of the movement. -/
theorem Body.takeUp_shape (b : Body K) (limits : Limits K) (m : Movement K) (dt : K) :
    (b.takeUp limits m dt).2.half = b.half ∧ (b.takeUp limits m dt).2.bounded = b.bounded ∧
    (b.takeUp limits m dt).2.velocity = (m.limitedTo (b.takeUp limits m dt).1).velocity ∧
    (b.takeUp limits m dt).2.acceleration =
      (m.limitedTo (b.takeUp limits m dt).1).acceleration := by
  rw [takeUp]
  split <;> exact ⟨rfl, rfl, rfl, rfl⟩

end

/-! ## What an enemy is made of -/

/-- What an enemy keeps for as long as it is in a fight. -/
structure Makeup (K : Type) where
  kind : EnemyKind
  image : String
  limits : Limits K
  /-- Its routines, as they were built. -/
  routines : List (Routine K)

section
variable [Scalar K]

/-- The makeup of an enemy. -/
def Enemy.makeup (e : Enemy K) : Makeup K :=
  ⟨e.kind, e.image, e.limits, e.sequence.routines.map Routine.rewind⟩

/-- The makeup of the enemies of a sheet. -/
def EnemySheet.makeup (sheet : EnemySheet) (settings : Settings K)
    (scripts : List (RoutineScript K)) : Makeup K :=
  ⟨sheet.kind, sheet.image, Enemy.limitsOf settings sheet.kind, scripts.map Routine.ofScript⟩

/-- An enemy of a sheet. -/
def Enemy.CameBy (e : Enemy K) (sheet : EnemySheet) (assets : Assets K) (settings : Settings K) :
    Prop :=
  ∃ scripts, Enemy.scripts sheet assets = .ok scripts ∧ e.makeup = sheet.makeup settings scripts

/-- An enemy comes with the makeup of its sheet. -/
theorem Enemy.cameBy_spawn {e : Enemy K} {sheet : EnemySheet} {assets : Assets K} {w w' : World K}
    {group : GroupId} {settings : Settings K} {size : Size K}
    (h : spawn sheet assets w group settings size = .ok (e, w')) :
    e.CameBy sheet assets settings := by
  obtain ⟨scripts, hscripts, h⟩ := map_eq_ok_iff.1 h
  cases h
  refine ⟨scripts, hscripts, ?_⟩
  have hbuilt : (scripts.map Routine.ofScript).map Routine.rewind =
      scripts.map Routine.ofScript := by
    rw [List.map_map]
    exact List.map_congr_left fun script _ => Routine.rewind_ofScript script
  exact congrArg (Makeup.mk sheet.kind sheet.image (limitsOf settings sheet.kind)) hbuilt

/-- Damage does not change what an enemy is made of. -/
theorem Enemy.makeup_damage (e : Enemy K) (amount : Nat) : (e.damage amount).makeup = e.makeup :=
  congrArg (Makeup.mk e.kind e.image e.limits) (Sequence.map_modifyCurrent fun r _ =>
    r.rewind_damage amount)

/-- A turn does not change what an enemy is made of. -/
theorem Enemy.Turn.makeup_eq {e e' : Enemy K} (h : e.Turn e') : e'.makeup = e.makeup := by
  cases h with
  | done => rfl
  | @acts found r ongoing h hr =>
    have hroutines : (found.sequence.modifyCurrent fun _ =>
        ({ r with ongoing } : Routine K).advance).routines.map Routine.rewind =
          e.sequence.routines.map Routine.rewind := by
      rw [← routines_transition? h]
      exact Sequence.map_modifyCurrent fun r' hr' => by
        rw [Option.some.inj (hr'.symm.trans hr)]
        rfl
    rw [makeup, hroutines]
    rcases transition?_eq_some h with ⟨-, rfl⟩ | ⟨-, -, rfl⟩ <;> rfl

end

/-! ## Routines that roam -/

section
variable [Scalar K]

/-- An entry of a script that gives its movement outright. -/
def MoveScript.IsFixed : MoveScript K → Prop
  | fixed _ _ _ => True
  | _ => False

/-- A maneuver that gives no motion outright. -/
def Maneuver.Roams : Maneuver K → Prop
  | fixed m => m = .still
  | drawn _ _ _ => True

/-- A routine without a maneuver that gives a motion outright. -/
def Routine.Roams (r : Routine K) : Prop :=
  ∀ {time : Nat} {maneuver : Maneuver K}, r.moves[time]? = some maneuver → maneuver.Roams

/-- The routine of a script roams if no entry of the script gives a movement outright. -/
theorem Routine.roams_ofScript {s : RoutineScript K} (h : ∀ entry ∈ s.moves, ¬ entry.IsFixed) :
    (ofScript s).Roams := by
  intro time maneuver hmaneuver
  obtain ⟨entry, hentry, times, hadded, -⟩ := exists_entry_of_moves hmaneuver
  have hentry := h entry hentry
  cases entry with
  | fixed => exact absurd trivial hentry
  | unknown => cases hadded
  | randomized | stop =>
    cases hadded
    trivial

/-- An enemy that has no other routines. -/
def Enemy.Roams (e : Enemy K) : Prop := ∀ r ∈ e.makeup.routines, r.Roams

/-- A sheet whose routines give no movement outright. -/
def EnemySheet.Roams (sheet : EnemySheet) (assets : Assets K) : Prop :=
  ∀ scripts, Enemy.scripts sheet assets = .ok scripts →
    ∀ script ∈ scripts, ∀ entry ∈ script.moves, ¬ entry.IsFixed

/-- The enemies of a blueprint that roams roam. -/
theorem Enemy.CameBy.roams {e : Enemy K} {sheet : EnemySheet} {assets : Assets K}
    {settings : Settings K} (h : e.CameBy sheet assets settings) (hsheet : sheet.Roams assets) :
    e.Roams := by
  obtain ⟨scripts, hscripts, hmakeup⟩ := h
  rw [Roams, hmakeup, EnemySheet.makeup]
  intro r hr
  obtain ⟨script, hscript, rfl⟩ := List.mem_map.1 hr
  exact Routine.roams_ofScript (hsheet scripts hscripts script hscript)

/-- A maneuver of a routine that roams gives a movement that is checked. -/
theorem Maneuver.Roams.checked {maneuver : Maneuver K} (h : maneuver.Roams) (g : Prng) :
    (maneuver.resolve g).1.Checked := by
  cases maneuver with
  | fixed m => exact fun _ => h
  | drawn x y acceleration => exact nofun

end

/-! ## Sequences -/

section
variable [Scalar K]

/-- Something holds of the ongoing movement of the current routine, and no later routine has one so
far. -/
structure Sequence.Carries (s : Sequence K) (P : Movement K → Prop) : Prop where
  current : ∀ r, s.current? = some r → P r.ongoing
  later : ∀ i r, s.cursor < i → s.routines[i]? = some r → r.ongoing = .still

namespace Sequence

variable {s : Sequence K} {P Q : Movement K → Prop}

/-- A change of the current routine does not touch the later ones. -/
theorem Carries.modifyCurrent (h : s.Carries P) {change : Routine K → Routine K}
    (hchange : ∀ r, s.current? = some r → P r.ongoing → Q (change r).ongoing) :
    (s.modifyCurrent change).Carries Q := by
  refine ⟨fun r hr => ?_, fun i r hi hr => ?_⟩
  · rw [current?_modifyCurrent] at hr
    obtain ⟨before, hbefore, rfl⟩ := Option.map_eq_some_iff.1 hr
    exact hchange before hbefore (h.current before hbefore)
  · have hlt : s.cursor < i := hi
    rw [routines_modifyCurrent_of_ne (Nat.ne_of_lt hlt)] at hr
    exact h.later i r hlt hr

/-- The next routine starts without motion. -/
theorem Carries.toNext (h : s.Carries P) (hnext : s.hasNext = true) (hstill : P .still) :
    s.toNext.Carries P := by
  rw [Sequence.toNext, if_pos hnext]
  refine ⟨fun r hr => ?_, fun i r hi hr => h.later i r (Nat.lt_of_succ_lt hi) hr⟩
  rw [h.later (s.cursor + 1) r (Nat.lt_succ_self _) hr]
  exact hstill

/-- A sequence of routines that were just built carries whatever holds of a movement at rest. -/
theorem carries_new (scripts : List (RoutineScript K)) (hstill : P .still) :
    (new (scripts.map Routine.ofScript)).Carries P := by
  have hbuilt : ∀ (i : Nat) (r : Routine K), (scripts.map Routine.ofScript)[i]? = some r →
      r.ongoing = .still := by
    intro i r hr
    rw [List.getElem?_map] at hr
    obtain ⟨script, -, rfl⟩ := Option.map_eq_some_iff.1 hr
    rw [← Routine.rewind_ofScript]
    rfl
  refine ⟨fun r hr => ?_, fun i r _ hr => hbuilt i r hr⟩
  rw [hbuilt 0 r hr]
  exact hstill

end Sequence

namespace Enemy

variable {e e' : Enemy K} {P Q : Movement K → Prop}

/-- An update that finds a routine is at one with the same property. -/
theorem carries_transition? (h : e.sequence.Carries P) (hfound : e.transition? = some e')
    (hstill : P .still) : e'.sequence.Carries P := by
  rcases transition?_eq_some hfound with ⟨-, rfl⟩ | ⟨-, hnext, rfl⟩
  · exact h
  · exact h.toNext hnext hstill

/-- After an update the routine carries what is left of the movement that was looked up. -/
theorem carries_play (h : e.sequence.Carries P) (hstill : P .still)
    (hfound : e.transition? = some e') {s : Scene K} {b : Body K}
    (hb : s.world.bodies[e.body]? = some b) (hlt : e.body < s.world.nextBody)
    (hleft : Q ((e.nextMovement s.rng).limitedTo
      (b.takeUp e.limits (e.nextMovement s.rng) s.dt).1)) :
    (e.play s).enemy.sequence.Carries Q := by
  obtain ⟨r, hr⟩ := exists_current_transition? hfound
  rw [(play_takeUp hfound hr s hb hlt).1]
  exact (carries_transition? h hfound hstill).modifyCurrent fun _ _ _ => hleft

/-- Damage leaves the movements of the routines alone. -/
theorem carries_damage (h : e.sequence.Carries P) (amount : Nat) :
    (e.damage amount).sequence.Carries P := h.modifyCurrent fun _ _ hr => hr

/-- The movement that an enemy looks up that roams is checked. -/
theorem Roams.checked_nextMovement (hroams : e.Roams) (h : e.sequence.Carries Movement.Checked)
    (hfound : e.transition? = some e') (rng : Prng) : (e.nextMovement rng).Checked := by
  obtain ⟨r, hr⟩ := exists_current_transition? hfound
  have hcarries := carries_transition? h hfound fun _ => rfl
  rw [nextMovement_eq hfound hr, MoveTable.lookup]
  cases hentry : r.moves[r.time]? with
  | none => exact hcarries.current r hr
  | some maneuver =>
    have hin : r ∈ e.sequence.routines :=
      routines_transition? hfound ▸ List.mem_of_getElem? hr
    exact (hroams r.rewind (List.mem_map_of_mem hin) hentry).checked rng

/-- Without an entry a movement that an enemy looks up is the one before. -/
theorem rests_nextMovement {a : Axis} (h : e.sequence.Carries (·.RestsAlong a))
    (hfound : e.transition? = some e') (hnone : e.nextManeuver? = none) (rng : Prng) :
    (e.nextMovement rng).RestsAlong a := by
  obtain ⟨r, hr⟩ := exists_current_transition? hfound
  rw [nextMovement_of_no_entry hfound hr hnone]
  exact (carries_transition? h hfound (Movement.restsAlong_still a)).current r hr

end Enemy

end

variable [Field K] [LinearOrder K] [Elementary K]

/-! ## One movement -/

/-- How a body is held along an axis when it takes up a movement, and by the step behind that. -/
structure Body.HeldAlong (limits : Limits K) (dt : K) (m : Movement K) (before after next : Body K)
    (a : Axis) : Prop where
  /-- A displacement that fits is the one that the step carries out. -/
  fits : (limits.check before a (m.displacement dt)).possible = true →
    after.position.along a = before.position.along a ∧
    next.position.along a = after.position.along a + (m.displacement dt).along a
  /-- One that does not fit leaves the body flush with the border ahead, and at rest. -/
  blocked : (limits.check before a (m.displacement dt)).possible = false →
    ((m.displacement dt).along a < 0 ∧ limits.low a = some (after.rect.low a) ∨
      0 < (m.displacement dt).along a ∧ limits.high a = some (after.rect.high a)) ∧
    after.velocity.along a = 0 ∧ after.acceleration.along a = 0

section
variable {limits : Limits K} {b : Body K} {m : Movement K} {dt : K}

/-- A movement at rest along an axis leads nowhere along it. -/
theorem Movement.RestsAlong.displacement {a : Axis} (h : m.RestsAlong a) (dt : K) :
    (m.displacement dt).along a = 0 := by
  rw [along_displacement, h.1, h.2, zero_mul, add_zero, zero_mul]

/-- No displacement fits everywhere. -/
theorem checkAxis_zero (position half : K) (lo hi : Option K) :
    checkAxis position half 0 lo hi = ⟨true, none⟩ := by
  unfold checkAxis
  rw [if_neg (lt_irrefl 0), if_neg (lt_irrefl 0)]

/-- The position after a movement was taken up follows from the check, as does what fits. -/
theorem Body.takeUp_along (b : Body K) (limits : Limits K) (dt : K) {a : Axis}
    (hm : m.mayLeave = true → m.RestsAlong a) :
    (b.takeUp limits m dt).1.along a = (limits.check b a (m.displacement dt)).possible ∧
    (b.takeUp limits m dt).2.position.along a = b.position.along a +
      (limits.check b a (m.displacement dt)).shift ((m.displacement dt).along a) .velocity := by
  by_cases hleave : m.mayLeave = true
  · have hcheck : limits.check b a (m.displacement dt) = ⟨true, none⟩ := by
      rw [Limits.check, (hm hleave).displacement, checkAxis_zero]
    rw [takeUp, if_pos hleave, hcheck, AxisCheck.shift_of_possible rfl, if_neg (by decide),
      add_zero]
    exact ⟨by cases a <;> rfl, rfl⟩
  · rw [takeUp, if_neg hleave]
    exact ⟨b.fits_moveWithin limits _ .velocity a, b.along_moveWithin limits _ .velocity a⟩

/-- Along an axis without motion a body stays where it is. -/
theorem Body.takeUp_of_rests (b : Body K) (limits : Limits K) (dt : K) {a : Axis}
    (hm : m.RestsAlong a) : (b.takeUp limits m dt).2.position.along a = b.position.along a ∧
      (b.takeUp limits m dt).2.velocity.along a = 0 ∧
      (b.takeUp limits m dt).2.acceleration.along a = 0 := by
  obtain ⟨-, hposition⟩ := b.takeUp_along limits dt fun _ => hm
  obtain ⟨-, -, hvelocity, hacceleration⟩ := b.takeUp_shape limits m dt
  rw [Limits.check, hm.displacement, checkAxis_zero, AxisCheck.shift_of_possible rfl,
    if_neg (by decide), add_zero] at hposition
  rw [hvelocity, hacceleration]
  exact ⟨hposition, Movement.restsAlong_limitedTo (.inr hm)⟩

/-- A body between the borders of an axis is held there when it takes up a movement that is checked,
and so it is by the next step. -/
theorem Body.heldAlong_takeUp [IsStrictOrderedRing K] (hm : m.Checked)
    (hbounded : b.bounded = false) (dt : K) (bounds : Rect K) {a : Axis}
    (h : Within (limits.low a) (limits.high a) (b.position.along a) (b.half.along a)) :
    Within (limits.low a) (limits.high a) ((b.takeUp limits m dt).2.position.along a)
      (b.half.along a) ∧
    Within (limits.low a) (limits.high a)
      (((b.takeUp limits m dt).2.step bounds dt).position.along a) (b.half.along a) ∧
    HeldAlong limits dt m b (b.takeUp limits m dt).2
      ((b.takeUp limits m dt).2.step bounds dt) a := by
  obtain ⟨hfits, hposition⟩ := b.takeUp_along limits dt (a := a) fun hleave =>
    hm hleave ▸ Movement.restsAlong_still a
  obtain ⟨hhalf, hbounded', hvelocity, hacceleration⟩ := b.takeUp_shape limits m dt
  obtain ⟨hv, ha⟩ := m.along_limitedTo (b.takeUp limits m dt).1 a
  rw [← hvelocity, hfits] at hv
  rw [← hacceleration, hfits] at ha
  obtain ⟨hstep, -, -⟩ := along_step (hbounded'.trans hbounded) bounds dt a
  rw [hv, ha] at hstep
  rcases checkAxis_cases h ((m.displacement dt).along a) with
    ⟨hpossible, hwithin⟩ | ⟨room, hcheck, hblocked, hwithin⟩
  · -- the velocity is left to the step, which carries out what was checked
    have hpossible : (limits.check b a (m.displacement dt)).possible = true := hpossible
    rw [AxisCheck.shift_of_possible hpossible, if_neg (by decide), add_zero] at hposition
    rw [hpossible, if_pos rfl, if_pos rfl, ← Movement.along_displacement] at hstep
    refine ⟨hposition ▸ h, ?_, fun _ => ⟨hposition, hstep⟩, fun hnot => ?_⟩
    · rw [hstep, hposition]
      exact hwithin
    · rw [hpossible] at hnot
      cases hnot
  · -- the body is moved up to the border, and the step leaves it there
    have hcheck : limits.check b a (m.displacement dt) = ⟨false, some room⟩ := hcheck
    rw [hcheck] at hposition hstep hv ha
    rw [if_neg Bool.false_ne_true, if_neg Bool.false_ne_true, zero_mul, add_zero, zero_mul,
      add_zero] at hstep
    have hposition : (b.takeUp limits m dt).2.position.along a = b.position.along a + room :=
      hposition
    have hin := hposition ▸ hwithin
    refine ⟨hin, hstep ▸ hin, fun hfits => ?_, fun _ => ⟨?_, hv, ha⟩⟩
    · rw [hcheck] at hfits
      cases hfits
    · rw [low_rect, high_rect, hhalf, hposition]
      cases hblocked with
      | low hdelta hborder hflush => exact .inl ⟨hdelta, hflush ▸ hborder⟩
      | high hdelta hborder hflush => exact .inr ⟨hdelta, hflush ▸ hborder⟩

/-- So a body within limits stays there. -/
theorem Body.encloses_takeUp [IsStrictOrderedRing K] (hm : m.Checked)
    (hbounded : b.bounded = false) (dt : K) (bounds : Rect K) (h : limits.Encloses b.rect) :
    limits.Encloses (b.takeUp limits m dt).2.rect ∧
      limits.Encloses ((b.takeUp limits m dt).2.step bounds dt).rect := by
  obtain ⟨hhalf, -⟩ := b.takeUp_shape limits m dt
  have hhalf' := ((b.takeUp limits m dt).2.shape_step bounds dt).1
  simp only [Limits.encloses_rect_iff, hhalf', hhalf] at h ⊢
  exact ⟨fun a => (heldAlong_takeUp hm hbounded dt bounds (h a)).1,
    fun a => (heldAlong_takeUp hm hbounded dt bounds (h a)).2.1⟩

end

/-! ## Enemies -/

namespace Enemy

variable {e e' : Enemy K} {b : Body K} {dt : K}

/-- An enemy whose box is within its limits, and whose ongoing movement is checked. -/
structure Inside (e : Enemy K) (b : Body K) : Prop where
  bounded : b.bounded = false
  within : e.limits.Encloses b.rect
  carries : e.sequence.Carries Movement.Checked

/-- An enemy that is still within its limits after the next step. -/
structure Held (e : Enemy K) (dt : K) (b : Body K) : Prop extends e.Inside b where
  next : ∀ bounds, e.limits.Encloses (b.step bounds dt).rect

/-- Damage does not move an enemy out of its limits. -/
theorem Inside.damage (h : e.Inside b) (amount : Nat) : (e.damage amount).Inside b :=
  ⟨h.bounded, h.within, carries_damage h.carries amount⟩

/-- A step leaves an enemy that is held within its limits. -/
theorem Held.step (h : e.Held dt b) (bounds : Rect K) : e.Inside (b.step bounds dt) :=
  ⟨(b.shape_step bounds dt).2.trans h.bounded, h.next bounds, h.carries⟩

/-- In an update an enemy that roams takes up a movement that holds it. -/
theorem Inside.play [IsStrictOrderedRing K] (h : e.Inside b) (hroams : e.Roams)
    (hfound : e.transition? = some e') {s : Scene K} (hb : s.world.bodies[e.body]? = some b)
    (hlt : e.body < s.world.nextBody) :
    (e.play s).enemy.Held s.dt (b.takeUp e.limits (e.nextMovement s.rng) s.dt).2 := by
  obtain ⟨r, hr⟩ := exists_current_transition? hfound
  have hlimits : (e.play s).enemy.limits = e.limits := by
    rw [(play_takeUp hfound hr s hb hlt).1, ← limits_transition? hfound]
  have hm := hroams.checked_nextMovement h.carries hfound s.rng
  have hinside := fun bounds => Body.encloses_takeUp hm h.bounded s.dt bounds h.within
  refine ⟨⟨?_, ?_, ?_⟩, ?_⟩
  · exact (b.takeUp_shape e.limits (e.nextMovement s.rng) s.dt).2.1.trans h.bounded
  · exact hlimits ▸ (hinside s.world.bounds).1
  · exact carries_play h.carries (fun _ => rfl) hfound hb hlt (hm.limitedTo _)
  · exact fun bounds => hlimits ▸ (hinside bounds).2

/-- Along each axis the movement is held. -/
theorem Inside.heldAlong [IsStrictOrderedRing K] (h : e.Inside b) (hroams : e.Roams)
    (hfound : e.transition? = some e') (rng : Prng) (dt : K) (bounds : Rect K) (a : Axis) :
    Body.HeldAlong e.limits dt (e.nextMovement rng) b (b.takeUp e.limits (e.nextMovement rng) dt).2
      ((b.takeUp e.limits (e.nextMovement rng) dt).2.step bounds dt) a :=
  (Body.heldAlong_takeUp (hroams.checked_nextMovement h.carries hfound rng) h.bounded dt bounds
    (Limits.encloses_rect_iff.1 h.within a)).2.2

/-! ## At rest along an axis -/

/-- An enemy that is at rest at a position along an axis. -/
structure Rests (e : Enemy K) (a : Axis) (position : K) (b : Body K) : Prop where
  bounded : b.bounded = false
  position_eq : b.position.along a = position
  velocity_eq : b.velocity.along a = 0
  acceleration_eq : b.acceleration.along a = 0
  carries : e.sequence.Carries (·.RestsAlong a)

variable {a : Axis} {position : K}

/-- An enemy that rests along an axis does so when it is hit as well. -/
theorem Rests.damage (h : e.Rests a position b) (amount : Nat) :
    (e.damage amount).Rests a position b :=
  ⟨h.bounded, h.position_eq, h.velocity_eq, h.acceleration_eq, carries_damage h.carries amount⟩

/-- A step does not move an enemy at rest. -/
theorem Rests.step (h : e.Rests a position b) (bounds : Rect K) (dt : K) :
    e.Rests a position (b.step bounds dt) := by
  obtain ⟨hposition, hvelocity, hacceleration⟩ := Body.along_step h.bounded bounds dt a
  rw [h.velocity_eq, h.acceleration_eq, zero_mul, add_zero] at hposition hvelocity
  rw [zero_mul, add_zero] at hposition
  exact ⟨(b.shape_step bounds dt).2.trans h.bounded, hposition.trans h.position_eq, hvelocity,
    hacceleration.trans h.acceleration_eq, h.carries⟩

/-- Nor does an update that looks up no entry. -/
theorem Rests.play (h : e.Rests a position b) (hfound : e.transition? = some e')
    (hnone : e.nextManeuver? = none) {s : Scene K} (hb : s.world.bodies[e.body]? = some b)
    (hlt : e.body < s.world.nextBody) :
    (e.play s).enemy.Rests a position (b.takeUp e.limits (e.nextMovement s.rng) s.dt).2 := by
  have hm := rests_nextMovement h.carries hfound hnone s.rng
  obtain ⟨hposition, hvelocity, hacceleration⟩ := b.takeUp_of_rests e.limits s.dt hm
  exact ⟨(b.takeUp_shape e.limits _ s.dt).2.1.trans h.bounded, hposition.trans h.position_eq,
    hvelocity, hacceleration,
    carries_play h.carries (Movement.restsAlong_still a) hfound hb hlt
      (Movement.restsAlong_limitedTo (.inr hm))⟩

/-- An update that is blocked along an axis brings the enemy to rest there. -/
theorem Inside.rests_play (h : e.Inside b) (hroams : e.Roams) (hfound : e.transition? = some e')
    {s : Scene K} (hb : s.world.bodies[e.body]? = some b) (hlt : e.body < s.world.nextBody)
    (hblocked : (e.limits.check b a
      ((e.nextMovement s.rng).displacement s.dt)).possible = false) :
    (e.play s).enemy.Rests a
      ((b.takeUp e.limits (e.nextMovement s.rng) s.dt).2.position.along a)
      (b.takeUp e.limits (e.nextMovement s.rng) s.dt).2 := by
  have hm := hroams.checked_nextMovement h.carries hfound s.rng
  obtain ⟨hfits, -⟩ := b.takeUp_along e.limits s.dt (a := a) fun hleave =>
    hm hleave ▸ Movement.restsAlong_still a
  obtain ⟨-, hbounded, hvelocity, hacceleration⟩ :=
    b.takeUp_shape e.limits (e.nextMovement s.rng) s.dt
  have hleft := (e.nextMovement s.rng).restsAlong_limitedTo (.inl (hfits.trans hblocked))
  exact ⟨hbounded.trans h.bounded, rfl, hvelocity ▸ hleft.1, hacceleration ▸ hleft.2,
    carries_play h.carries (fun _ => rfl) hfound hb hlt hleft⟩

end Enemy

end Barrage
