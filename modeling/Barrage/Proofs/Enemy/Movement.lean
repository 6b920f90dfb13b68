import Barrage.Proofs.Enemy.Turn
import Barrage.Proofs.World.Sparing

/-!
# What an enemy makes of a movement

An update looks up a movement (`Enemy.nextMovement`) and checks the displacement that the next step
of the world would make of it. What fits is left to the velocity of the body, and along an axis
where it does not fit the body is moved flush with the border ahead and stops (`Body.takeUp`). What
is left of the movement lasts until the next entry of a table (`Enemy.play_takeUp`). Other bodies
are not touched (`Enemy.spares_play`).
-/

namespace Barrage

variable {K : Type} [Scalar K]

/-- The movement without its parts along the axes along which it does not fit. -/
def Movement.limitedTo (m : Movement K) (fits : AxisMoves) : Movement K :=
  m.stopped (!fits.x) (!fits.y)

/-- What a body makes of a movement that it takes up, and along which axes the movement fits. -/
def Body.takeUp (b : Body K) (limits : Limits K) (m : Movement K) (dt : K) : AxisMoves × Body K :=
  if m.mayLeave then
    (⟨true, true⟩, { b with velocity := m.velocity, acceleration := m.acceleration })
  else
    let moved := b.moveWithin limits (m.displacement dt) .velocity
    (moved.1, { moved.2 with
      velocity := (m.limitedTo moved.1).velocity
      acceleration := (m.limitedTo moved.1).acceleration })

namespace Enemy

variable {e e' : Enemy K} {r : Routine K} {w : World K} {id : BodyId}

/-! ## Whom an enemy touches -/

/-- An enemy that comes is a new body. -/
theorem spares_spawn (hlt : id < w.nextBody) {sheet : EnemySheet} {assets : Assets K}
    {group : GroupId} {settings : Settings K} {size : Size K} {w' : World K}
    (h : spawn sheet assets w group settings size = .ok (e, w')) : w.Spares id w' := by
  obtain ⟨scripts, -, h⟩ := map_eq_ok_iff.1 h
  cases h
  exact (w.spares_create hlt _ _ _).trans (World.spares_join _ group (Nat.ne_of_lt hlt).symm)

/-- An enemy moves its own body, and no body comes. -/
theorem spares_applyMovement (e : Enemy K) (hne : e.body ≠ id) (m : Movement K) (dt : K) :
    w.Spares id (e.applyMovement w m dt).2 := by
  rw [applyMovement]
  split
  · exact .refl w id
  · split
    · exact w.spares_modify hne _
    · exact w.spares_modify hne _

/-- What an enemy fires are new bodies. -/
theorem spares_fire (e : Enemy K) (hlt : id < w.nextBody) (group : GroupId)
    (sizeOf : String → Size K) : w.Spares id (e.fire w group sizeOf).2 := by
  rw [fire_eq]
  exact w.spares_spawnShots hlt ..

/-- So an update spares all other bodies. -/
theorem spares_play (e : Enemy K) (s : Scene K) (hne : e.body ≠ id)
    (hlt : id < s.world.nextBody) : s.world.Spares id (e.play s).world := by
  rw [play, update]
  split
  · exact .refl _ id
  · next e' hfound =>
    have hmove : s.world.Spares id (e'.move s.world s.rng s.dt).2.1 :=
      spares_applyMovement _ (by rw [← body_transition? hfound] at hne; exact hne) _ _
    exact hmove.trans (spares_fire _ (Nat.lt_of_lt_of_le hlt hmove.nextBody_le) _ _)

/-! ## The movement of a frame -/

/-- The movement that an enemy looks up in its next update. -/
def nextMovement (e : Enemy K) (rng : Prng) : Movement K :=
  ((e.transition?.getD e).sequence.currentMovement rng).1

/-- The entry of a table that it looks up, if there is one for the time of its routine. -/
def nextManeuver? (e : Enemy K) : Option (Maneuver K) :=
  (e.transition?.bind (·.sequence.current?)).bind fun r => r.moves[r.time]?

omit [Scalar K] in
/-- A transition keeps the limits of the enemy. -/
theorem limits_transition? (h : e.transition? = some e') : e'.limits = e.limits := by
  rcases transition?_eq_some h with ⟨-, rfl⟩ | ⟨-, -, rfl⟩ <;> rfl

/-- The next movement is looked up in the table of the routine that the enemy goes on with. -/
theorem nextMovement_eq (hfound : e.transition? = some e') (hr : e'.sequence.current? = some r)
    (rng : Prng) : e.nextMovement rng = (r.moves.lookup r.time r.ongoing rng).1 := by
  rw [nextMovement, hfound, Option.getD_some, Sequence.currentMovement_of_current? hr]

/-- Without an entry the movement before goes on. -/
theorem nextMovement_of_no_entry (hfound : e.transition? = some e')
    (hr : e'.sequence.current? = some r) (hnone : e.nextManeuver? = none) (rng : Prng) :
    e.nextMovement rng = r.ongoing := by
  rw [nextManeuver?, hfound, Option.bind_some, hr, Option.bind_some] at hnone
  rw [nextMovement_eq hfound hr, MoveTable.lookup, hnone]

/-- A movement is taken up by the body of the enemy, and the ongoing movement of its routine is
limited in the same way. -/
theorem applyMovement_takeUp (e : Enemy K) {b : Body K} (hb : w.bodies[e.body]? = some b)
    (m : Movement K) (dt : K) :
    (e.applyMovement w m dt).1 = { e with
      sequence := e.sequence.modifyCurrent fun r =>
        { r with ongoing := r.ongoing.limitedTo (b.takeUp e.limits m dt).1 } } ∧
    (e.applyMovement w m dt).2.bodies[e.body]? = some (b.takeUp e.limits m dt).2 := by
  have hsame : e = { e with sequence := e.sequence.modifyCurrent fun r =>
      { r with ongoing := r.ongoing.limitedTo ⟨true, true⟩ } } := by
    have hid : (fun r : Routine K => { r with ongoing := r.ongoing.limitedTo ⟨true, true⟩ }) = id :=
      rfl
    rw [hid, Sequence.modifyCurrent, List.modify_id]
  rw [applyMovement, hb, Body.takeUp]
  dsimp only
  by_cases hleave : m.mayLeave = true
  · rw [if_pos hleave, if_pos hleave]
    refine ⟨hsame, ?_⟩
    rw [World.bodies_modify, if_pos rfl, hb]
    rfl
  · rw [if_neg hleave, if_neg hleave]
    generalize b.moveWithin e.limits (m.displacement dt) .velocity = moved
    obtain ⟨⟨fitsX, fitsY⟩, b'⟩ := moved
    constructor
    · cases fitsX
      · cases fitsY
        · exact congrArg (fun sequence => { e with sequence })
            (e.sequence.modifyCurrent_modifyCurrent Routine.haltX Routine.haltY)
        · rfl
      · cases fitsY
        · rfl
        · exact hsame
    · rw [World.bodies_modify, if_pos rfl, hb]
      cases fitsX <;> cases fitsY <;> rfl

/-- In an update that finds a routine the enemy's body takes up the movement that it looks up, and
the routine goes on with what is left of it. -/
theorem play_takeUp (hfound : e.transition? = some e') (hr : e'.sequence.current? = some r)
    (s : Scene K) {b : Body K} (hb : s.world.bodies[e.body]? = some b)
    (hlt : e.body < s.world.nextBody) :
    (e.play s).enemy = { e' with
      sequence := e'.sequence.modifyCurrent fun _ => ({ r with
        ongoing := (e.nextMovement s.rng).limitedTo
          (b.takeUp e.limits (e.nextMovement s.rng) s.dt).1 } : Routine K).advance } ∧
    (e.play s).world.bodies[e.body]? = some (b.takeUp e.limits (e.nextMovement s.rng) s.dt).2 := by
  have hcurrent := Sequence.currentMovement_of_current? hr s.rng
  rw [← nextMovement_eq hfound hr] at hcurrent
  generalize e.nextMovement s.rng = m at hcurrent ⊢
  -- the enemy with its movement looked up, before its body takes it up
  let ready : Enemy K :=
    { e' with sequence := e'.sequence.modifyCurrent fun _ => { r with ongoing := m } }
  have hbody : ready.body = e.body := (body_transition? hfound :)
  have hlimits : ready.limits = e.limits := (limits_transition? hfound :)
  obtain ⟨henemy, htaken⟩ := ready.applyMovement_takeUp (hbody.symm ▸ hb) m s.dt
  have hmove : e'.move s.world s.rng s.dt =
      ((ready.applyMovement s.world m s.dt).1, (ready.applyMovement s.world m s.dt).2,
        (r.moves.lookup r.time r.ongoing s.rng).2) := by
    rw [move, hcurrent]
  have hnext : (ready.applyMovement s.world m s.dt).2.nextBody = s.world.nextBody := by
    obtain ⟨x, y, -, hnext, -⟩ := ready.applyMovement_eq s.world m s.dt
    exact hnext
  have hfired := (ready.applyMovement s.world m s.dt).1.spares_fire
    (w := (ready.applyMovement s.world m s.dt).2) (hnext.symm ▸ hlt) s.group s.sizeOf
  rw [play, update, hfound, ← hlimits]
  dsimp only
  rw [hmove]
  constructor
  · dsimp only
    rw [henemy, Sequence.advance, Sequence.modifyCurrent_modifyCurrent]
    dsimp only [ready]
    rw [Sequence.modifyCurrent_modifyCurrent]
    rfl
  · dsimp only
    rw [hfired.body_eq, ← hbody]
    exact htaken

end Enemy

end Barrage
