import Barrage.Actor.Enemy
import Barrage.Proofs.Routine.Course
import Barrage.Proofs.World.Volley

/-!
# One update of an enemy

An update first looks for a routine (`Enemy.transition?_eq_some`). If it finds one, it reads the
tables of this routine at the time of the routine: the movement of that time is taken up, as far as
the limits of the enemy allow it, and the shots of that time are fired (`Enemy.Performs`). If it
finds none, it changes nothing (`Enemy.play_of_none`).
-/

namespace Barrage

variable {K : Type}

/-- What an enemy meets on a frame. -/
structure Scene (K : Type) where
  world : World K
  rng : Prng
  /-- The group that its shots join. -/
  group : GroupId
  dt : K
  sizeOf : String → Size K

namespace Enemy

variable {e e' : Enemy K}

/-- An update finds no routine when the current one is over and it is the last one. -/
theorem transition?_eq_none_iff :
    e.transition? = none ↔ e.sequence.isFinished = true ∧ e.sequence.hasNext = false := by
  unfold transition?
  cases e.sequence.isFinished <;> cases e.sequence.hasNext <;> simp

/-- Otherwise it stays with a routine that is not over, or moves to the next one. -/
theorem transition?_eq_some (h : e.transition? = some e') :
    (e.sequence.isFinished = false ∧ e' = e) ∨
    (e.sequence.isFinished = true ∧ e.sequence.hasNext = true ∧
      e' = { e with sequence := e.sequence.toNext }) := by
  unfold transition? at h
  cases hover : e.sequence.isFinished with
  | false =>
    rw [hover] at h
    exact .inl ⟨rfl, (Option.some.inj h).symm⟩
  | true =>
    cases hnext : e.sequence.hasNext with
    | false =>
      rw [hover, hnext] at h
      cases h
    | true =>
      rw [hover, hnext] at h
      exact .inr ⟨rfl, rfl, (Option.some.inj h).symm⟩

/-- A transition leaves all routines as they are. -/
theorem routines_transition? (h : e.transition? = some e') :
    e'.sequence.routines = e.sequence.routines := by
  rcases transition?_eq_some h with ⟨-, rfl⟩ | ⟨-, hnext, rfl⟩
  · rfl
  · rw [Sequence.toNext, if_pos hnext]

/-- A transition keeps the body of the enemy. -/
theorem body_transition? (h : e.transition? = some e') : e'.body = e.body := by
  rcases transition?_eq_some h with ⟨-, rfl⟩ | ⟨-, -, rfl⟩ <;> rfl

/-- The cursor moves on when a routine is finished and has a next one. -/
theorem cursor_transition? (h : e.transition? = some e') : e'.sequence.cursor =
    if e.sequence.isFinished && e.sequence.hasNext then e.sequence.cursor + 1
    else e.sequence.cursor := by
  rcases transition?_eq_some h with ⟨hgoes, rfl⟩ | ⟨hover, hnext, rfl⟩
  · rw [hgoes]
    rfl
  · rw [hover, hnext, Sequence.toNext, if_pos hnext]
    rfl

end Enemy

variable [Scalar K]

/-- The movement that a table gives at a time, and the generator after the draws. Without an entry
for that time the movement before goes on, and nothing is drawn. -/
def MoveTable.lookup (table : MoveTable K) (time : Nat) (before : Movement K) (g : Prng) :
    Movement K × Prng :=
  match table[time]? with
  | none => (before, g)
  | some maneuver => maneuver.resolve g

/-- A sequence reads the movement of its routine at the time of this routine. -/
theorem Sequence.currentMovement_of_current? {s : Sequence K} {r : Routine K}
    (hr : s.current? = some r) (g : Prng) : s.currentMovement g =
      ((r.moves.lookup r.time r.ongoing g).1,
        s.modifyCurrent fun _ => { r with ongoing := (r.moves.lookup r.time r.ongoing g).1 },
        (r.moves.lookup r.time r.ongoing g).2) := by
  rw [currentMovement, hr]
  dsimp only
  rw [Routine.currentMovement, MoveTable.lookup]
  cases r.moves[r.time]? <;> rfl

/-- The movement without its velocity and its acceleration along some axes. -/
def Movement.stopped (m : Movement K) (x y : Bool) : Movement K where
  velocity := ⟨if x then 0 else m.velocity.x, if y then 0 else m.velocity.y⟩
  acceleration := ⟨if x then 0 else m.acceleration.x, if y then 0 else m.acceleration.y⟩
  mayLeave := m.mayLeave

namespace Enemy

/-- One frame in a scene. -/
def play (e : Enemy K) (s : Scene K) : EnemyFrame K := e.update s.world s.rng s.group s.dt s.sizeOf

variable {e e' : Enemy K} {s : Scene K} {r : Routine K}

/-- A movement that is taken up may be stopped along some axes. Then the ongoing movement of the
routine is stopped as well, and the body has what is left of it. Nothing else changes. -/
theorem applyMovement_eq (e : Enemy K) (w : World K) (m : Movement K) (dt : K) : ∃ x y : Bool,
    (e.applyMovement w m dt).1 = { e with
      sequence := e.sequence.modifyCurrent fun r => { r with ongoing := r.ongoing.stopped x y } } ∧
    (e.applyMovement w m dt).2.nextBody = w.nextBody ∧
    (∀ other ≠ e.body, (e.applyMovement w m dt).2.bodies[other]? = w.bodies[other]?) ∧
    ∀ b, w.bodies[e.body]? = some b → ∃ b', (e.applyMovement w m dt).2.bodies[e.body]? = some b' ∧
      b'.velocity = (m.stopped x y).velocity ∧ b'.acceleration = (m.stopped x y).acceleration := by
  have hsame : e = { e with sequence := e.sequence.modifyCurrent fun r =>
      { r with ongoing := r.ongoing.stopped false false } } := by
    have hid : (fun r : Routine K => { r with ongoing := r.ongoing.stopped false false }) = id :=
      rfl
    rw [hid, Sequence.modifyCurrent, List.modify_id]
  unfold applyMovement
  split
  · next hgone =>
    refine ⟨false, false, hsame, rfl, fun _ _ => rfl, ?_⟩
    intro b hb
    rw [hgone] at hb
    cases hb
  · next b hb =>
    split
    · refine ⟨false, false, hsame, rfl, ?_, ?_⟩
      · intro other hne
        rw [World.bodies_modify, if_neg hne.symm]
      · intro b' hb'
        rw [World.bodies_modify, if_pos rfl, hb']
        exact ⟨_, rfl, rfl, rfl⟩
    · -- each axis that does not fit is stopped in the sequence and in the movement
      generalize b.moveWithin e.limits (m.displacement dt) .velocity = moved
      obtain ⟨⟨fitsX, fitsY⟩, b'⟩ := moved
      refine ⟨!fitsX, !fitsY, ?_, rfl, ?_, ?_⟩
      · cases fitsX
        · cases fitsY
          · exact congrArg (fun sequence => { e with sequence })
              (e.sequence.modifyCurrent_modifyCurrent Routine.haltX Routine.haltY)
          · rfl
        · cases fitsY
          · rfl
          · exact hsame
      · intro other hne
        rw [World.bodies_modify, if_neg hne.symm]
      · intro _ _
        rw [World.bodies_modify, if_pos rfl, hb]
        refine ⟨_, rfl, ?_, ?_⟩
        · cases fitsX <;> cases fitsY <;> rfl
        · cases fitsX <;> cases fitsY <;> rfl

/-- An enemy that takes up its movement changes bodies alone, and the shots of its frame stay. -/
theorem move_eq (e : Enemy K) (w : World K) (rng : Prng) (dt : K) :
    (e.move w rng dt).1.body = e.body ∧
    (e.move w rng dt).1.sequence.currentShots = e.sequence.currentShots ∧
    ∃ bodies, (e.move w rng dt).2.1 = { w with bodies } ∧ ∀ {id}, id ∈ bodies ↔ id ∈ w.bodies := by
  have hshots : ∀ (s : Sequence K) (change : Routine K → Routine K),
      (∀ r, s.current? = some r → (change r).currentShots = r.currentShots) →
      (s.modifyCurrent change).currentShots = s.currentShots := by
    intro s change hchange
    rw [Sequence.currentShots, Sequence.current?_modifyCurrent, Sequence.currentShots]
    cases hr : s.current? with
    | none => rfl
    | some r => exact hchange r hr
  have hlookup : (e.sequence.currentMovement rng).2.1.currentShots = e.sequence.currentShots := by
    cases hr : e.sequence.current? with
    | none => rw [Sequence.currentMovement, hr]
    | some r =>
      rw [Sequence.currentMovement_of_current? hr]
      exact hshots _ _ fun r' hr' => by
        rw [← Option.some.inj (hr.symm.trans hr')]
        rfl
  have hworld : ∀ e : Enemy K, ∀ m, ∃ bodies, (e.applyMovement w m dt).2 = { w with bodies } ∧
      ∀ {id}, id ∈ bodies ↔ id ∈ w.bodies := by
    intro e m
    rw [applyMovement]
    split
    · exact ⟨w.bodies, rfl, Iff.rfl⟩
    · split
      · exact ⟨_, rfl, Std.ExtTreeMap.mem_modify⟩
      · exact ⟨_, rfl, Std.ExtTreeMap.mem_modify⟩
  let ready : Enemy K := { e with sequence := (e.sequence.currentMovement rng).2.1 }
  obtain ⟨x, y, hready, -⟩ := ready.applyMovement_eq w (e.sequence.currentMovement rng).1 dt
  have hmove : (e.move w rng dt).1 = _ := hready
  refine ⟨?_, ?_, hworld ready _⟩
  · rw [hmove]
  · rw [hmove]
    exact (hshots ready.sequence (fun r => { r with ongoing := r.ongoing.stopped x y })
      fun _ _ => rfl).trans hlookup

/-- Shots that a table does not have are a volley without shots. -/
theorem fire_eq (e : Enemy K) (w : World K) (group : GroupId) (sizeOf : String → Size K) :
    e.fire w group sizeOf =
      ((w.spawnShots (e.sequence.currentShots.getD []) e.body group sizeOf).1.length,
        (w.spawnShots (e.sequence.currentShots.getD []) e.body group sizeOf).2) := by
  unfold fire
  split
  · next hnone =>
    rw [hnone]
    rfl
  · next shots hshots =>
    rw [hshots]
    rfl

/-- An update takes no number of a body back. -/
theorem le_nextBody_update (e : Enemy K) (w : World K) (rng : Prng) (group : GroupId) (dt : K)
    (sizeOf : String → Size K) : w.nextBody ≤ (e.update w rng group dt sizeOf).world.nextBody := by
  rw [update]
  split
  · exact Nat.le_refl _
  · next e' _ =>
    have hmove : (e'.move w rng dt).2.1.nextBody = w.nextBody := by
      obtain ⟨-, -, bodies, hworld, -⟩ := e'.move_eq w rng dt
      rw [hworld]
    dsimp only
    rw [fire_eq, ← hmove]
    exact World.le_nextBody_spawnShots ..

/-- What an update does that reads a routine at a time. -/
structure Performs (e : Enemy K) (s : Scene K) (r : Routine K) (i t : Nat) : Prop where
  cursor_eq : (e.play s).enemy.sequence.cursor = i
  body_eq : (e.play s).enemy.body = e.body
  /-- It looks up the movement of that time, which lasts from then on, up to the axes along which it
  is stopped. A live body takes it up, and fires exactly the shots of that time. -/
  acts : ∃ before after x y, e.sequence.routines[i]? = some before ∧
    (e.play s).enemy.sequence.routines[i]? = some after ∧
    (e.play s).rng = (r.moves.lookup t before.ongoing s.rng).2 ∧
    after.ongoing = (r.moves.lookup t before.ongoing s.rng).1.stopped x y ∧
    ∀ b, s.world.bodies[e.body]? = some b → e.body < s.world.nextBody →
      (e.play s).report = .active (r.shots[t]?.getD []).length ∧
      (e.play s).world.nextBody = s.world.nextBody + (r.shots[t]?.getD []).length ∧
      (∀ other < s.world.nextBody, other ≠ e.body →
        (e.play s).world.bodies[other]? = s.world.bodies[other]?) ∧
      ∃ b', (e.play s).world.bodies[e.body]? = some b' ∧
        b'.velocity = after.ongoing.velocity ∧ b'.acceleration = after.ongoing.acceleration ∧
        ∀ k shot, (r.shots[t]?.getD [])[k]? = some shot → ∃ new,
          (e.play s).world.bodies[s.world.nextBody + k]? = some new ∧
            World.IsShotOf shot b' (s.sizeOf shot.image) new

/-- An update that finds no routine changes nothing. -/
theorem play_of_none (h : e.transition? = none) (s : Scene K) :
    e.play s = ⟨.finished, e, s.world, s.rng⟩ := by
  rw [play, update, h]

/-- An update that finds a routine looks up the movement of its time, fires the shots of its time,
and moves it on. -/
theorem play_of_some (h : e.transition? = some e') (hr : e'.sequence.current? = some r)
    (s : Scene K) : ∃ (ongoing : Movement K) (x y : Bool) (w' : World K),
    ongoing = (r.moves.lookup r.time r.ongoing s.rng).1.stopped x y ∧
    (e.play s).enemy =
      { e' with sequence := e'.sequence.modifyCurrent fun _ => ({ r with ongoing }).advance } ∧
    (e.play s).rng = (r.moves.lookup r.time r.ongoing s.rng).2 ∧
    (e.play s).report = .active
      (w'.spawnShots (r.shots[r.time]?.getD []) e'.body s.group s.sizeOf).1.length ∧
    (e.play s).world = (w'.spawnShots (r.shots[r.time]?.getD []) e'.body s.group s.sizeOf).2 ∧
    w'.nextBody = s.world.nextBody ∧
    (∀ other ≠ e'.body, w'.bodies[other]? = s.world.bodies[other]?) ∧
    ∀ b, s.world.bodies[e'.body]? = some b → ∃ b', w'.bodies[e'.body]? = some b' ∧
      b'.velocity = ongoing.velocity ∧ b'.acceleration = ongoing.acceleration := by
  have hcurrent := Sequence.currentMovement_of_current? hr s.rng
  generalize r.moves.lookup r.time r.ongoing s.rng = found at hcurrent
  obtain ⟨movement, rng⟩ := found
  -- the enemy with its movement looked up, before its body takes it up
  let ready : Enemy K :=
    { e' with sequence := e'.sequence.modifyCurrent fun _ => { r with ongoing := movement } }
  obtain ⟨x, y, henemy, hnext, hothers, hbody⟩ := ready.applyMovement_eq s.world movement s.dt
  generalize hmoved : ready.applyMovement s.world movement s.dt = moved
    at henemy hnext hothers hbody
  obtain ⟨stopped, w'⟩ := moved
  have hmove : e'.move s.world s.rng s.dt = (stopped, w', rng) := by
    rw [move, hcurrent]
    dsimp only
    rw [show ({ e' with sequence := ready.sequence } : Enemy K) = ready from rfl, hmoved]
  have hstopped : stopped = { e' with sequence := e'.sequence.modifyCurrent fun _ =>
      { r with ongoing := movement.stopped x y } } := by
    refine henemy.trans ?_
    dsimp only [ready]
    rw [Sequence.modifyCurrent_modifyCurrent]
    rfl
  have hshots : stopped.sequence.currentShots = r.shots[r.time]? := by
    rw [hstopped, Sequence.currentShots, Sequence.current?_modifyCurrent, hr]
    rfl
  have hplay : e.play s = ⟨.active (stopped.fire w' s.group s.sizeOf).1,
      { stopped with sequence := stopped.sequence.advance },
      (stopped.fire w' s.group s.sizeOf).2, rng⟩ := by
    rw [play, update, h]
    dsimp only
    rw [hmove]
  rw [hplay, fire_eq, hshots]
  refine ⟨movement.stopped x y, x, y, w', rfl, ?_, rfl, ?_, ?_, hnext, hothers, hbody⟩
  · rw [hstopped]
    dsimp only
    rw [Sequence.advance, Sequence.modifyCurrent_modifyCurrent]
    rfl
  · rw [hstopped]
  · rw [hstopped]

/-- An update reads the tables of the routine that it finds, at the time of this routine. -/
theorem performs_of_transition? {e' : Enemy K} (hfound : e.transition? = some e') {r : Routine K}
    (hr : e'.sequence.current? = some r) (s : Scene K) :
    e.Performs s r.rewind e'.sequence.cursor r.time := by
  have hroutines := routines_transition? hfound
  have hbody := body_transition? hfound
  obtain ⟨ongoing, x, y, w', hongoing, henemy, hrng, hreport, hworld, hnext, hothers, hacts⟩ :=
    play_of_some hfound hr s
  rw [hbody] at hreport hworld hothers hacts
  have hbefore : e.sequence.routines[e'.sequence.cursor]? = some r := hroutines ▸ hr
  have hafter : (e.play s).enemy.sequence.routines[e'.sequence.cursor]? =
      some ({ r with ongoing } : Routine K).advance := by
    rw [henemy]
    exact (e'.sequence.current?_modifyCurrent _).trans (congrArg (Option.map _) hr)
  refine ⟨by rw [henemy]; rfl, by rw [henemy]; exact hbody, r, _, x, y, hbefore, hafter, hrng,
    hongoing, ?_⟩
  intro b hb hlt
  obtain ⟨b', hb', hvelocity, hacceleration⟩ := hacts b hb
  rw [← hnext] at hlt ⊢
  obtain ⟨hids, hspawns⟩ :=
    World.spawns_spawnShots hb' hlt (r.shots[r.time]?.getD []) s.group s.sizeOf
  have hold : ∀ other < w'.nextBody,
      (w'.spawnShots (r.shots[r.time]?.getD []) e.body s.group s.sizeOf).2.bodies[other]? =
        w'.bodies[other]? := by
    intro other hother
    refine (hspawns.old other ?_).1
    rw [List.mem_range'_1]
    exact fun hin => Nat.not_lt_of_le hin.1 hother
  rw [hreport, hworld, hids, List.length_range']
  refine ⟨rfl, hspawns.nextBody_eq, ?_, b', (hold e.body hlt).trans hb', hvelocity, hacceleration,
    fun i shot hi => ?_⟩
  · intro other hother hne
    exact (hold other hother).trans (hothers other hne)
  · obtain ⟨new, hnew, hshape, -⟩ := hspawns.new i shot hi
    exact ⟨new, hnew, hshape⟩

end Enemy

end Barrage
