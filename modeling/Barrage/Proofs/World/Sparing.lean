import Barrage.Actor.Harm
import Barrage.Proofs.World.Roster
import Barrage.Proofs.World.Volley

/-!
# Operations that spare a body

Most of what happens to a world in a frame is about other bodies than a given one. Such operations
leave it and the bounds of the world as they are (`World.Spares`): changes and destructions of other
bodies, and the creation of new ones, whose numbers are not in use yet.
-/

namespace Barrage.World

variable {K : Type}

/-- A world that operations have made of another one without touching a body. -/
structure Spares (w : World K) (id : BodyId) (v : World K) : Prop where
  bounds_eq : v.bounds = w.bounds
  body_eq : v.bodies[id]? = w.bodies[id]?
  nextBody_le : w.nextBody ≤ v.nextBody

section
variable {u v w : World K} {id : BodyId}

/-- A world that stays as it is spares all bodies. -/
theorem Spares.refl (w : World K) (id : BodyId) : w.Spares id w := ⟨rfl, rfl, Nat.le_refl _⟩

/-- Operations that spare a body do so together. -/
theorem Spares.trans (h : w.Spares id v) (hlater : v.Spares id u) : w.Spares id u :=
  ⟨hlater.bounds_eq.trans h.bounds_eq, hlater.body_eq.trans h.body_eq,
    Nat.le_trans h.nextBody_le hlater.nextBody_le⟩

variable (w)

/-- A change of a body spares the others. -/
theorem spares_modify {other : BodyId} (hne : other ≠ id) (change : Body K → Body K) :
    w.Spares id (w.modify other change) :=
  ⟨rfl, by rw [bodies_modify, if_neg hne], Nat.le_refl _⟩

/-- The destruction of a body spares the others. -/
theorem spares_destroy {other : BodyId} (hne : other ≠ id) : w.Spares id (w.destroy other) := by
  refine ⟨?_, by rw [bodies_destroy, if_neg hne], Nat.le_of_eq (w.nextBody_destroy other).symm⟩
  rw [destroy]
  split <;> rfl

/-- Several destructions spare all bodies that are not destroyed. -/
theorem spares_foldl_destroy {ids : List BodyId} (hids : id ∉ ids) :
    w.Spares id (ids.foldl destroy w) := by
  induction ids generalizing w with
  | nil => exact .refl w id
  | cons other rest ih =>
    rw [List.mem_cons, not_or] at hids
    exact (w.spares_destroy (Ne.symm hids.1)).trans (ih (w.destroy other) hids.2)

/-- A tag spares all bodies, the tagged one included. -/
theorem spares_tagDamage (other : BodyId) (damage : Nat) :
    w.Spares id (w.tagDamage other damage) := by
  rw [tagDamage]
  split
  · exact ⟨rfl, rfl, Nat.le_refl _⟩
  · exact .refl w id

/-- A body that joins a group spares the others. -/
theorem spares_join (group : GroupId) {other : BodyId} (hne : other ≠ id) :
    w.Spares id (w.join group other) := by
  obtain ⟨kinematics, hjoin⟩ := w.bodies_join group other id
  rw [if_neg hne] at hjoin
  exact ⟨w.bounds_join group other, hjoin, Nat.le_of_eq (nextBody_join group other).symm⟩

/-- To join a group changes at most the velocity and the acceleration of a body. -/
theorem exists_body_join (group : GroupId) {b : Body K} (hb : w.bodies[id]? = some b) :
    ∃ velocity acceleration,
      (w.join group id).bodies[id]? = some { b with velocity, acceleration } := by
  obtain ⟨kinematics, hjoin⟩ := w.bodies_join group id id
  rw [if_pos rfl, hb] at hjoin
  cases kinematics with
  | none => exact ⟨b.velocity, b.acceleration, hjoin⟩
  | some k => exact ⟨k.velocity, k.acceleration, hjoin⟩

variable [Scalar K]

/-- A new body spares those whose numbers were given out before. -/
theorem spares_create (hlt : id < w.nextBody) (sprite : String) (position : Vec K)
    (size : Size K) : w.Spares id (w.create sprite position size).2 :=
  ⟨rfl, w.bodies_create sprite position size (Nat.ne_of_lt hlt), Nat.le_succ _⟩

/-- A shot is a new body, so it spares the others, and the body that fires it. -/
theorem spares_spawnShot (hlt : id < w.nextBody) {shot : Shot K} {source : BodyId}
    {group : GroupId} {size : Size K} {r : BodyId × World K}
    (hr : w.spawnShot shot source group size = some r) : w.Spares id r.2 := by
  obtain ⟨b, -, rfl⟩ := Option.map_eq_some_iff.1 hr
  have hne : w.nextBody ≠ id := (Nat.ne_of_lt hlt).symm
  have hcreate := w.spares_create hlt shot.image (shot.spawnPoint b.position b.half) size
  cases shot.damage with
  | none => exact (hcreate.trans (spares_join _ group hne)).trans (spares_modify _ hne _)
  | some damage =>
    have htag := hcreate.trans (spares_tagDamage _ w.nextBody damage)
    exact (htag.trans (spares_join _ group hne)).trans (spares_modify _ hne _)

/-- A volley spares all bodies that were there before. -/
theorem spares_spawnShots (hlt : id < w.nextBody) (shots : List (Shot K)) (source : BodyId)
    (group : GroupId) (sizeOf : String → Size K) :
    w.Spares id (w.spawnShots shots source group sizeOf).2 := by
  induction shots generalizing w with
  | nil => exact .refl w id
  | cons shot rest ih =>
    rw [spawnShots]
    split
    · exact ih w hlt
    · next hshot =>
      have hfirst := w.spares_spawnShot hlt hshot
      exact hfirst.trans (ih _ (Nat.lt_of_lt_of_le hlt hfirst.nextBody_le))

/-- A sweep spares whatever is not in its group. -/
theorem spares_sweep {group : GroupId} (hid : id ∉ w.members group) (viewport : Size K) :
    w.Spares id (w.sweep group viewport) :=
  w.spares_foldl_destroy fun hin => hid (List.mem_filter.1 hin).1

end

end Barrage.World
