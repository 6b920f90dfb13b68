import Barrage.World.Volley
import Barrage.Proofs.World.Roster

/-!
# What a volley adds to a world

A shot that is fired from a body becomes a body of its own (`World.IsShotOf`): its place is measured
from the body that fires it, which is at the middle of an edge or at the centre, and its velocity is
its own. On its way through the tables of the world it is created at rest, tagged, given the
kinematics of its group if there is one, and only then its velocity.

Numbers of bodies are handed out one after the other, and no operation takes one back
(`World.le_nextBody_spawnShots`). What a volley makes of a world is therefore said by the number of
its shots (`World.Spawns`): they get the next numbers in their order, they stand behind the other
members of their group, and nothing is written at any other number. Volleys follow each other
(`World.Spawns.append`), and so a volley is the sum of its shots (`World.spawns_spawnShots`).
-/

namespace Barrage.World

variable {K : Type} {w : World K}

/-! ## Joining a group -/

/-- To join a group hands out no number. -/
theorem nextBody_join (group : GroupId) (id : BodyId) :
    (w.join group id).nextBody = w.nextBody := by
  obtain h | ⟨g, -, -, -, h⟩ := w.join_cases group id
  · rw [h]
  · rw [h, modify]

/-- To join a group leaves the borders of the world where they are. -/
theorem bounds_join (group : GroupId) (id : BodyId) : (w.join group id).bounds = w.bounds := by
  obtain h | ⟨g, -, -, -, h⟩ := w.join_cases group id
  · rw [h]
  · rw [h, modify]

/-- To join a group tags no body. -/
theorem damage_join (group : GroupId) (id : BodyId) : (w.join group id).damage = w.damage := by
  obtain h | ⟨g, -, -, -, h⟩ := w.join_cases group id
  · rw [h]
  · rw [h, modify]

/-- To join a group makes no group. -/
theorem length_groups_join (group : GroupId) (id : BodyId) :
    (w.join group id).groups.length = w.groups.length := by
  obtain h | ⟨g, -, -, -, h⟩ := w.join_cases group id
  · rw [h]
  · rw [h, List.length_set]

/-- To join a group changes at most the kinematics of the body that joins it. -/
theorem bodies_join (group : GroupId) (id other : BodyId) : ∃ kinematics : Option (Kinematics K),
    (w.join group id).bodies[other]? = if id = other then w.bodies[other]?.map fun b =>
      kinematics.elim b fun k => { b with velocity := k.velocity, acceleration := k.acceleration }
    else w.bodies[other]? := by
  obtain h | ⟨g, -, -, -, h⟩ := w.join_cases group id
  · refine ⟨none, ?_⟩
    rw [h]
    split
    · exact Option.map_id'.symm
    · rfl
  · refine ⟨some g.defaults, ?_⟩
    rw [h]
    exact w.bodies_modify id other _

/-- A live body is tagged. -/
theorem tagDamage_of_mem {id : BodyId} (h : id ∈ w.bodies) (damage : Nat) :
    w.tagDamage id damage = { w with damage := w.damage.insert id damage } :=
  if_pos (Std.ExtTreeMap.contains_iff_mem.2 h)

/-! ## Groups for new bodies -/

/-- A group that there is, and that no number to come is in. -/
structure Hosts (w : World K) (group : GroupId) (g : Group K) : Prop where
  getElem?_eq : w.groups[group]? = some g
  lt_nextBody : ∀ id ∈ g.members, id < w.nextBody

/-- The next number is in no such group. -/
theorem Hosts.nextBody_not_mem {group : GroupId} {g : Group K} (hg : w.Hosts group g) :
    w.nextBody ∉ w.members group := by
  rw [members_of_getElem? hg.getElem?_eq]
  exact fun hin => Nat.lt_irrefl _ (hg.lt_nextBody _ hin)

/-- In an enrolled world no number to come is in a group. -/
theorem Enrolled.hosts (hw : w.Enrolled) {group : GroupId} {g : Group K}
    (hgroup : w.groups[group]? = some g) : w.Hosts group g := by
  refine ⟨hgroup, fun id hid => ?_⟩
  rw [← members_of_getElem? hgroup] at hid
  exact hw.lt_nextBody (hw.mem_bodies hid)

variable [Scalar K]

/-! ## Shots -/

/-- The body of a shot that was fired from another body. -/
structure IsShotOf (shot : Shot K) (source : Body K) (size : Size K) (b : Body K) : Prop where
  sprite_eq : b.sprite = shot.image
  /-- It is where the offset of the shot leads to from its anchor, which is the centre of the other
  body or the middle of an edge. -/
  x_eq : b.position.x = source.position.x + shot.offset.x + match shot.anchor with
    | .left => -source.half.x
    | .right => source.half.x
    | .top | .bottom | .middle => 0
  /-- The second axis points down, so the upper edge is half the height before the centre. -/
  y_eq : b.position.y = source.position.y + shot.offset.y + match shot.anchor with
    | .top => -source.half.y
    | .bottom => source.half.y
    | .left | .right | .middle => 0
  half_eq : b.half = ⟨size.width / Scalar.whole 2, size.height / Scalar.whole 2⟩
  /-- A shot gives its velocity by components, or as a speed at an angle in degrees. -/
  velocity_eq : b.velocity = match shot.velocity with
    | .components x y => ⟨x, y⟩
    | .polar speed degrees =>
      ⟨speed * Scalar.sin (degrees * Scalar.pi / Scalar.whole 180),
        speed * Scalar.cos (degrees * Scalar.pi / Scalar.whole 180)⟩
  /-- It may leave the world. -/
  bounded_eq : b.bounded = false

/-- The body that a shot leaves in a world, with the acceleration that it is given there. -/
def shotBody (shot : Shot K) (source : Body K) (size : Size K) (acceleration : Vec K) : Body K where
  sprite := shot.image
  position := shot.spawnPoint source.position source.half
  half := ⟨size.width / Scalar.whole 2, size.height / Scalar.whole 2⟩
  velocity := shot.velocity.toVec
  acceleration := acceleration
  bounded := false

/-- The body of a shot is where the shot says and as fast as the shot says. -/
theorem isShotOf_shotBody (shot : Shot K) (source : Body K) (size : Size K)
    (acceleration : Vec K) :
    IsShotOf shot source size (shotBody shot source size acceleration) := by
  obtain ⟨image, offset, anchor, damage, velocity⟩ := shot
  refine ⟨rfl, ?_, ?_, rfl, ?_, rfl⟩
  · cases anchor <;> rfl
  · cases anchor <;> rfl
  · cases velocity <;> rfl

/-- What velocity the other body has does not matter. -/
theorem IsShotOf.of_velocity {shot : Shot K} {source : Body K} {velocity : Vec K} {size : Size K}
    {b : Body K} (h : IsShotOf shot { source with velocity } size b) :
    IsShotOf shot source size b :=
  ⟨h.sprite_eq, h.x_eq, h.y_eq, h.half_eq, h.velocity_eq, h.bounded_eq⟩

/-- The world with the new body of a shot, which is tagged and at rest, and in no group yet. -/
def withShot (w : World K) (shot : Shot K) (source : Body K) (size : Size K) : World K :=
  { (w.create shot.image (shot.spawnPoint source.position source.half) size).2 with
    damage := shot.damage.elim w.damage fun damage => w.damage.insert w.nextBody damage }

/-- The new body is in no group yet. -/
theorem grown_withShot (shot : Shot K) (source : Body K) (size : Size K) :
    w.Grown (w.withShot shot source size) := ⟨rfl, rfl, w.mem_bodies_create⟩

/-- The new body, before it joins a group. -/
theorem bodies_withShot_self (shot : Shot K) (source : Body K) (size : Size K) :
    (w.withShot shot source size).bodies[w.nextBody]? =
      some { shotBody shot source size .zero with velocity := .zero } :=
  Std.ExtTreeMap.getElem?_insert_self

/-- The new body gets the acceleration of a group that there is, and last the velocity of the
shot. -/
theorem bodies_withShot_joined (shot : Shot K) (source : Body K) (group : GroupId)
    (size : Size K) : ∃ acceleration,
      (((w.withShot shot source size).join group w.nextBody).setVelocity w.nextBody
        shot.velocity.toVec).bodies[w.nextBody]? = some (shotBody shot source size acceleration) ∧
      ∀ g, w.Hosts group g → acceleration = g.defaults.acceleration := by
  rw [setVelocity, bodies_modify, if_pos rfl]
  by_cases hgroup : ∃ g, w.Hosts group g
  · obtain ⟨g, hg⟩ := hgroup
    refine ⟨g.defaults.acceleration, ?_, fun g' hg' => ?_⟩
    · rw [(w.grown_withShot shot source size).join_eq hg.getElem?_eq hg.nextBody_not_mem]
      dsimp only
      rw [bodies_modify, if_pos rfl, bodies_withShot_self]
      rfl
    · rw [Option.some.inj (hg.getElem?_eq.symm.trans hg'.getElem?_eq)]
  · obtain ⟨kinematics, hjoin⟩ :=
      (w.withShot shot source size).bodies_join group w.nextBody w.nextBody
    refine ⟨kinematics.elim .zero (·.acceleration), ?_, fun g hg => absurd ⟨g, hg⟩ hgroup⟩
    rw [hjoin, if_pos rfl, bodies_withShot_self]
    cases kinematics <;> rfl

/-- The tag of the new body, which is what the table said before if the shot says nothing. -/
theorem damage_withShot_self (shot : Shot K) (source : Body K) (size : Size K) :
    (w.withShot shot source size).damage[w.nextBody]? = shot.damage.or w.damage[w.nextBody]? := by
  rw [withShot]
  cases shot.damage with
  | none => rfl
  | some damage => exact Std.ExtTreeMap.getElem?_insert_self

/-- No other body is tagged. -/
theorem damage_withShot_of_ne (shot : Shot K) (source : Body K) (size : Size K) {id : BodyId}
    (h : id ≠ w.nextBody) : (w.withShot shot source size).damage[id]? = w.damage[id]? := by
  rw [withShot]
  cases shot.damage with
  | none => rfl
  | some damage =>
    dsimp only [Option.elim_some]
    rw [Std.ExtTreeMap.getElem?_insert, if_neg]
    rw [Std.LawfulEqOrd.compare_eq_iff_eq]
    exact Ne.symm h

/-- A shot joins its group before it gets its velocity. -/
theorem spawnShot_eq (shot : Shot K) {source : BodyId} {b : Body K}
    (hsource : w.bodies[source]? = some b) (group : GroupId) (size : Size K) :
    w.spawnShot shot source group size = some (w.nextBody,
      ((w.withShot shot b size).join group w.nextBody).setVelocity w.nextBody
        shot.velocity.toVec) := by
  rw [spawnShot, hsource, Option.map_some]
  cases hdamage : shot.damage with
  | none => simp only [withShot, hdamage, create, Option.elim_none]
  | some damage =>
    -- the body to be tagged was just created
    have hlive : w.nextBody ∈
        (w.create shot.image (shot.spawnPoint b.position b.half) size).2.bodies :=
      w.mem_bodies_create.2 (.inl rfl)
    have htag := tagDamage_of_mem hlive damage
    rw [create] at htag
    simp only [withShot, hdamage, create, Option.elim_some, htag]

/-- A volley takes no number back. -/
theorem le_nextBody_spawnShots (shots : List (Shot K)) (source : BodyId) (group : GroupId)
    (sizeOf : String → Size K) :
    w.nextBody ≤ (w.spawnShots shots source group sizeOf).2.nextBody := by
  induction shots generalizing w with
  | nil => exact Nat.le_refl _
  | cons shot rest ih =>
    rw [spawnShots]
    cases hsource : w.bodies[source]? with
    | none =>
      rw [spawnShot, hsource]
      exact ih
    | some b =>
      rw [spawnShot_eq shot hsource]
      refine Nat.le_trans ?_ ih
      rw [setVelocity, modify, nextBody_join]
      exact Nat.le_succ _

/-! ## Volleys -/

/-- What the shots make of a world that are fired from a body into a group. -/
structure Spawns (w : World K) (shots : List (Shot K)) (source : Body K) (group : GroupId)
    (sizeOf : String → Size K) (v : World K) : Prop where
  bounds_eq : v.bounds = w.bounds
  nextBody_eq : v.nextBody = w.nextBody + shots.length
  length_groups : v.groups.length = w.groups.length
  /-- If there is the group, the shots stand behind its other members. -/
  groups_eq : ∀ g, w.Hosts group g → v.groups =
    w.groups.set group { g with members := g.members ++ List.range' w.nextBody shots.length }
  /-- Each shot becomes a body, which the group accelerates. It is tagged if the shot says what
  damage it deals. -/
  new : ∀ (i : Nat) shot, shots[i]? = some shot → ∃ b, v.bodies[w.nextBody + i]? = some b ∧
    IsShotOf shot source (sizeOf shot.image) b ∧
    (∀ g, w.Hosts group g → b.acceleration = g.defaults.acceleration) ∧
    v.damage[w.nextBody + i]? = shot.damage.or w.damage[w.nextBody + i]?
  /-- Nothing is written at any other number. -/
  old : ∀ id ∉ List.range' w.nextBody shots.length,
    v.bodies[id]? = w.bodies[id]? ∧ v.damage[id]? = w.damage[id]?

section
variable {v u : World K} {shots later : List (Shot K)} {source : BodyId} {b : Body K}
  {group : GroupId} {g : Group K} {sizeOf : String → Size K}

/-- No shots change nothing. -/
theorem Spawns.nil : w.Spawns [] b group sizeOf w := by
  refine ⟨rfl, rfl, rfl, fun g hg => ?_, nofun, fun _ _ => ⟨rfl, rfl⟩⟩
  obtain ⟨hlt, hget⟩ := List.getElem?_eq_some_iff.1 hg.getElem?_eq
  rw [List.length_nil, List.range'_zero, List.append_nil]
  exact (hget ▸ List.set_getElem_self hlt).symm

/-- The group is there for the next volley, with the shots among its members. -/
theorem Spawns.hosts (h : w.Spawns shots b group sizeOf v) (hg : w.Hosts group g) :
    v.Hosts group { g with members := g.members ++ List.range' w.nextBody shots.length } := by
  refine ⟨?_, fun id hid => ?_⟩
  · rw [h.groups_eq g hg]
    exact List.getElem?_set_self (List.getElem?_eq_some_iff.1 hg.getElem?_eq).1
  · rw [h.nextBody_eq]
    rcases List.mem_append.1 hid with hold | hnew
    · exact Nat.lt_add_right _ (hg.lt_nextBody id hold)
    · exact (List.mem_range'_1.1 hnew).2

/-- What is fired after a volley from the same place is a part of it. -/
theorem Spawns.append (h : w.Spawns shots b group sizeOf v)
    (hlater : v.Spawns later b group sizeOf u) :
    w.Spawns (shots ++ later) b group sizeOf u := by
  have hnumbers : List.range' w.nextBody (shots ++ later).length =
      List.range' w.nextBody shots.length ++ List.range' v.nextBody later.length := by
    rw [List.length_append, h.nextBody_eq, List.range'_append_1]
  refine ⟨?_, ?_, ?_, fun g hg => ?_, fun i shot hi => ?_, fun id hid => ?_⟩
  · exact hlater.bounds_eq.trans h.bounds_eq
  · rw [hlater.nextBody_eq, h.nextBody_eq, List.length_append, Nat.add_assoc]
  · exact hlater.length_groups.trans h.length_groups
  · rw [hlater.groups_eq _ (h.hosts hg), h.groups_eq g hg, List.set_set, hnumbers,
      List.append_assoc]
  · by_cases hlt : i < shots.length
    · -- a shot of the first volley is left alone by the second one
      obtain ⟨new, hnew, hshape, hgroup, htag⟩ :=
        h.new i shot ((List.getElem?_append_left hlt).symm.trans hi)
      have hold := hlater.old (w.nextBody + i) (by
        rw [List.mem_range'_1, h.nextBody_eq]
        omega)
      exact ⟨new, hold.1.trans hnew, hshape, hgroup, hold.2.trans htag⟩
    · have hle := Nat.le_of_not_lt hlt
      obtain ⟨new, hnew, hshape, hgroup, htag⟩ :=
        hlater.new (i - shots.length) shot ((List.getElem?_append_right hle).symm.trans hi)
      have hplace : v.nextBody + (i - shots.length) = w.nextBody + i := by
        rw [h.nextBody_eq, Nat.add_assoc, Nat.add_sub_of_le hle]
      have hold := h.old (w.nextBody + i) (by
        rw [List.mem_range'_1]
        omega)
      rw [hplace] at hnew htag
      rw [hold.2] at htag
      refine ⟨new, hnew, hshape, fun g hg => ?_, htag⟩
      -- the group as the first volley left it still has its kinematics
      rw [hgroup _ (h.hosts hg)]
  · rw [hnumbers, List.mem_append, not_or] at hid
    have hold := h.old id hid.1
    have hlast := hlater.old id hid.2
    exact ⟨hlast.1.trans hold.1, hlast.2.trans hold.2⟩

/-- A shot that is fired is a volley of one. -/
theorem spawns_spawnShot (shot : Shot K) (b : Body K) (group : GroupId)
    (sizeOf : String → Size K) : w.Spawns [shot] b group sizeOf
      (((w.withShot shot b (sizeOf shot.image)).join group w.nextBody).setVelocity w.nextBody
        shot.velocity.toVec) := by
  refine ⟨bounds_join group _, nextBody_join group _, length_groups_join group _, fun g hg => ?_,
    fun i other hi => ?_, fun id hid => ?_⟩
  · rw [setVelocity, modify,
      (w.grown_withShot shot b _).join_eq hg.getElem?_eq hg.nextBody_not_mem]
    rfl
  · obtain ⟨rfl, rfl⟩ : i = 0 ∧ shot = other := by simpa [List.getElem?_singleton] using hi
    obtain ⟨acceleration, hbody, hgroup⟩ :=
      w.bodies_withShot_joined shot b group (sizeOf shot.image)
    refine ⟨_, hbody, isShotOf_shotBody .., hgroup, ?_⟩
    rw [setVelocity, modify, damage_join]
    exact w.damage_withShot_self shot b _
  · rw [List.length_singleton, List.range'_one, List.mem_singleton] at hid
    obtain ⟨kinematics, hjoin⟩ :=
      (w.withShot shot b (sizeOf shot.image)).bodies_join group w.nextBody id
    refine ⟨?_, ?_⟩
    · rw [setVelocity, bodies_modify, if_neg (Ne.symm hid), hjoin, if_neg (Ne.symm hid)]
      exact w.bodies_create _ _ _ hid
    · rw [setVelocity, modify, damage_join]
      exact w.damage_withShot_of_ne shot b _ hid

/-- The shots of a volley from a live body get the next numbers in their order. -/
theorem spawns_spawnShots {source : BodyId} (hsource : w.bodies[source]? = some b)
    (hlt : source < w.nextBody) (shots : List (Shot K)) (group : GroupId)
    (sizeOf : String → Size K) :
    (w.spawnShots shots source group sizeOf).1 = List.range' w.nextBody shots.length ∧
    w.Spawns shots b group sizeOf (w.spawnShots shots source group sizeOf).2 := by
  induction shots generalizing w with
  | nil => exact ⟨rfl, .nil⟩
  | cons shot rest ih =>
    have hfirst := w.spawns_spawnShot shot b group sizeOf
    have hspawn := spawnShot_eq shot hsource group (sizeOf shot.image)
    generalize (((w.withShot shot b (sizeOf shot.image)).join group w.nextBody).setVelocity
      w.nextBody shot.velocity.toVec) = v at hfirst hspawn
    have hnext : v.nextBody = w.nextBody + 1 := hfirst.nextBody_eq
    -- the source is where it was, since the new body has another number
    have hsource' : v.bodies[source]? = some b := by
      refine (hfirst.old source ?_).1.trans hsource
      rw [List.mem_range'_1]
      exact fun hin => Nat.not_lt_of_le hin.1 hlt
    obtain ⟨hids, hrest⟩ := ih hsource' (hnext ▸ Nat.lt_succ_of_lt hlt)
    rw [spawnShots, hspawn]
    refine ⟨?_, hfirst.append hrest⟩
    rw [List.length_cons, List.range'_succ, ← hnext, ← hids]

/-- The shots are as many members more of a group that there is. -/
theorem Spawns.gains (h : w.Spawns shots b group sizeOf v) (hg : w.Hosts group g) :
    w.Gains group shots.length v := by
  refine ⟨h.nextBody_eq, fun other => ?_, fun {id} => ?_⟩
  · rw [w.members_of_groups_set hg.getElem?_eq (h.groups_eq g hg)]
    split
    · next heq => rw [← heq, members_of_getElem? hg.getElem?_eq]
    · rfl
  · by_cases hid : id ∈ List.range' w.nextBody shots.length
    · obtain ⟨hle, hlt⟩ := List.mem_range'_1.1 hid
      obtain ⟨i, rfl⟩ := Nat.exists_eq_add_of_le hle
      have hi := Nat.lt_of_add_lt_add_left hlt
      obtain ⟨new, hnew, -⟩ := h.new i _ (List.getElem?_eq_getElem hi)
      exact iff_of_true (Std.ExtTreeMap.mem_iff_isSome_getElem?.2 (Option.isSome_of_eq_some hnew))
        (.inr hid)
    · rw [or_iff_left hid, Std.ExtTreeMap.mem_iff_isSome_getElem?, (h.old id hid).1,
        Std.ExtTreeMap.mem_iff_isSome_getElem?]

end

end Barrage.World
