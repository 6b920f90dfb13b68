import Barrage.Number.Binary64
import Barrage.Proofs.World.Handles

/-!
# What a volley adds, and nothing else

A volley is fired from a body that stays where it is, although it may be a member of the group that
the shots join. So each shot appears where the body was before the first one, and the volley adds
them all at the end of the group (`World.Fired`). This is what `World.Spawns` says of a world whose
tables agree: the numbers of the shots are unknown to all of them, so a shot is tagged only if it
says what damage it deals. From a body that is gone nothing is fired (`World.spawnShots_of_gone`).
-/

namespace Barrage.World

variable {K : Type} [Scalar K]

/-- What a volley makes of a world, with the numbers of its shots. -/
structure Fired (w : World K) (shots : List (Shot K)) (source : Body K) (group : GroupId)
    (g : Group K) (sizeOf : String → Size K) (ids : List BodyId) (v : World K) : Prop where
  /-- The shots get the next numbers in their order. -/
  ids_eq : ids = List.range' w.nextBody shots.length
  /-- Nothing was known of these numbers. -/
  fresh : ∀ id ∈ ids, w.Gone id
  /-- The shots stand behind the other members of the group. The other groups are as they were, and
  so is what the group gives to its members. -/
  groups_eq : v.groups = w.groups.set group { g with members := g.members ++ ids }
  /-- Each shot is a body at its place next to the source, with the velocity of its own and the
  acceleration of the group, and it is tagged if it says what damage it deals. -/
  new : ∀ (i : Nat) (shot : Shot K) id, shots[i]? = some shot → ids[i]? = some id →
    ∃ b, v.bodies[id]? = some b ∧ IsShotOf shot source (sizeOf shot.image) b ∧
      b.acceleration = g.defaults.acceleration ∧ v.damage[id]? = shot.damage
  /-- The other bodies are as they were, and so are their tags. -/
  old : ∀ id, id ∉ ids → v.bodies[id]? = w.bodies[id]? ∧ v.damage[id]? = w.damage[id]?
  bounds_eq : v.bounds = w.bounds
  nextBody_eq : v.nextBody = w.nextBody + shots.length

variable {w : World K} {source : BodyId} {b : Body K} {group : GroupId} {g : Group K}

omit [Scalar K] in
/-- A number that was not given out is unknown to all tables. -/
theorem Sound.gone_of_le (h : w.Sound) {id : BodyId} (hle : w.nextBody ≤ id) : w.Gone id :=
  h.gone fun hin => Nat.not_le_of_lt (h.lt_nextBody hin) hle

/-- A volley from a live body of a sound world adds a body for each of its shots. -/
theorem Sound.fired_spawnShots (h : w.Sound) (hsource : w.bodies[source]? = some b)
    (hgroup : w.groups[group]? = some g) (shots : List (Shot K)) (sizeOf : String → Size K) :
    w.Fired shots b group g sizeOf (w.spawnShots shots source group sizeOf).1
      (w.spawnShots shots source group sizeOf).2 := by
  have hlt : source < w.nextBody := h.lt_nextBody
    (Std.ExtTreeMap.mem_iff_isSome_getElem?.2 (Option.isSome_of_eq_some hsource))
  have hhosts := h.hosts hgroup
  obtain ⟨hids, hspawns⟩ := spawns_spawnShots hsource hlt shots group sizeOf
  have hfresh : ∀ id ∈ List.range' w.nextBody shots.length, w.Gone id := fun id hid =>
    h.gone_of_le (List.mem_range'_1.1 hid).1
  rw [hids]
  refine ⟨rfl, hfresh, hspawns.groups_eq g hhosts, fun i shot id hi hid => ?_, hspawns.old,
    hspawns.bounds_eq, hspawns.nextBody_eq⟩
  have hplace : id = w.nextBody + i := by
    obtain ⟨hi', heq⟩ := List.getElem?_eq_some_iff.1 hid
    rw [← heq, List.getElem_range', Nat.one_mul]
  obtain ⟨new, hnew, hshape, hacceleration, htag⟩ := hspawns.new i shot hi
  rw [Std.ExtTreeMap.getElem?_eq_none (hfresh _ (hplace ▸ List.mem_of_getElem? hid)).damage,
    Option.or_none] at htag
  rw [hplace]
  exact ⟨new, hnew, hshape, hacceleration g hhosts, htag⟩

/-- Nothing is fired from a body that is gone. -/
theorem spawnShots_of_gone (hgone : source ∉ w.bodies) (shots : List (Shot K)) (group : GroupId)
    (sizeOf : String → Size K) : w.spawnShots shots source group sizeOf = ([], w) := by
  induction shots with
  | nil => rfl
  | cons shot rest ih =>
    rw [spawnShots, spawnShot, Std.ExtTreeMap.getElem?_eq_none hgone]
    exact ih

/-- What becomes of a world when a volley is fired. -/
structure VolleyLaw (w : World K) (shots : List (Shot K)) (source : BodyId) (group : GroupId)
    (sizeOf : String → Size K) : Prop where
  /-- From a live body into a group that there is, the shots are fired, and nothing else changes. -/
  fired : ∀ b g, w.bodies[source]? = some b → w.groups[group]? = some g →
    w.Fired shots b group g sizeOf (w.spawnShots shots source group sizeOf).1
      (w.spawnShots shots source group sizeOf).2
  /-- From a body that is gone nothing is fired, and nothing changes. -/
  gone : source ∉ w.bodies → w.spawnShots shots source group sizeOf = ([], w)

/-- Whatever was done with a world before, a volley adds its shots and leaves the rest alone. -/
theorem volleyLaw_applyAll (bounds : Rect K) (ops : List (Op K)) (shots : List (Shot K))
    (source : BodyId) (group : GroupId) (sizeOf : String → Size K) :
    ((empty bounds).applyAll ops).VolleyLaw shots source group sizeOf where
  fired _ _ hsource hgroup :=
    ((follows_applyAll _ ops).sound (sound_empty bounds)).fired_spawnShots hsource hgroup shots
      sizeOf
  gone hgone := spawnShots_of_gone hgone shots group sizeOf

/-- A boss of six by four fires a tagged shot below its lower edge and another one beside its right
edge, into the group that it is a member of itself. The group gives the shots an acceleration but no
velocity. -/
theorem volleyLaw_boss :
    let vec (x y : Nat) : Vec Binary64 := ⟨.ofNat x, .ofNat y⟩
    let ops : List (Op Binary64) := [.createGroup ⟨vec 2 2, vec 3 3⟩,
      .create "boss" (vec 10 20) ⟨.ofNat 6, .ofNat 4⟩, .join 0 0]
    let w := (empty (.ofCorner 0 0 0 0)).applyAll ops
    let shots : List (Shot Binary64) :=
      [⟨"bolt", vec 0 1, .bottom, some 4, .components (.ofNat 2) 0⟩,
        ⟨"pellet", vec 1 5, .right, none, .components (.ofNat 3) 0⟩]
    let sizeOf (_ : String) : Size Binary64 := ⟨.ofNat 2, .ofNat 2⟩
    let fired := w.spawnShots shots 0 0 sizeOf
    ((w.bodies[0]?.isSome, w.groups[0]?.isSome) = (true, true) ∧
      (fired.1, fired.2.members 0, fired.2.damage.toList) = ([1, 2], [0, 1, 2], [(1, 4)]) ∧
      fired.2.bodies[1]? = some ⟨"bolt", vec 10 23, vec 1 1, vec 2 0, vec 3 3, false⟩ ∧
      fired.2.bodies[2]? = some ⟨"pellet", vec 14 25, vec 1 1, vec 3 0, vec 3 3, false⟩) ∧
      w.VolleyLaw shots 0 0 sizeOf := by
  intro vec ops w shots sizeOf fired
  exact ⟨by decide +kernel, volleyLaw_applyAll _ ops shots 0 0 sizeOf⟩

end Barrage.World
