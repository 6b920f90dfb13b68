import Barrage.Actor.Harm
import Barrage.Number.Binary64
import Barrage.Proofs.World.Roster
import Barrage.Proofs.World.Volley

/-!
# Handles

Whoever holds a world can do what he likes with it (`World.Op`), with any handles: those of live
bodies, of bodies that are gone and of bodies that never were. The tables of the world agree all the
same (`World.Sound`): its groups and its damage table speak of live bodies only, and no body is in a
group twice.

The numbers of bodies are given out in order, so what is live after an operation was live before or
has a number that had not been given out (`World.Follows`). Hence a body that is gone stays gone
(`World.Follows.gone`).
-/

namespace Barrage.World

variable {K : Type}

/-- The tables of a world agree: nothing but live bodies is listed, in no group twice, and only
numbers that were given out are in use. -/
structure Sound (w : World K) : Prop where
  nodup_members : ∀ group, (w.members group).Nodup
  live_of_member : ∀ {group id}, id ∈ w.members group → id ∈ w.bodies
  live_of_damage : ∀ {id}, id ∈ w.damage → id ∈ w.bodies
  lt_nextBody : ∀ {id}, id ∈ w.bodies → id < w.nextBody
  lt_groups : ∀ {group id}, id ∈ w.members group → group < w.groups.length

/-- No table of a world knows a body. -/
structure Gone (w : World K) (id : BodyId) : Prop where
  bodies : id ∉ w.bodies
  members : ∀ group, id ∉ w.members group
  damage : id ∉ w.damage

/-- Only groups that there are have members. -/
theorem lt_length_of_mem_members {w : World K} {group : GroupId} {id : BodyId}
    (h : id ∈ w.members group) : group < w.groups.length := by
  by_contra hlt
  rw [members, List.getElem?_eq_none (Nat.le_of_not_lt hlt)] at h
  cases h

/-- Whatever is not live is gone. -/
theorem Sound.gone {w : World K} (h : w.Sound) {id : BodyId} (hid : id ∉ w.bodies) : w.Gone id :=
  ⟨hid, fun _ hin => hid (h.live_of_member hin), fun hin => hid (h.live_of_damage hin)⟩

/-- In a sound world no number to come is in a group. -/
theorem Sound.hosts {w : World K} (h : w.Sound) {group : GroupId} {g : Group K}
    (hgroup : w.groups[group]? = some g) : w.Hosts group g := by
  refine ⟨hgroup, fun id hid => ?_⟩
  rw [← members_of_getElem? hgroup] at hid
  exact h.lt_nextBody (h.live_of_member hid)

/-- The tables of an empty world list nothing. -/
theorem sound_empty (bounds : Rect K) : (empty bounds).Sound := by
  have hbodies : ∀ {id}, id ∉ (empty bounds).bodies := Std.ExtTreeMap.not_mem_empty
  have hmembers : ∀ group, (empty bounds).members group = [] := fun _ => rfl
  have hdamage : ∀ {id}, id ∉ (empty bounds).damage := Std.ExtTreeMap.not_mem_empty
  refine ⟨?_, ?_, fun h => absurd h hdamage, fun h => absurd h hbodies, ?_⟩
  · simp [hmembers]
  · simp [hmembers]
  · simp [hmembers]

/-! ## What operations make of handles -/

/-- A world that operations have made of another one. -/
structure Follows (w v : World K) : Prop where
  sound : w.Sound → v.Sound
  nextBody_le : w.nextBody ≤ v.nextBody
  old_or_new : ∀ {id}, id ∈ v.bodies → id ∈ w.bodies ∨ w.nextBody ≤ id

section
variable {u v w : World K}

/-- A world follows itself. -/
theorem Follows.refl (w : World K) : w.Follows w := ⟨id, Nat.le_refl _, .inl⟩

/-- A world that follows a later one follows the first one as well. -/
theorem Follows.trans (h : w.Follows v) (hlater : v.Follows u) : w.Follows u := by
  refine ⟨hlater.sound ∘ h.sound, Nat.le_trans h.nextBody_le hlater.nextBody_le, fun hid => ?_⟩
  rcases hlater.old_or_new hid with hold | hnew
  · exact h.old_or_new hold
  · exact .inr (Nat.le_trans h.nextBody_le hnew)

/-- A body whose number was given out and that is gone stays gone. -/
theorem Follows.gone (h : w.Follows v) (hw : w.Sound) {id : BodyId} (hlt : id < w.nextBody)
    (hid : id ∉ w.bodies) : v.Gone id := by
  refine (h.sound hw).gone fun hin => ?_
  rcases h.old_or_new hin with hold | hnew
  · exact hid hold
  · exact Nat.not_le_of_lt hlt hnew

/-- Bodies may be changed, as long as none of them comes or goes. -/
theorem Follows.of_bodies {bodies : Std.ExtTreeMap BodyId (Body K)}
    (h : ∀ {id}, id ∈ bodies ↔ id ∈ w.bodies) : w.Follows { w with bodies } where
  sound hw := ⟨hw.nodup_members, fun hin => h.2 (hw.live_of_member hin),
    fun hin => h.2 (hw.live_of_damage hin), fun hin => hw.lt_nextBody (h.1 hin), hw.lt_groups⟩
  nextBody_le := Nat.le_refl _
  old_or_new hid := .inl (h.1 hid)

variable (w)

/-- A world in which a body was changed follows the one before. -/
theorem follows_modify (id : BodyId) (change : Body K → Body K) :
    w.Follows (w.modify id change) := .of_bodies w.mem_bodies_modify

/-- A world that has moved on follows the one before. -/
theorem follows_step [Scalar K] (dt : K) : w.Follows (w.step dt) := .of_bodies w.mem_bodies_step

/-- A world with a new body follows the one before. -/
theorem follows_create [Scalar K] (sprite : String) (position : Vec K) (size : Size K) :
    w.Follows (w.create sprite position size).2 := by
  have hmem : ∀ {id}, id ∈ (w.create sprite position size).2.bodies ↔
      id = w.nextBody ∨ id ∈ w.bodies := w.mem_bodies_create
  refine ⟨fun hw => ?_, Nat.le_succ _, fun hid => ?_⟩
  · refine ⟨hw.nodup_members, fun hin => hmem.2 (.inr (hw.live_of_member hin)),
      fun hin => hmem.2 (.inr (hw.live_of_damage hin)), fun hin => ?_, hw.lt_groups⟩
    rcases hmem.1 hin with rfl | hin
    · exact Nat.lt_succ_self _
    · exact Nat.lt_succ_of_lt (hw.lt_nextBody hin)
  · exact (hmem.1 hid).symm.imp_right fun heq => Nat.le_of_eq heq.symm

/-- A new group is empty. -/
theorem members_createGroup (defaults : Kinematics K) (group : GroupId) :
    (w.createGroup defaults).2.members group = w.members group := by
  rw [members, members, createGroup, List.getElem?_append]
  split
  · rfl
  · next hlt =>
    rw [List.getElem?_eq_none (Nat.le_of_not_lt hlt)]
    cases group - w.groups.length <;> rfl

/-- A world with a new group follows the one before. -/
theorem follows_createGroup (defaults : Kinematics K) : w.Follows (w.createGroup defaults).2 := by
  have hmembers := w.members_createGroup defaults
  refine ⟨fun hw => ⟨?_, ?_, hw.live_of_damage, hw.lt_nextBody, lt_length_of_mem_members⟩,
    Nat.le_refl _, .inl⟩
  · intro group
    rw [hmembers]
    exact hw.nodup_members group
  · intro group id hin
    rw [hmembers] at hin
    exact hw.live_of_member hin

/-- A world in which a body was tagged follows the one before. -/
theorem follows_tagDamage (id : BodyId) (damage : Nat) : w.Follows (w.tagDamage id damage) := by
  rw [tagDamage]
  split
  · next hlive =>
    refine ⟨fun hw => ?_, Nat.le_refl _, .inl⟩
    refine ⟨hw.nodup_members, hw.live_of_member, fun hin => ?_, hw.lt_nextBody, hw.lt_groups⟩
    rcases Std.ExtTreeMap.mem_insert.1 hin with heq | hin
    · rw [← Std.LawfulEqOrd.eq_of_compare heq]
      exact Std.ExtTreeMap.contains_iff_mem.1 hlive
    · exact hw.live_of_damage hin
  · exact .refl w

/-- To join a group brings no body and takes none away. -/
theorem mem_bodies_join {group : GroupId} {id other : BodyId} :
    other ∈ (w.join group id).bodies ↔ other ∈ w.bodies := by
  obtain ⟨kinematics, hjoin⟩ := w.bodies_join group id other
  rw [Std.ExtTreeMap.mem_iff_isSome_getElem?, hjoin, Std.ExtTreeMap.mem_iff_isSome_getElem?]
  split
  · rw [Option.isSome_map]
  · rfl

/-- A world in which a body has joined a group follows the one before. -/
theorem follows_join (group : GroupId) (id : BodyId) : w.Follows (w.join group id) := by
  obtain hsame | ⟨g, hgroup, hlive, hnot, hjoin⟩ := w.join_cases group id
  · rw [hsame]
    exact .refl w
  · have hmembers (other : GroupId) : (w.join group id).members other =
        if group = other then g.members ++ [id] else w.members other := by
      rw [hjoin, w.members_of_groups_set hgroup rfl other]
    have hg := members_of_getElem? hgroup
    refine ⟨fun hw => ⟨?_, ?_, ?_, ?_, lt_length_of_mem_members⟩,
      Nat.le_of_eq (nextBody_join group id).symm, fun hin => .inl (w.mem_bodies_join.1 hin)⟩
    · intro other
      rw [hmembers]
      split
      · rw [← List.concat_eq_append]
        exact (hg ▸ hw.nodup_members group).concat hnot
      · exact hw.nodup_members other
    · intro other member hin
      rw [hmembers] at hin
      rw [mem_bodies_join]
      split at hin
      · rcases List.mem_append.1 hin with hin | hin
        · rw [← hg] at hin
          exact hw.live_of_member hin
        · rw [List.mem_singleton.1 hin]
          exact hlive
      · exact hw.live_of_member hin
    · intro tagged hin
      rw [damage_join] at hin
      exact w.mem_bodies_join.2 (hw.live_of_damage hin)
    · intro other hin
      rw [nextBody_join]
      exact hw.lt_nextBody (w.mem_bodies_join.1 hin)

/-- A world in which a body was destroyed follows the one before. -/
theorem follows_destroy (id : BodyId) : w.Follows (w.destroy id) := by
  by_cases h : id ∈ w.bodies
  · have hmembers := fun group => w.members_destroy h group
    refine ⟨fun hw => ⟨?_, ?_, ?_, ?_, lt_length_of_mem_members⟩,
      Nat.le_of_eq (w.nextBody_destroy id).symm,
      fun hid => .inl ((w.mem_bodies_destroy).1 hid).2⟩
    · intro group
      rw [hmembers]
      exact (hw.nodup_members group).filter _
    · intro group other hin
      rw [hmembers, List.mem_filter, bne_iff_ne] at hin
      exact (w.mem_bodies_destroy).2 ⟨hin.2, hw.live_of_member hin.1⟩
    · intro other hin
      refine (w.mem_bodies_destroy).2 ⟨?_, hw.live_of_damage (w.mem_damage_destroy hin)⟩
      rintro rfl
      exact w.not_mem_damage_destroy h hin
    · intro other hin
      rw [nextBody_destroy]
      exact hw.lt_nextBody ((w.mem_bodies_destroy).1 hin).2
  · rw [w.destroy_of_not_mem h]
    exact .refl w

/-- A world in which several bodies were destroyed follows the one before. -/
theorem follows_foldl_destroy (ids : List BodyId) : w.Follows (ids.foldl destroy w) := by
  induction ids generalizing w with
  | nil => exact .refl w
  | cons id rest ih => exact (w.follows_destroy id).trans (ih (w.destroy id))

/-- A world in which a shot was fired follows the one before. -/
theorem follows_spawnShot [Scalar K] (shot : Shot K) (source : BodyId) (group : GroupId)
    (size : Size K) {id : BodyId} {v : World K}
    (h : w.spawnShot shot source group size = some (id, v)) : w.Follows v := by
  obtain ⟨b, -, hshot⟩ := Option.map_eq_some_iff.1 h
  have hcreate := w.follows_create shot.image (shot.spawnPoint b.position b.half) size
  cases hdamage : shot.damage with
  | none =>
    simp only [hdamage, Prod.mk.injEq] at hshot
    obtain ⟨-, rfl⟩ := hshot
    exact (hcreate.trans (follows_join _ group _)).trans (follows_modify _ _ _)
  | some damage =>
    simp only [hdamage, Prod.mk.injEq] at hshot
    obtain ⟨-, rfl⟩ := hshot
    exact ((hcreate.trans (follows_tagDamage _ _ damage)).trans (follows_join _ group _)).trans
      (follows_modify _ _ _)

end

/-! ## Destruction -/

section
variable {w : World K}

/-- What is not listed cannot be struck off. -/
theorem erase_of_not_mem {β : Type} {table : Std.ExtTreeMap BodyId β} {id : BodyId}
    (h : id ∉ table) : table.erase id = table := by
  refine Std.ExtTreeMap.ext_getElem? fun other => ?_
  rw [Std.ExtTreeMap.getElem?_erase]
  split
  · next heq =>
    rw [← Std.LawfulEqOrd.eq_of_compare heq, Std.ExtTreeMap.getElem?_eq_none h]
  · rfl

/-- The order in which entries are erased does not matter. -/
theorem erase_comm {β : Type} (table : Std.ExtTreeMap BodyId β) (a b : BodyId) :
    (table.erase a).erase b = (table.erase b).erase a := by
  refine Std.ExtTreeMap.ext_getElem? fun other => ?_
  simp only [Std.ExtTreeMap.getElem?_erase]
  split <;> split <;> rfl

/-- In a sound world a body that is destroyed is struck off all tables, and nothing else happens. -/
theorem Sound.destroy_eq (h : w.Sound) (id : BodyId) : w.destroy id =
    { w with
      bodies := w.bodies.erase id
      damage := w.damage.erase id
      groups := w.groups.map fun g => { g with members := g.members.filter (· != id) } } := by
  by_cases hid : id ∈ w.bodies
  · rw [destroy, if_pos (Std.ExtTreeMap.contains_iff_mem.2 hid)]
  · -- nobody knows the body, so there is nothing to strike off
    have hgone := h.gone hid
    have hgroups : w.groups.map (fun g => { g with members := g.members.filter (· != id) }) =
        w.groups := by
      refine (List.map_congr_left fun g hg => ?_).trans (List.map_id _)
      obtain ⟨group, hgroup⟩ := List.mem_iff_getElem?.1 hg
      have hnot := hgone.members group
      rw [members_of_getElem? hgroup] at hnot
      have hall : g.members.filter (· != id) = g.members := by
        refine List.filter_eq_self.2 fun other hother => bne_iff_ne.2 ?_
        rintro rfl
        exact hnot hother
      rw [hall]
      rfl
    rw [w.destroy_of_not_mem hid, erase_of_not_mem hid, erase_of_not_mem hgone.damage, hgroups]

/-- So the order in which bodies are destroyed does not matter. -/
theorem Sound.destroy_comm (h : w.Sound) (a b : BodyId) :
    (w.destroy a).destroy b = (w.destroy b).destroy a := by
  rw [((w.follows_destroy a).sound h).destroy_eq, ((w.follows_destroy b).sound h).destroy_eq,
    h.destroy_eq a, h.destroy_eq b]
  dsimp only
  rw [erase_comm w.bodies, erase_comm w.damage, List.map_map, List.map_map]
  congr 2
  refine funext fun g => ?_
  simp only [Function.comp_apply, List.filter_filter, Bool.and_comm]

end

/-! ## Any use of a world -/

/-- What the holder of a world can do with it. -/
inductive Op (K : Type) where
  | create (sprite : String) (position : Vec K) (size : Size K)
  | createGroup (defaults : Kinematics K)
  | join (group : GroupId) (id : BodyId)
  | destroy (id : BodyId)
  | tagDamage (id : BodyId) (damage : Nat)
  | setVelocity (id : BodyId) (velocity : Vec K)
  | setAcceleration (id : BodyId) (acceleration : Vec K)
  /-- Any change of a body. -/
  | edit (id : BodyId) (change : Body K → Body K)
  | step (dt : K)
  | spawnShot (shot : Shot K) (source : BodyId) (group : GroupId) (size : Size K)
  | sweep (group : GroupId) (viewport : Size K)

variable [Scalar K]

/-- Does one thing. -/
def apply (w : World K) : Op K → World K
  | .create sprite position size => (w.create sprite position size).2
  | .createGroup defaults => (w.createGroup defaults).2
  | .join group id => w.join group id
  | .destroy id => w.destroy id
  | .tagDamage id damage => w.tagDamage id damage
  | .setVelocity id velocity => w.setVelocity id velocity
  | .setAcceleration id acceleration => w.setAcceleration id acceleration
  | .edit id change => w.modify id change
  | .step dt => w.step dt
  | .spawnShot shot source group size => ((w.spawnShot shot source group size).map Prod.snd).getD w
  | .sweep group viewport => w.sweep group viewport

/-- Does several things, one after the other. -/
def applyAll (w : World K) (ops : List (Op K)) : World K := ops.foldl apply w

/-- Whatever operation is carried out, the world follows the one before. -/
theorem follows_apply (w : World K) (op : Op K) : w.Follows (w.apply op) := by
  cases op with
  | create sprite position size => exact w.follows_create sprite position size
  | createGroup defaults => exact w.follows_createGroup defaults
  | join group id => exact w.follows_join group id
  | destroy id => exact w.follows_destroy id
  | tagDamage id damage => exact w.follows_tagDamage id damage
  | setVelocity id velocity => exact w.follows_modify id _
  | setAcceleration id acceleration => exact w.follows_modify id _
  | edit id change => exact w.follows_modify id change
  | step dt => exact w.follows_step dt
  | spawnShot shot source group size =>
    rw [apply]
    cases hshot : w.spawnShot shot source group size with
    | none => exact .refl w
    | some fired => exact w.follows_spawnShot shot source group size hshot
  | sweep group viewport => exact w.follows_foldl_destroy _

/-- After any operations a world follows the one before them. -/
theorem follows_applyAll (w : World K) (ops : List (Op K)) : w.Follows (w.applyAll ops) := by
  induction ops generalizing w with
  | nil => exact .refl w
  | cons op rest ih => exact (w.follows_apply op).trans (ih (w.apply op))

/-- Operations that follow others are carried out after them. -/
theorem applyAll_append (w : World K) (ops later : List (Op K)) :
    w.applyAll (ops ++ later) = (w.applyAll ops).applyAll later := List.foldl_append

/-- What holds of every world that some use of a new one leads to. -/
structure HandlesKept (bounds : Rect K) (ops : List (Op K)) (w : World K) : Prop where
  sound : w.Sound
  /-- A body that was live once and is not live any more stays unknown to all tables. -/
  gone : ∀ {before between after : List (Op K)} {id : BodyId}, ops = before ++ between ++ after →
    id ∈ ((empty bounds).applyAll before).bodies →
    id ∉ ((empty bounds).applyAll (before ++ between)).bodies → w.Gone id
  /-- To destroy a body, live or not, strikes it off all tables and changes nothing else. -/
  destroy_eq : ∀ id, w.destroy id =
    { w with
      bodies := w.bodies.erase id
      damage := w.damage.erase id
      groups := w.groups.map fun g => { g with members := g.members.filter (· != id) } }
  destroy_comm : ∀ a b, (w.destroy a).destroy b = (w.destroy b).destroy a

/-- Whatever is done with a world and with whatever handles, its tables agree, and what is gone does
not come back. -/
theorem handlesKept_applyAll (bounds : Rect K) (ops : List (Op K)) :
    HandlesKept bounds ops ((empty bounds).applyAll ops) := by
  have hsound : ∀ ops, ((empty bounds).applyAll ops).Sound := fun ops =>
    (follows_applyAll _ ops).sound (sound_empty bounds)
  refine ⟨hsound ops, ?_, (hsound ops).destroy_eq, (hsound ops).destroy_comm⟩
  rintro before between after id rfl hlive hdead
  have hlt := (hsound before).lt_nextBody hlive
  rw [applyAll_append] at hdead ⊢
  rw [applyAll_append]
  have hbetween := follows_applyAll ((empty bounds).applyAll before) between
  refine (follows_applyAll _ after).gone ?_ ?_ hdead
  · exact hbetween.sound (hsound before)
  · exact Nat.lt_of_lt_of_le hlt hbetween.nextBody_le

/-- A handle that is out of date neither joins a group nor is tagged. -/
example :
    let ops : List (Op Binary64) := [.createGroup ⟨.zero, .zero⟩, .create "dot" .zero ⟨0, 0⟩,
      .join 0 0, .destroy 0, .create "dot" .zero ⟨0, 0⟩, .join 0 1, .join 0 0, .tagDamage 0 5]
    let w := (empty (.ofCorner 0 0 0 0)).applyAll ops
    (w.members 0, w.damage.keys, w.bodies.keys) = ([1], [], [1]) := by
  decide +kernel

end Barrage.World
