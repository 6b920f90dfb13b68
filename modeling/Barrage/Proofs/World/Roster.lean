import Mathlib.Data.List.Nodup
import Mathlib.Data.List.Perm.Subperm
import Barrage.World.Basic

/-!
# Who is in the groups of a world

The roster of a world are the members of its groups, group by group. A world is enrolled when its
roster lists the live bodies, each of them once (`World.Enrolled`). Then a body is in one group only
(`Enrolled.group_unique`), and there are as many live bodies as the groups have members
(`Enrolled.size_bodies`).

A world stays enrolled when bodies are changed but none comes or goes (`Enrolled.of_bodies`), and
when a body is destroyed (`Enrolled.destroy`). A body that was created is in no group at first
(`World.Grown`), and the world is enrolled again once the body has joined one (`Enrolled.join`).

What comes and goes is counted group by group: new members stand behind the others (`World.Gains`),
and those that stay when some are destroyed keep their order (`World.Loses`).
-/

namespace Barrage.World

variable {K : Type}

/-- The members of all groups, group by group. -/
def roster (w : World K) : List BodyId := w.groups.flatMap (·.members)

/-! ## What the operations do -/

section
variable (w : World K)

/-- The members of a group that is there are those of its entry. -/
theorem members_of_getElem? {w : World K} {group : GroupId} {g : Group K}
    (h : w.groups[group]? = some g) : w.members group = g.members := by
  rw [members, h]
  rfl

/-- The roster lists the members of the groups. -/
theorem mem_roster_iff {w : World K} {id : BodyId} :
    id ∈ w.roster ↔ ∃ group, id ∈ w.members group := by
  rw [roster, List.mem_flatMap]
  constructor
  · rintro ⟨g, hg, hid⟩
    obtain ⟨group, hgroup⟩ := List.mem_iff_getElem?.1 hg
    exact ⟨group, by rw [members_of_getElem? hgroup]; exact hid⟩
  · rintro ⟨group, hid⟩
    cases hgroup : w.groups[group]? with
    | none =>
      rw [members, hgroup] at hid
      cases hid
    | some g =>
      rw [members_of_getElem? hgroup] at hid
      exact ⟨g, List.mem_of_getElem? hgroup, hid⟩

/-- A change of a body takes no body away. -/
theorem mem_bodies_modify {id other : BodyId} {change : Body K → Body K} :
    other ∈ (w.modify id change).bodies ↔ other ∈ w.bodies := Std.ExtTreeMap.mem_modify

/-- A step takes no body away. -/
theorem mem_bodies_step [Scalar K] {dt : K} {other : BodyId} :
    other ∈ (w.step dt).bodies ↔ other ∈ w.bodies := Std.ExtTreeMap.mem_map

/-- Creation adds one body. -/
theorem mem_bodies_create [Scalar K] {sprite : String} {position : Vec K} {size : Size K}
    {other : BodyId} : other ∈ (w.create sprite position size).2.bodies ↔
      other = w.nextBody ∨ other ∈ w.bodies := by
  rw [create, Std.ExtTreeMap.mem_insert, Std.LawfulEqOrd.compare_eq_iff_eq, eq_comm]

/-- Destruction takes one body away. -/
theorem mem_bodies_destroy {id other : BodyId} :
    other ∈ (w.destroy id).bodies ↔ other ≠ id ∧ other ∈ w.bodies := by
  rw [Std.ExtTreeMap.mem_iff_isSome_getElem?, bodies_destroy,
    Std.ExtTreeMap.mem_iff_isSome_getElem?]
  by_cases h : id = other
  · simp [h]
  · simp [h, Ne.symm h]

/-- Several destructions take several bodies away. -/
theorem mem_bodies_foldl_destroy {ids : List BodyId} {other : BodyId} :
    other ∈ (ids.foldl destroy w).bodies ↔ other ∉ ids ∧ other ∈ w.bodies := by
  induction ids generalizing w with
  | nil => simp
  | cons id rest ih =>
    rw [List.foldl_cons, ih, mem_bodies_destroy, List.mem_cons, not_or, ← and_assoc,
      and_comm (a := other ∉ rest)]

/-- The other bodies stay as they are. -/
theorem bodies_foldl_destroy {ids : List BodyId} {other : BodyId} (h : other ∉ ids) :
    (ids.foldl destroy w).bodies[other]? = w.bodies[other]? := by
  induction ids generalizing w with
  | nil => rfl
  | cons id rest ih =>
    rw [List.mem_cons, not_or] at h
    rw [List.foldl_cons, ih (w.destroy id) h.2, bodies_destroy, if_neg (Ne.symm h.1)]

/-- A body that is gone cannot be destroyed. -/
theorem destroy_of_not_mem {id : BodyId} (h : id ∉ w.bodies) : w.destroy id = w := by
  rw [destroy, if_neg (mt Std.ExtTreeMap.contains_iff_mem.1 h)]

/-- A destruction takes no number back. -/
theorem nextBody_destroy (id : BodyId) : (w.destroy id).nextBody = w.nextBody := by
  rw [destroy]
  split <;> rfl

/-- Several destructions take no number back. -/
theorem nextBody_foldl_destroy {w : World K} (ids : List BodyId) :
    (ids.foldl destroy w).nextBody = w.nextBody := by
  induction ids generalizing w with
  | nil => rfl
  | cons id rest ih => rw [List.foldl_cons, ih, nextBody_destroy]

/-- Destruction tags no body. -/
theorem mem_damage_destroy {id other : BodyId} (h : other ∈ (w.destroy id).damage) :
    other ∈ w.damage := by
  rw [destroy] at h
  split at h
  · exact Std.ExtTreeMap.mem_of_mem_erase h
  · exact h

/-- A body that is destroyed loses its tag. -/
theorem not_mem_damage_destroy {id : BodyId} (h : id ∈ w.bodies) : id ∉ (w.destroy id).damage := by
  rw [destroy, if_pos (Std.ExtTreeMap.contains_iff_mem.2 h)]
  simp

/-- The other bodies keep theirs. -/
theorem damage_destroy_of_ne {id other : BodyId} (h : other ≠ id) :
    (w.destroy id).damage[other]? = w.damage[other]? := by
  rw [destroy]
  split
  · rw [Std.ExtTreeMap.getElem?_erase, if_neg]
    rw [Std.LawfulEqOrd.compare_eq_iff_eq]
    exact Ne.symm h
  · rfl

/-- The bodies that are not destroyed keep their tags. -/
theorem damage_foldl_destroy {ids : List BodyId} {other : BodyId} (h : other ∉ ids) :
    (ids.foldl destroy w).damage[other]? = w.damage[other]? := by
  induction ids generalizing w with
  | nil => rfl
  | cons id rest ih =>
    rw [List.mem_cons, not_or] at h
    rw [List.foldl_cons, ih (w.destroy id) h.2, w.damage_destroy_of_ne h.1]

/-- A tag is put on one body. -/
theorem mem_damage_tagDamage {id other : BodyId} {damage : Nat}
    (h : other ∈ (w.tagDamage id damage).damage) : other = id ∨ other ∈ w.damage := by
  rw [tagDamage] at h
  split at h
  · rcases Std.ExtTreeMap.mem_insert.1 h with heq | h
    · exact .inl (Std.LawfulEqOrd.eq_of_compare heq).symm
    · exact .inr h
  · exact .inr h

/-- A live body that is not in a group joins it behind the other members. -/
theorem join_eq {group : GroupId} {id : BodyId} {g : Group K} (hgroup : w.groups[group]? = some g)
    (hlive : id ∈ w.bodies) (hnot : id ∉ g.members) :
    w.join group id =
      { w.modify id fun b =>
          { b with velocity := g.defaults.velocity, acceleration := g.defaults.acceleration } with
        groups := w.groups.set group { g with members := g.members ++ [id] } } := by
  rw [join, hgroup]
  have hlive := Std.ExtTreeMap.contains_iff_mem.2 hlive
  have hnot : g.members.contains id = false := by simpa using hnot
  simp only [hlive, hnot, Bool.not_true, Bool.or_false, Bool.false_eq_true, if_false]

/-- Either nothing changes, or a live body joins a group of which it was no member. -/
theorem join_cases (group : GroupId) (id : BodyId) : w.join group id = w ∨
    ∃ g : Group K, w.groups[group]? = some g ∧ id ∈ w.bodies ∧ id ∉ g.members ∧
      w.join group id =
        { w.modify id fun b =>
            { b with velocity := g.defaults.velocity, acceleration := g.defaults.acceleration } with
          groups := w.groups.set group { g with members := g.members ++ [id] } } := by
  cases hgroup : w.groups[group]? with
  | none => exact .inl (by rw [join, hgroup])
  | some g =>
    by_cases hstays : (!w.bodies.contains id || g.members.contains id) = true
    · refine .inl ?_
      rw [join, hgroup]
      exact if_pos hstays
    · simp only [Bool.or_eq_true, Bool.not_eq_true', not_or, Bool.not_eq_false,
        Std.ExtTreeMap.contains_iff_mem, List.contains_iff_mem] at hstays
      exact .inr ⟨g, rfl, hstays.1, hstays.2, w.join_eq hgroup hstays.1 hstays.2⟩

/-- A group that is written has its new members, and the other groups have theirs. -/
theorem members_of_groups_set {v : World K} {group : GroupId} {g g' : Group K}
    (hgroup : w.groups[group]? = some g) (hset : v.groups = w.groups.set group g')
    (other : GroupId) : v.members other = if group = other then g'.members else w.members other := by
  rw [members, hset, List.getElem?_set]
  split
  · next heq =>
    subst heq
    rw [if_pos (List.getElem?_eq_some_iff.1 hgroup).1]
    rfl
  · rfl

end

/-- A member more in one group is a member more in all. -/
theorem perm_flatMap_set {groups : List (Group K)} {group : GroupId} {g : Group K} (id : BodyId)
    (h : groups[group]? = some g) :
    ((groups.set group { g with members := g.members ++ [id] }).flatMap (·.members)).Perm
      (id :: groups.flatMap (·.members)) := by
  induction groups generalizing group with
  | nil => cases h
  | cons first rest ih =>
    cases group with
    | zero =>
      obtain rfl : first = g := Option.some.inj h
      rw [List.set_cons_zero, List.flatMap_cons, List.flatMap_cons, List.append_assoc]
      exact List.perm_middle
    | succ group =>
      rw [List.set_cons_succ, List.flatMap_cons, List.flatMap_cons]
      exact ((ih h).append_left first.members).trans List.perm_middle

/-! ## Worlds whose roster is right -/

/-- The roster of a world lists its live bodies, each of them once, and all numbers of bodies have
been given out. -/
structure Enrolled (w : World K) : Prop where
  nodup_roster : w.roster.Nodup
  mem_bodies_iff : ∀ {id}, id ∈ w.bodies ↔ id ∈ w.roster
  lt_nextBody : ∀ {id}, id ∈ w.bodies → id < w.nextBody

section
variable {w : World K}

/-- A member of a group is live. -/
theorem Enrolled.mem_bodies (hw : w.Enrolled) {id : BodyId} {group : GroupId}
    (h : id ∈ w.members group) : id ∈ w.bodies :=
  hw.mem_bodies_iff.2 (mem_roster_iff.2 ⟨group, h⟩)

/-- A body is in one group only. -/
theorem Enrolled.group_unique (hw : w.Enrolled) {id : BodyId} {group other : GroupId}
    (hgroup : id ∈ w.members group) (hother : id ∈ w.members other) : group = other := by
  have hdisjoint := List.pairwise_iff_getElem.1 (List.nodup_flatMap.1 hw.nodup_roster).2
  have hget : ∀ {g : GroupId}, id ∈ w.members g → ∃ h : g < w.groups.length,
      id ∈ (w.groups[g]).members := by
    intro g hg
    cases h : w.groups[g]? with
    | none => rw [members, h] at hg; cases hg
    | some gr =>
      obtain ⟨hlt, hgr⟩ := List.getElem?_eq_some_iff.1 h
      rw [members_of_getElem? h, ← hgr] at hg
      exact ⟨hlt, hg⟩
  obtain ⟨hlt, hgroup⟩ := hget hgroup
  obtain ⟨hlt', hother⟩ := hget hother
  rcases Nat.lt_trichotomy group other with h | h | h
  · exact absurd hother (hdisjoint group other hlt hlt' h hgroup)
  · exact h
  · exact absurd hgroup (hdisjoint other group hlt' hlt h hother)

/-- No body is in a group twice. -/
theorem Enrolled.nodup_members (hw : w.Enrolled) (group : GroupId) : (w.members group).Nodup := by
  cases h : w.groups[group]? with
  | none =>
    rw [members, h]
    exact List.nodup_nil
  | some g =>
    rw [members_of_getElem? h]
    exact (List.nodup_flatMap.1 hw.nodup_roster).1 g (List.mem_of_getElem? h)

/-- A group has no more members than numbers have been given out. -/
theorem Enrolled.length_members_le (hw : w.Enrolled) (group : GroupId) :
    (w.members group).length ≤ w.nextBody := by
  have hrange : w.members group ⊆ List.range w.nextBody := by
    intro id hid
    exact List.mem_range.2 (hw.lt_nextBody (hw.mem_bodies hid))
  have hle := ((hw.nodup_members group).subperm hrange).length_le
  rwa [List.length_range] at hle

/-- There are as many live bodies as the groups have members. -/
theorem Enrolled.size_bodies (hw : w.Enrolled) : w.bodies.size = w.roster.length := by
  have hperm : w.bodies.keys.Perm w.roster := by
    refine (List.perm_ext_iff_of_nodup Std.ExtTreeMap.nodup_keys hw.nodup_roster).2 ?_
    intro id
    rw [Std.ExtTreeMap.mem_keys, hw.mem_bodies_iff]
  rw [← hperm.length_eq, Std.ExtTreeMap.length_keys]

/-- Bodies may be changed, as long as none of them comes or goes. -/
theorem Enrolled.of_bodies (hw : w.Enrolled) {bodies : Std.ExtTreeMap BodyId (Body K)}
    (h : ∀ {id}, id ∈ bodies ↔ id ∈ w.bodies) : ({ w with bodies } : World K).Enrolled where
  nodup_roster := hw.nodup_roster
  mem_bodies_iff := h.trans hw.mem_bodies_iff
  lt_nextBody hid := hw.lt_nextBody (h.1 hid)

/-- A body that is destroyed is struck off every group. -/
theorem Enrolled.members_destroy (hw : w.Enrolled) (id : BodyId) (group : GroupId) :
    (w.destroy id).members group = (w.members group).filter (· != id) := by
  by_cases h : id ∈ w.bodies
  · exact World.members_destroy w h group
  · have hother : ∀ other ∈ w.members group, (other != id) = true := by
      intro other hother
      rw [bne_iff_ne]
      rintro rfl
      exact h (hw.mem_bodies hother)
    rw [w.destroy_of_not_mem h, List.filter_eq_self.2 hother]

/-- A body may be destroyed. -/
theorem Enrolled.destroy (hw : w.Enrolled) (id : BodyId) : (w.destroy id).Enrolled := by
  by_cases h : id ∈ w.bodies
  · have hroster : (w.destroy id).roster = w.roster.filter (· != id) := by
      rw [World.destroy, if_pos (Std.ExtTreeMap.contains_iff_mem.2 h), roster, roster,
        List.filter_flatMap, List.flatMap_map]
    refine ⟨?_, fun {other} => ?_, fun {other} hother => ?_⟩
    · rw [hroster]
      exact hw.nodup_roster.filter _
    · rw [mem_bodies_destroy, hroster, List.mem_filter, hw.mem_bodies_iff, bne_iff_ne, and_comm]
    · rw [nextBody_destroy]
      exact hw.lt_nextBody ((mem_bodies_destroy w).1 hother).2
  · rw [w.destroy_of_not_mem h]
    exact hw

/-- Bodies that are destroyed are struck off every group; the other members keep their order. -/
theorem Enrolled.members_foldl_destroy (hw : w.Enrolled) (ids : List BodyId) (group : GroupId) :
    (ids.foldl World.destroy w).members group =
      (w.members group).filter fun id => !ids.contains id := by
  induction ids generalizing w with
  | nil => exact (List.filter_eq_self.2 fun _ _ => rfl).symm
  | cons id rest ih =>
    rw [List.foldl_cons, ih (hw.destroy id), hw.members_destroy, List.filter_filter]
    refine List.filter_congr fun other _ => ?_
    rw [List.contains_cons, Bool.not_or, Bool.and_comm]
    rfl

end

/-! ## New bodies -/

/-- A world with one new body, which is in no group yet. -/
structure Grown (w v : World K) : Prop where
  groups_eq : v.groups = w.groups
  nextBody_eq : v.nextBody = w.nextBody + 1
  mem_bodies_iff : ∀ {id}, id ∈ v.bodies ↔ id = w.nextBody ∨ id ∈ w.bodies

section
variable {w v : World K}

/-- A body that was created is in no group yet. -/
theorem grown_create [Scalar K] (w : World K) (sprite : String) (position : Vec K) (size : Size K) :
    w.Grown (w.create sprite position size).2 := ⟨rfl, rfl, w.mem_bodies_create⟩

/-- The new body may be changed. -/
theorem Grown.modify (h : w.Grown v) (id : BodyId) (change : Body K → Body K) :
    w.Grown (v.modify id change) :=
  ⟨h.groups_eq, h.nextBody_eq, (v.mem_bodies_modify).trans h.mem_bodies_iff⟩

/-- The new body may be tagged. -/
theorem Grown.tagDamage (h : w.Grown v) (id : BodyId) (damage : Nat) :
    w.Grown (v.tagDamage id damage) := by
  rw [World.tagDamage]
  split
  · exact ⟨h.groups_eq, h.nextBody_eq, h.mem_bodies_iff⟩
  · exact h

/-- What joining a group does to the new body and its world. -/
theorem Grown.join_eq (hv : w.Grown v) {group : GroupId} {g : Group K}
    (hgroup : w.groups[group]? = some g) (hnew : w.nextBody ∉ w.members group) :
    v.join group w.nextBody =
      { v.modify w.nextBody fun b =>
          { b with velocity := g.defaults.velocity, acceleration := g.defaults.acceleration } with
        groups := w.groups.set group { g with members := g.members ++ [w.nextBody] } } := by
  rw [members_of_getElem? hgroup] at hnew
  rw [v.join_eq (hv.groups_eq ▸ hgroup) (hv.mem_bodies_iff.2 (.inl rfl)) hnew, hv.groups_eq]

/-- The new body stands behind the other members of its group. -/
theorem Grown.members_join (hv : w.Grown v) {group : GroupId} (hgroup : group < w.groups.length)
    (hnew : w.nextBody ∉ w.members group) (other : GroupId) :
    (v.join group w.nextBody).members other =
      if group = other then w.members other ++ [w.nextBody] else w.members other := by
  have hget := List.getElem?_eq_getElem hgroup
  rw [hv.join_eq hget hnew, w.members_of_groups_set hget rfl other]
  split
  · next h => rw [← h, members_of_getElem? hget]
  · rfl

/-- A number that was not given out is in no group. -/
theorem Enrolled.nextBody_not_mem (hw : w.Enrolled) (group : GroupId) :
    w.nextBody ∉ w.members group :=
  fun h => Nat.lt_irrefl _ (hw.lt_nextBody (hw.mem_bodies h))

/-- What joining a group does to the new body of an enrolled world. -/
theorem Enrolled.join_grown_eq (hw : w.Enrolled) (hv : w.Grown v) {group : GroupId} {g : Group K}
    (hgroup : w.groups[group]? = some g) :
    v.join group w.nextBody =
      { v.modify w.nextBody fun b =>
          { b with velocity := g.defaults.velocity, acceleration := g.defaults.acceleration } with
        groups := w.groups.set group { g with members := g.members ++ [w.nextBody] } } :=
  hv.join_eq hgroup (hw.nextBody_not_mem group)

/-- The new body of an enrolled world stands behind the other members of its group. -/
theorem Enrolled.members_join (hw : w.Enrolled) (hv : w.Grown v) {group : GroupId}
    (hgroup : group < w.groups.length) (other : GroupId) :
    (v.join group w.nextBody).members other =
      if group = other then w.members other ++ [w.nextBody] else w.members other :=
  hv.members_join hgroup (hw.nextBody_not_mem group) other

/-- A new body that has joined a group is enrolled. -/
theorem Enrolled.join (hw : w.Enrolled) (hv : w.Grown v) {group : GroupId}
    (hgroup : group < w.groups.length) : (v.join group w.nextBody).Enrolled := by
  have hget := List.getElem?_eq_getElem hgroup
  have hperm : (v.join group w.nextBody).roster.Perm (w.nextBody :: w.roster) := by
    rw [hw.join_grown_eq hv hget]
    exact perm_flatMap_set w.nextBody hget
  have hfresh : w.nextBody ∉ w.roster := fun h =>
    Nat.lt_irrefl _ (hw.lt_nextBody (hw.mem_bodies_iff.2 h))
  have hbodies : ∀ {id},
      id ∈ (v.join group w.nextBody).bodies ↔ id = w.nextBody ∨ id ∈ w.bodies := by
    intro id
    rw [hw.join_grown_eq hv hget]
    exact (v.mem_bodies_modify).trans hv.mem_bodies_iff
  refine ⟨?_, fun {id} => ?_, fun {id} hid => ?_⟩
  · exact hperm.nodup_iff.2 (List.nodup_cons.2 ⟨hfresh, hw.nodup_roster⟩)
  · rw [hbodies, hperm.mem_iff, List.mem_cons, hw.mem_bodies_iff]
  · have hnext : (v.join group w.nextBody).nextBody = w.nextBody + 1 := by
      rw [hw.join_grown_eq hv hget]
      exact hv.nextBody_eq
    rw [hnext]
    rcases hbodies.1 hid with rfl | hid
    · exact Nat.lt_succ_self _
    · exact Nat.lt_succ_of_lt (hw.lt_nextBody hid)

end

/-! ## Bodies that come and go -/

/-- A world with some more bodies: they have the next numbers and are members of a group, behind the
others. -/
structure Gains (w : World K) (group : GroupId) (count : Nat) (v : World K) : Prop where
  nextBody_eq : v.nextBody = w.nextBody + count
  members_eq : ∀ other, v.members other =
    if group = other then w.members other ++ List.range' w.nextBody count else w.members other
  mem_bodies_iff : ∀ {id}, id ∈ v.bodies ↔ id ∈ w.bodies ∨ id ∈ List.range' w.nextBody count

/-- A world without some members of a group; the others keep their order. -/
structure Loses (w : World K) (group : GroupId) (ids : List BodyId) (v : World K) : Prop where
  nextBody_eq : v.nextBody = w.nextBody
  members_eq : ∀ other, v.members other =
    if group = other then (w.members other).filter fun id => !ids.contains id else w.members other
  mem_bodies_iff : ∀ {id}, id ∈ v.bodies ↔ id ∈ w.bodies ∧ id ∉ ids

section
variable {u v w : World K} {group : GroupId}

/-- A world that stays as it is gains no members. -/
theorem Gains.refl (w : World K) (group : GroupId) : w.Gains group 0 w := by
  refine ⟨rfl, fun other => ?_, ?_⟩
  · rw [List.range'_zero, List.append_nil, ite_self]
  · rw [List.range'_zero]
    exact (or_iff_left List.not_mem_nil).symm

/-- New members of two operations are new members of both together. -/
theorem Gains.trans {a b : Nat} (h : w.Gains group a u) (hlater : u.Gains group b v) :
    w.Gains group (a + b) v := by
  refine ⟨?_, fun other => ?_, fun {id} => ?_⟩
  · rw [hlater.nextBody_eq, h.nextBody_eq, Nat.add_assoc]
  · rw [hlater.members_eq, h.members_eq, h.nextBody_eq]
    split
    · rw [List.append_assoc, List.range'_append_1]
    · rfl
  · rw [hlater.mem_bodies_iff, h.mem_bodies_iff, h.nextBody_eq, or_assoc, ← List.mem_append,
      List.range'_append_1]

/-- Bodies may be changed before, as long as none of them comes or goes. -/
theorem Gains.of_bodies {count : Nat} {bodies : Std.ExtTreeMap BodyId (Body K)}
    (h : ({ w with bodies } : World K).Gains group count v)
    (hbodies : ∀ {id}, id ∈ bodies ↔ id ∈ w.bodies) : w.Gains group count v :=
  ⟨h.nextBody_eq, h.members_eq, h.mem_bodies_iff.trans (or_congr_left hbodies)⟩

/-- They may be changed afterwards as well. -/
theorem Gains.modify {count : Nat} (h : w.Gains group count v) (id : BodyId)
    (change : Body K → Body K) : w.Gains group count (v.modify id change) :=
  ⟨h.nextBody_eq, h.members_eq, v.mem_bodies_modify.trans h.mem_bodies_iff⟩

/-- A new body that has joined a group is one member more. -/
theorem Grown.gains_join (hv : w.Grown v) (hgroup : group < w.groups.length)
    (hnew : w.nextBody ∉ w.members group) : w.Gains group 1 (v.join group w.nextBody) := by
  have hjoin := hv.join_eq (List.getElem?_eq_getElem hgroup) hnew
  refine ⟨?_, hv.members_join hgroup hnew, fun {id} => ?_⟩
  · rw [hjoin]
    exact hv.nextBody_eq
  · rw [hjoin, List.range'_one, List.mem_singleton, or_comm]
    exact (v.mem_bodies_modify).trans hv.mem_bodies_iff

/-- The new body of an enrolled world is one member more of its group. -/
theorem Enrolled.gains_join (hw : w.Enrolled) (hv : w.Grown v) (hgroup : group < w.groups.length) :
    w.Gains group 1 (v.join group w.nextBody) := hv.gains_join hgroup (hw.nextBody_not_mem group)

/-- It does not matter in which order the bodies are listed that go. -/
theorem Loses.congr {ids ids' : List BodyId} (h : w.Loses group ids v)
    (hids : ∀ id, id ∈ ids ↔ id ∈ ids') : w.Loses group ids' v := by
  refine ⟨h.nextBody_eq, fun other => ?_, h.mem_bodies_iff.trans (and_congr_right' (hids _).not)⟩
  rw [h.members_eq]
  split
  · refine List.filter_congr fun id _ => ?_
    rw [List.contains_eq_mem, List.contains_eq_mem, decide_eq_decide.2 (hids id)]
  · rfl

/-- Members of a group may be destroyed. -/
theorem Enrolled.loses_foldl_destroy (hw : w.Enrolled) {ids : List BodyId}
    (hids : ∀ id ∈ ids, id ∈ w.members group) :
    w.Loses group ids (ids.foldl World.destroy w) := by
  refine ⟨nextBody_foldl_destroy ids, fun other => ?_, fun {id} => ?_⟩
  · rw [hw.members_foldl_destroy]
    split
    · rfl
    · next hne =>
      -- whoever is in another group is none of them
      refine List.filter_eq_self.2 fun id hid => ?_
      rw [Bool.not_eq_true', List.contains_eq_mem, decide_eq_false_iff_not]
      exact fun hin => hne (hw.group_unique (hids id hin) hid)
  · rw [mem_bodies_foldl_destroy, and_comm]

end

end Barrage.World
