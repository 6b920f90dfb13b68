import Mathlib.Data.List.Nodup
import Barrage.Proofs.World.Confinement
import Barrage.Proofs.World.Handles

/-!
# What overlap queries find

Two boxes overlap when their centres are closer along both axes than the boxes reach together
(`World.meet_iff`), and where sums are exact this is to have a common point inside
(`Body.overlaps_iff`). A query goes through the members of groups in their order and leaves out
pairs of a body with itself. In a world whose tables agree (`World.Sound`) no body is in a group
twice, so each pair that overlaps is found once, and the pairs stand in the order of their places
(`World.Sound.pairwise_overlapPairs`). A body is hit by what overlaps it in some groups, and a group
that is named twice counts twice (`World.contacts`).

`OverlapLaw` puts these facts together. It holds of every world that some use of a new one leads to.
-/

namespace Barrage

/-! ## Boxes -/

section
variable {K : Type} [Field K] [LinearOrder K] [IsStrictOrderedRing K] [Elementary K]

/-- A point is inside a rectangle and not on its border. -/
def Rect.Surrounds (r : Rect K) (p : Vec K) : Prop :=
  ∀ a, r.low a < p.along a ∧ p.along a < r.high a

/-- Along one axis, two extents have a point in common when their middles are close enough. -/
theorem abs_sub_lt_add_iff {p q s t : K} (hs : 0 < s) (ht : 0 < t) :
    Scalar.abs (p - q) < s + t ↔ ∃ x, (p - s < x ∧ x < p + s) ∧ q - t < x ∧ x < q + t := by
  rw [Scalar.abs_exact, abs_sub_lt_iff]
  constructor
  · rintro ⟨hleft, hright⟩
    refine ⟨(max (p - s) (q - t) + min (p + s) (q + t)) / 2, ?_⟩
    have hlt : max (p - s) (q - t) < min (p + s) (q + t) := by
      rw [max_lt_iff, lt_min_iff, lt_min_iff]
      refine ⟨⟨?_, ?_⟩, ?_, ?_⟩ <;> linarith
    have hlow := left_lt_add_div_two.2 hlt
    have hhigh := add_div_two_lt_right.2 hlt
    exact ⟨⟨(le_max_left _ _).trans_lt hlow, hhigh.trans_le (min_le_left _ _)⟩,
      (le_max_right _ _).trans_lt hlow, hhigh.trans_le (min_le_right _ _)⟩
  · rintro ⟨x, ⟨hp, hp'⟩, hq, hq'⟩
    constructor <;> linarith

/-- Two boxes that have an extent overlap when some point is inside both of them. -/
theorem Body.overlaps_iff {b c : Body K} (hb : ∀ a, 0 < b.half.along a)
    (hc : ∀ a, 0 < c.half.along a) :
    b.overlaps c = true ↔ ∃ p, b.rect.Surrounds p ∧ c.rect.Surrounds p := by
  have haxes : b.overlaps c = true ↔ ∀ a, Scalar.abs (b.position.along a - c.position.along a) <
      b.half.along a + c.half.along a := by
    rw [overlaps, Bool.and_eq_true, decide_eq_true_iff, decide_eq_true_iff]
    constructor
    · rintro ⟨hx, hy⟩ a
      cases a with
      | x => exact hx
      | y => exact hy
    · intro h
      exact ⟨h .x, h .y⟩
  simp only [haxes, abs_sub_lt_add_iff (hb _) (hc _), Rect.Surrounds, low_rect, high_rect]
  constructor
  · intro h
    obtain ⟨x, hx⟩ := h .x
    obtain ⟨y, hy⟩ := h .y
    refine ⟨⟨x, y⟩, fun a => ?_, fun a => ?_⟩
    · cases a with
      | x => exact hx.1
      | y => exact hy.1
    · cases a with
      | x => exact hx.2
      | y => exact hy.2
  · rintro ⟨p, hp, hp'⟩ a
    exact ⟨p.along a, hp a, hp' a⟩

end

variable {K : Type} [Scalar K]

namespace World

/-- Whether two live bodies overlap. -/
def meet (w : World K) (a b : BodyId) : Bool :=
  w.bodies[a]?.any fun first => w.bodies[b]?.any first.overlaps

/-- Two live bodies overlap when their centres are closer along both axes than their boxes reach. -/
theorem meet_iff {w : World K} {first second : BodyId} : w.meet first second = true ↔
    ∃ a b, w.bodies[first]? = some a ∧ w.bodies[second]? = some b ∧
      Scalar.abs (a.position.x - b.position.x) < a.half.x + b.half.x ∧
      Scalar.abs (a.position.y - b.position.y) < a.half.y + b.half.y := by
  rw [meet, Option.any_eq_true]
  refine exists_congr fun a => ?_
  rw [Option.any_eq_true, ← exists_and_left]
  refine exists_congr fun b => and_congr_right fun _ => and_congr_right fun _ => ?_
  rw [Body.overlaps, Bool.and_eq_true, decide_eq_true_iff, decide_eq_true_iff]

/-- What overlaps a body in some groups, with the place of the group. -/
def contacts (w : World K) (id : BodyId) (groups : List GroupId) : List (Nat × BodyId) :=
  groups.zipIdx.flatMap fun (group, i) => (w.overlapping id group).map fun other => (i, other)

section
variable {w : World K} {id other : BodyId} {group a b : GroupId} {groups : List GroupId}

/-! ## One group -/

/-- Nothing overlaps a body that is gone. -/
theorem overlapping_of_not_mem (h : id ∉ w.bodies) (group : GroupId) :
    w.overlapping id group = [] := by
  rw [overlapping, Std.ExtTreeMap.getElem?_eq_none h]

/-- A query leaves out members of the group and keeps the order of the others. -/
theorem overlapping_eq (w : World K) (id : BodyId) (group : GroupId) : w.overlapping id group =
    (w.members group).filter fun other => other != id && w.meet id other := by
  rw [overlapping]
  cases hbody : w.bodies[id]? with
  | none => simp [meet, hbody]
  | some b => simp [meet, hbody]

/-- What overlaps a body in a group are the other members that meet it. -/
theorem mem_overlapping_iff : other ∈ w.overlapping id group ↔
    other ∈ w.members group ∧ other ≠ id ∧ w.meet id other = true := by
  rw [overlapping_eq, List.mem_filter, Bool.and_eq_true, bne_iff_ne]

/-- A query keeps the order of the members. -/
theorem overlapping_sublist (w : World K) (id : BodyId) (group : GroupId) :
    (w.overlapping id group).Sublist (w.members group) := by
  rw [overlapping_eq]
  exact List.filter_sublist

/-! ## Two groups -/

/-- The pairs of two groups are those of different members that meet. -/
theorem mem_overlapPairs_iff {pair : BodyId × BodyId} : pair ∈ w.overlapPairs a b ↔
    pair.1 ∈ w.members a ∧ pair.2 ∈ w.members b ∧ pair.1 ≠ pair.2 ∧
      w.meet pair.1 pair.2 = true := by
  simp only [overlapPairs, List.mem_flatMap, List.mem_map, mem_overlapping_iff]
  constructor
  · rintro ⟨first, hfirst, second, ⟨hsecond, hne, hmeet⟩, rfl⟩
    exact ⟨hfirst, hsecond, hne.symm, hmeet⟩
  · rintro ⟨hfirst, hsecond, hne, hmeet⟩
    exact ⟨pair.1, hfirst, pair.2, ⟨hsecond, hne.symm, hmeet⟩, rfl⟩

/-- The members of a list without repetition stand in the order of their places. -/
theorem pairwise_idxOf_lt {ids : List BodyId} (h : ids.Nodup) :
    ids.Pairwise fun a b => ids.idxOf a < ids.idxOf b := by
  rw [List.pairwise_iff_getElem]
  intro i j hi hj hlt
  rw [h.idxOf_getElem i hi, h.idxOf_getElem j hj]
  exact hlt

/-- The pairs stand in the order of their first members and then of their second ones. -/
theorem Sound.pairwise_overlapPairs (h : w.Sound) (a b : GroupId) :
    (w.overlapPairs a b).Pairwise fun pair later =>
      (w.members a).idxOf pair.1 < (w.members a).idxOf later.1 ∨
      pair.1 = later.1 ∧ (w.members b).idxOf pair.2 < (w.members b).idxOf later.2 := by
  rw [overlapPairs, List.pairwise_flatMap]
  constructor
  · intro first _
    rw [List.pairwise_map]
    have hsecond := (pairwise_idxOf_lt (h.nodup_members b)).sublist (w.overlapping_sublist first b)
    exact hsecond.imp fun hlt => .inr ⟨rfl, hlt⟩
  · refine (pairwise_idxOf_lt (h.nodup_members a)).imp ?_
    intro first later hlt pair hpair pair' hpair'
    obtain ⟨_, _, rfl⟩ := List.mem_map.1 hpair
    obtain ⟨_, _, rfl⟩ := List.mem_map.1 hpair'
    exact .inl hlt

/-- So none of them comes twice. -/
theorem Sound.nodup_overlapPairs (h : w.Sound) (a b : GroupId) : (w.overlapPairs a b).Nodup := by
  refine (h.pairwise_overlapPairs a b).imp ?_
  rintro pair _ hbefore rfl
  rcases hbefore with hlt | ⟨-, hlt⟩
  · exact Nat.lt_irrefl _ hlt
  · exact Nat.lt_irrefl _ hlt

/-! ## The hits of one body -/

/-- A body is hit once for each of its contacts. -/
theorem hitsOf_eq_length_contacts : w.hitsOf id groups = (w.contacts id groups).length := by
  have hgroups : groups = groups.zipIdx.map Prod.fst := by simp
  rw [hitsOf, contacts, hgroups, List.flatMap_map, List.length_flatMap, List.length_flatMap]
  simp

/-- The contacts of a body are the other members that meet it, with the places of their groups. -/
theorem mem_contacts_iff {i : Nat} : (i, other) ∈ w.contacts id groups ↔
    ∃ group, groups[i]? = some group ∧ other ∈ w.members group ∧ other ≠ id ∧
      w.meet id other = true := by
  simp only [contacts, List.mem_flatMap, List.mem_map, mem_overlapping_iff, Prod.exists,
    List.mem_zipIdx_iff_getElem?, Prod.mk.injEq]
  constructor
  · rintro ⟨group, _, hgroup, _, hother, rfl, rfl⟩
    exact ⟨group, hgroup, hother⟩
  · rintro ⟨group, hgroup, hother⟩
    exact ⟨group, i, hgroup, other, hother, rfl, rfl⟩

/-- No contact comes twice. -/
theorem Sound.nodup_contacts (h : w.Sound) (id : BodyId) (groups : List GroupId) :
    (w.contacts id groups).Nodup := by
  rw [contacts, List.nodup_flatMap]
  constructor
  · rintro ⟨group, i⟩ _
    have hothers : (w.overlapping id group).Nodup :=
      (h.nodup_members group).sublist (w.overlapping_sublist id group)
    exact hothers.map fun _ _ heq => (Prod.mk.inj heq).2
  · -- the places of the groups differ
    have hplaces : (groups.zipIdx.map Prod.snd).Nodup := by
      rw [List.zipIdx_map_snd]
      exact List.nodup_range'
    refine (List.pairwise_map.1 hplaces).imp ?_
    intro p q hne
    refine List.disjoint_left.2 ?_
    intro contact hp hq
    obtain ⟨_, _, rfl⟩ := List.mem_map.1 hp
    obtain ⟨_, _, heq⟩ := List.mem_map.1 hq
    exact hne (Prod.mk.inj heq).1.symm

end

/-- What the overlap queries of a world find. -/
structure OverlapLaw (w : World K) : Prop where
  /-- Two bodies meet when both are live and their centres are closer along both axes than their
  boxes reach together. -/
  meet_iff : ∀ first second, w.meet first second = true ↔
    ∃ a b, w.bodies[first]? = some a ∧ w.bodies[second]? = some b ∧
      Scalar.abs (a.position.x - b.position.x) < a.half.x + b.half.x ∧
      Scalar.abs (a.position.y - b.position.y) < a.half.y + b.half.y
  /-- This is to have a common point inside, where sums are exact and the boxes have an extent. -/
  common_point : ∀ {F : Type} [Field F] [LinearOrder F] [IsStrictOrderedRing F] [Elementary F]
    {a b : Body F}, (∀ axis, 0 < a.half.along axis) → (∀ axis, 0 < b.half.along axis) →
      (a.overlaps b = true ↔ ∃ p, a.rect.Surrounds p ∧ b.rect.Surrounds p)
  /-- The pairs of two groups are those of different members that overlap. -/
  mem_pairs : ∀ a b first second, (first, second) ∈ w.overlapPairs a b ↔
    first ∈ w.members a ∧ second ∈ w.members b ∧ first ≠ second ∧ w.meet first second = true
  /-- Each of them is listed once. -/
  nodup_pairs : ∀ a b, (w.overlapPairs a b).Nodup
  /-- They are listed by the place of the first body in its group and then by that of the second
  one. -/
  pairs_in_order : ∀ a b, (w.overlapPairs a b).Pairwise fun pair later =>
    (w.members a).idxOf pair.1 < (w.members a).idxOf later.1 ∨
    pair.1 = later.1 ∧ (w.members b).idxOf pair.2 < (w.members b).idxOf later.2
  /-- A body is hit as often as there are places in a list of groups with members that overlap it,
  itself left out. -/
  hits : ∀ id groups, ∃ contacts : List (Nat × BodyId), contacts.Nodup ∧
    (∀ i other, (i, other) ∈ contacts ↔ ∃ group, groups[i]? = some group ∧
      other ∈ w.members group ∧ other ≠ id ∧ w.meet id other = true) ∧
    w.hitsOf id groups = contacts.length
  /-- A body that is gone is not hit. -/
  gone : ∀ id groups, id ∉ w.bodies → w.hitsOf id groups = 0

/-- The queries of a sound world keep to the law. -/
theorem Sound.overlapLaw {w : World K} (h : w.Sound) : OverlapLaw w where
  meet_iff _ _ := World.meet_iff
  common_point ha hb := Body.overlaps_iff ha hb
  mem_pairs _ _ _ _ := mem_overlapPairs_iff
  nodup_pairs := h.nodup_overlapPairs
  pairs_in_order := h.pairwise_overlapPairs
  hits id groups :=
    ⟨w.contacts id groups, h.nodup_contacts id groups, fun _ _ => mem_contacts_iff,
      hitsOf_eq_length_contacts⟩
  gone id groups hgone := by
    rw [hitsOf, List.length_eq_zero_iff, List.flatMap_eq_nil_iff]
    intro group _
    exact overlapping_of_not_mem hgone group

/-- Whatever is done with a world, its overlap queries find all pairs and no pair twice. -/
theorem overlapLaw_applyAll (bounds : Rect K) (ops : List (Op K)) :
    OverlapLaw ((empty bounds).applyAll ops) :=
  ((follows_applyAll _ ops).sound (sound_empty bounds)).overlapLaw

/-- Of three dots in a row the outer ones touch and do not overlap. A fourth one is gone and a fifth
one is far away. Both groups have most of them, in another order, and one group is asked for
twice. -/
theorem overlapLaw_crowd :
    let dot (x : Nat) : Op Binary64 :=
      .create "dot" ⟨.ofNat x, 0⟩ ⟨Binary64.ofNat 2, Binary64.ofNat 2⟩
    let ops : List (Op Binary64) := [.createGroup ⟨.zero, .zero⟩, .createGroup ⟨.zero, .zero⟩,
      dot 0, dot 1, dot 2, dot 0, dot 9, .join 0 0, .join 0 1, .join 0 2, .join 0 4, .join 1 2,
      .join 1 3, .join 1 1, .join 1 0, .join 1 2, .join 1 4, .destroy 3]
    let w := (empty (.ofCorner 0 0 0 0)).applyAll ops
    (w.overlapPairs 0 1, w.overlapPairs 0 7) = ([(0, 1), (1, 2), (1, 0), (2, 1)], []) ∧
      (w.hitsOf 1 [0, 1, 7, 0], w.hitsOf 3 [0], w.hitsOf 4 [0, 1]) = (6, 0, 0) ∧
      OverlapLaw w := by
  intro dot ops w
  exact ⟨by decide +kernel, by decide +kernel, overlapLaw_applyAll _ ops⟩

end World

end Barrage
