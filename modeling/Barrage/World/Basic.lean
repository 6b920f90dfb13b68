import Std.Data.ExtTreeMap
import Barrage.World.Body

/-!
# The world of bodies

Bodies are numbered in the order of creation, and a number is never used again. Groups gather bodies
for overlap queries, in the order in which they joined. A side table holds the damage of the bodies
that deal some.

A handle that names nothing, because its body is gone or never was, is harmless everywhere.
-/

namespace Barrage

/-- Handle of a body. -/
abbrev BodyId := Nat

/-- Handle of a group. -/
abbrev GroupId := Nat

/-- Velocity and acceleration that a group gives to a body that joins it. -/
structure Kinematics (K : Type) where
  velocity : Vec K
  acceleration : Vec K
  deriving DecidableEq

/-- A group of bodies. -/
structure Group (K : Type) where
  /-- What a body gets on joining. -/
  defaults : Kinematics K
  /-- The members, in the order of joining. -/
  members : List BodyId
  deriving DecidableEq

/-- The world. -/
structure World (K : Type) where
  /-- The borders for bodies that are kept inside. -/
  bounds : Rect K
  bodies : Std.ExtTreeMap BodyId (Body K)
  /-- The groups; the handle of a group is its place. -/
  groups : List (Group K)
  /-- Damage dealt by the bodies that have some. -/
  damage : Std.ExtTreeMap BodyId Nat
  /-- Handle of the next body. -/
  nextBody : BodyId
  deriving DecidableEq

variable {K : Type}

namespace World

/-- A world without bodies and groups. -/
def empty (bounds : Rect K) : World K where
  bounds := bounds
  bodies := ∅
  groups := []
  damage := ∅
  nextBody := 0

/-- Creates a body at rest around a point. -/
def create [Scalar K] (w : World K) (sprite : String) (position : Vec K) (size : Size K) :
    BodyId × World K :=
  let body : Body K :=
    { sprite, position
      half := ⟨size.width / Scalar.whole 2, size.height / Scalar.whole 2⟩
      velocity := .zero, acceleration := .zero, bounded := false }
  (w.nextBody, { w with
    bodies := w.bodies.insert w.nextBody body, nextBody := w.nextBody + 1 })

/-- Creates a group. -/
def createGroup (w : World K) (defaults : Kinematics K) : GroupId × World K :=
  (w.groups.length, { w with groups := w.groups ++ [⟨defaults, []⟩] })

/-- Changes a body, if it is live. -/
def modify (w : World K) (id : BodyId) (change : Body K → Body K) : World K :=
  { w with bodies := w.bodies.modify id change }

/-- Sets the velocity of a body. -/
def setVelocity (w : World K) (id : BodyId) (velocity : Vec K) : World K :=
  w.modify id fun b => { b with velocity }

/-- Sets the acceleration of a body. -/
def setAcceleration (w : World K) (id : BodyId) (acceleration : Vec K) : World K :=
  w.modify id fun b => { b with acceleration }

/-- Removes a body from the world, from its groups and from the damage table. -/
def destroy (w : World K) (id : BodyId) : World K :=
  if w.bodies.contains id then
    { w with
      bodies := w.bodies.erase id
      damage := w.damage.erase id
      groups := w.groups.map fun g => { g with members := g.members.filter (· != id) } }
  else w

/-- Adds a body to a group it is not in. The group's kinematics replace those of the body, so a
velocity of its own is set afterwards. -/
def join (w : World K) (group : GroupId) (id : BodyId) : World K :=
  match w.groups[group]? with
  | none => w
  | some g =>
    if !w.bodies.contains id || g.members.contains id then w
    else
      let joined := w.modify id fun b =>
        { b with velocity := g.defaults.velocity, acceleration := g.defaults.acceleration }
      { joined with
        groups := w.groups.set group { g with members := g.members ++ [id] } }

/-- Members of a group in the order of joining. -/
def members (w : World K) (group : GroupId) : List BodyId :=
  (w.groups[group]?.map Group.members).getD []

/-- Records the damage that a live body deals on a hit. -/
def tagDamage (w : World K) (id : BodyId) (damage : Nat) : World K :=
  if w.bodies.contains id then { w with damage := w.damage.insert id damage } else w

/-- Moves every body on by `dt` seconds. -/
@[specialize]
def step [Scalar K] (w : World K) (dt : K) : World K :=
  { w with bodies := w.bodies.map fun _ b => b.step w.bounds dt }

/-- A change touches one body. -/
theorem bodies_modify (w : World K) (id other : BodyId) (change : Body K → Body K) :
    (w.modify id change).bodies[other]? =
      if id = other then w.bodies[other]?.map change else w.bodies[other]? := by
  simp only [modify, Std.ExtTreeMap.getElem?_modify, Std.LawfulEqOrd.compare_eq_iff_eq]
  split
  · next h => rw [h]
  · rfl

/-- Creation leaves all bodies there are as they were. -/
theorem bodies_create [Scalar K] (w : World K) (sprite : String) (position : Vec K)
    (size : Size K) {other : BodyId} (h : other ≠ w.nextBody) :
    (w.create sprite position size).2.bodies[other]? = w.bodies[other]? := by
  simp only [create, Std.ExtTreeMap.getElem?_insert, Std.LawfulEqOrd.compare_eq_iff_eq]
  rw [if_neg (Ne.symm h)]

/-- Destruction takes one body away, if it is there. -/
theorem bodies_destroy (w : World K) (id other : BodyId) :
    (w.destroy id).bodies[other]? = if id = other then none else w.bodies[other]? := by
  unfold destroy
  split
  · simp only [Std.ExtTreeMap.getElem?_erase, Std.LawfulEqOrd.compare_eq_iff_eq]
  · next h =>
    split
    · next heq =>
      subst heq
      exact Std.ExtTreeMap.getElem?_eq_none (by simpa using h)
    · rfl

/-- A destroyed body is a member of no group, and the other members keep their order. -/
theorem members_destroy (w : World K) {id : BodyId} (h : id ∈ w.bodies) (group : GroupId) :
    (w.destroy id).members group = (w.members group).filter (· != id) := by
  simp only [destroy, members, Std.ExtTreeMap.contains_iff_mem, h, if_true, List.getElem?_map]
  cases w.groups[group]? <;> rfl

end World

end Barrage
