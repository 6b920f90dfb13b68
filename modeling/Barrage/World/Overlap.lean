import Barrage.World.Basic

/-!
# What overlaps in a world

Queries for overlapping bodies, and the bodies that are off the screen. The members of a group come
in the order in which they joined it.
-/

namespace Barrage

variable {K : Type} [Scalar K]

namespace World

/-- The members of a group that overlap a body, the body itself left out. -/
@[specialize]
def overlapping (w : World K) (id : BodyId) (group : GroupId) : List BodyId :=
  match w.bodies[id]? with
  | none => []
  | some b => (w.members group).filter fun other =>
      other != id && w.bodies[other]?.any b.overlaps

/-- The overlapping pairs of two groups, in the order of the first group and then of the second. -/
@[specialize]
def overlapPairs (w : World K) (a b : GroupId) : List (BodyId × BodyId) :=
  (w.members a).flatMap fun first => (w.overlapping first b).map fun second => (first, second)

end World

end Barrage
