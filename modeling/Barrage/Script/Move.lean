import Barrage.Plane.Vec

/-!
# Movement entries of a routine

What the author of a routine writes down about its movements. Times are counted in frames. A kind
of entry that the library does not know is a value of its own, so that it can be skipped with a
warning.
-/

namespace Barrage

/-- A range of integers as it was written, its ends in either order. -/
structure Range where
  /-- The end written first. -/
  first : Int64
  /-- The end written second. -/
  second : Int64
  deriving DecidableEq

namespace Range

/-- The smaller end. -/
def lo (r : Range) : Int64 := if r.first ≤ r.second then r.first else r.second

/-- The larger end. -/
def hi (r : Range) : Int64 := if r.first ≤ r.second then r.second else r.first

end Range

/-- A movement entry of a routine. -/
inductive MoveScript (K : Type) where
  /-- The given kinematics at the given times; the enemy may leave its limits. -/
  | fixed (times : List Nat) (velocity acceleration : Vec K)
  /-- A velocity drawn from ranges at each of the given times; the enemy keeps to its limits. -/
  | randomized (times : List Nat) (x y : Range) (acceleration : Vec K)
  /-- A halt at the given times. -/
  | stop (times : List Nat)
  /-- A kind that is not known. -/
  | unknown
  deriving DecidableEq

end Barrage
