/-!
# Scalars

The simulation is written once, over any type `K` of scalars. It runs at the IEEE 754 binary64
numbers (`Barrage.Number.Binary64`), and its geometric facts are stated at ordered fields, where the
same definitions compute without rounding. A scalar type is asked for operations only:
laws belong to the instances.
-/

namespace Barrage

/-- What the simulation needs of its numbers. -/
class Scalar (K : Type) extends Zero K, Add K, Sub K, Mul K, Div K, Neg K, LT K, LE K where
  /-- The strict order is decided, so that a frame can branch on it. -/
  decLt : (a b : K) → Decidable (a < b)
  /-- The weak order is decided. It is not the negation of the strict one: a scalar may be
  incomparable with every scalar. -/
  decLe : (a b : K) → Decidable (a ≤ b)
  /-- The scalar nearest to an integer. -/
  ofInt : Int → K
  sqrt : K → K
  /-- Sine of an angle in radians. -/
  sin : K → K
  /-- Cosine of an angle in radians. -/
  cos : K → K
  /-- Half a turn in radians. -/
  pi : K
  /-- The largest integer that is not above a finite scalar. -/
  floor? : K → Option Int
  /-- Neither infinite nor undefined. -/
  isFinite : K → Bool
  /-- A word that identifies the scalar, for fingerprints. -/
  bits : K → UInt64

namespace Scalar

variable {K : Type} [Scalar K]

instance instDecidableLT (a b : K) : Decidable (a < b) := decLt a b

instance instDecidableLE (a b : K) : Decidable (a ≤ b) := decLe a b

/-- A whole scalar. -/
abbrev whole (n : Nat) : K := ofInt (Int.ofNat n)

/-- Magnitude: a scalar below zero is negated. -/
def abs (x : K) : K := if x < 0 then -x else x

/-- Equality as the order sees it: a scalar that is incomparable with itself equals nothing. -/
def same (x y : K) : Bool := decide (x ≤ y) && decide (y ≤ x)

end Scalar

end Barrage
