import Mathlib.Algebra.Order.Field.Basic
import Mathlib.Algebra.Order.Field.Rat
import Barrage.Number.Scalar

/-!
# Exact scalars

Over an ordered field the simulation computes without rounding. What a field does not say about
scalars may be anything (`Elementary`): the facts that hold for all of it do not depend on it. So
they hold at the real numbers, and at the rational numbers a fight can be run.
-/

namespace Barrage

/-- What the simulation needs of its numbers besides the laws of an ordered field. -/
class Elementary (K : Type) where
  sqrt : K → K
  sin : K → K
  cos : K → K
  pi : K
  floor? : K → Option Int
  isFinite : K → Bool
  bits : K → UInt64

/-- The scalars of an ordered field. -/
instance (priority := low) Scalar.exact {K : Type} [Field K] [LinearOrder K] [Elementary K] :
    Scalar K where
  decLt _ _ := inferInstance
  decLe _ _ := inferInstance
  ofInt := Int.cast
  sqrt := Elementary.sqrt
  sin := Elementary.sin
  cos := Elementary.cos
  pi := Elementary.pi
  floor? := Elementary.floor?
  isFinite := Elementary.isFinite
  bits := Elementary.bits

/-- A whole scalar is the number itself. -/
theorem Scalar.whole_exact {K : Type} [Field K] [LinearOrder K] [Elementary K] (n : Nat) :
    (Scalar.whole n : K) = n := Int.cast_natCast n

/-- Magnitude is the absolute value. -/
theorem Scalar.abs_exact {K : Type} [Field K] [LinearOrder K] [IsStrictOrderedRing K]
    [Elementary K] (x : K) : Scalar.abs x = |x| := by
  rw [Scalar.abs]
  split
  · next h => exact (abs_of_neg h).symm
  · next h => exact (abs_of_nonneg (not_lt.1 h)).symm

/-- The rational numbers. Angles are counted in half turns, and sine and cosine are right at the
quarters of a turn. -/
instance : Elementary ℚ where
  sqrt x := x
  sin x := if x = 1 / 2 then 1 else if x = 3 / 2 then -1 else 0
  cos x := if x = 0 then 1 else if x = 1 then -1 else 0
  pi := 1
  floor? x := some x.floor
  isFinite _ := true
  bits _ := 0

end Barrage
