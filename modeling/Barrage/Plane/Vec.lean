import Barrage.Number.Scalar

/-!
# Vectors in the plane of the screen

Positions, velocities and accelerations. The first axis points right and the second one down.
-/

namespace Barrage

/-- A vector on the screen. -/
structure Vec (K : Type) where
  /-- Component to the right. -/
  x : K
  /-- Component down the screen. -/
  y : K
  deriving DecidableEq

namespace Vec

variable {K : Type} [Scalar K]

/-- No displacement. -/
def zero : Vec K := ⟨0, 0⟩

/-- Sum of two vectors. -/
def add (a b : Vec K) : Vec K := ⟨a.x + b.x, a.y + b.y⟩

/-- Difference of two vectors. -/
def sub (a b : Vec K) : Vec K := ⟨a.x - b.x, a.y - b.y⟩

/-- The vector in the opposite direction. -/
def neg (a : Vec K) : Vec K := ⟨-a.x, -a.y⟩

/-- A vector stretched by a factor. -/
def scale (a : Vec K) (factor : K) : Vec K := ⟨a.x * factor, a.y * factor⟩

/-- Square of the length, which needs no root. -/
def lengthSquared (a : Vec K) : K := a.x * a.x + a.y * a.y

/-- Length of a vector. -/
def length (a : Vec K) : K := Scalar.sqrt a.lengthSquared

/-- Distance between two points. -/
def distance (a b : Vec K) : K := (a.sub b).length

/-- Both components differ by at most `tolerance`. -/
def near (a b : Vec K) (tolerance : K) : Bool :=
  decide (Scalar.abs (a.x - b.x) ≤ tolerance) && decide (Scalar.abs (a.y - b.y) ≤ tolerance)

/-- Both components are the same number. -/
def same (a b : Vec K) : Bool := Scalar.same a.x b.x && Scalar.same a.y b.y

end Vec

end Barrage
