import Barrage.Plane.Rect

/-!
# Shots

What a pattern or a weapon fires: an image, a velocity, and a place relative to the sprite that
fires it. The place is measured from an edge of the sprite or from its centre.
-/

namespace Barrage

variable {K : Type} [Scalar K]

/-- Where on a sprite an offset starts. -/
inductive Anchor where
  /-- Middle of the upper edge. -/
  | top
  /-- Middle of the lower edge. -/
  | bottom
  /-- Middle of the left edge. -/
  | left
  /-- Middle of the right edge. -/
  | right
  /-- Centre of the sprite. -/
  | middle
  deriving DecidableEq, Repr

/-- The way from a sprite's centre to an anchor, for half its size. -/
def Anchor.shift (half : Vec K) : Anchor → Vec K
  | .top => ⟨0, -half.y⟩
  | .bottom => ⟨0, half.y⟩
  | .left => ⟨-half.x, 0⟩
  | .right => ⟨half.x, 0⟩
  | .middle => .zero

/-- The two forms in which content gives a velocity. -/
inductive ShotVelocity (K : Type) where
  | components (x y : K)
  | polar (speed degrees : K)
  deriving DecidableEq

namespace ShotVelocity

/-- The velocity itself. -/
def toVec : ShotVelocity K → Vec K
  | components x y => ⟨x, y⟩
  | polar speed degrees => .polar speed degrees

/-- The same velocity by components. -/
def resolved (v : ShotVelocity K) : ShotVelocity K :=
  let w := v.toVec
  components w.x w.y

end ShotVelocity

/-- One shot. -/
structure Shot (K : Type) where
  image : String
  offset : Vec K
  /-- Where the offset starts. -/
  anchor : Anchor
  /-- Damage dealt on a hit, if the shot says. -/
  damage : Option Nat
  velocity : ShotVelocity K
  deriving DecidableEq

/-- Where a shot appears next to a sprite at `position` with half the size `half`. -/
def Shot.spawnPoint (shot : Shot K) (position half : Vec K) : Vec K :=
  (position.add shot.offset).add (shot.anchor.shift half)

end Barrage
