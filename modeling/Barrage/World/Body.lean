import Barrage.Plane.Rect

/-!
# Bodies

A body is a box with sides along the axes, around its position. A step of time first changes its
velocity and then moves it by the new velocity. A bounded body is brought back inside the borders of
its world, and stops along each axis on which it had to be brought back.
-/

namespace Barrage

/-- A sprite in the world. -/
structure Body (K : Type) where
  sprite : String
  /-- Centre of the box. -/
  position : Vec K
  /-- Half the width and half the height of the box. -/
  half : Vec K
  /-- Velocity, per second. -/
  velocity : Vec K
  /-- Acceleration, per second squared. -/
  acceleration : Vec K
  /-- Whether the body is kept inside the bounds of the world. -/
  bounded : Bool
  deriving DecidableEq

variable {K : Type} [Scalar K]

namespace Body

/-- Width of the box. -/
def width (b : Body K) : K := b.half.x * Scalar.whole 2

/-- Height of the box. -/
def height (b : Body K) : K := b.half.y * Scalar.whole 2

/-- Borders of the box. -/
def rect (b : Body K) : Rect K := .ofMidpoint b.position b.width b.height

/-- Whether the insides of two boxes meet. -/
def overlaps (a b : Body K) : Bool :=
  let dx := Scalar.abs (a.position.x - b.position.x)
  let dy := Scalar.abs (a.position.y - b.position.y)
  decide (dx < a.half.x + b.half.x) && decide (dy < a.half.y + b.half.y)

/-- Position and velocity along one axis, after the position was brought back between two borders.
A body that had to be brought back stops. -/
def confineAxis (position velocity half lo hi : K) : K × K :=
  if position < lo + half then (lo + half, 0)
  else if hi - half < position then (hi - half, 0)
  else (position, velocity)

/-- The body inside a rectangle. -/
def confine (bounds : Rect K) (b : Body K) : Body K :=
  let (x, vx) := confineAxis b.position.x b.velocity.x b.half.x bounds.left bounds.right
  let (y, vy) := confineAxis b.position.y b.velocity.y b.half.y bounds.top bounds.bottom
  { b with position := ⟨x, y⟩, velocity := ⟨vx, vy⟩ }

/-- The body `dt` seconds later. The new velocity moves it. -/
def step (bounds : Rect K) (dt : K) (b : Body K) : Body K :=
  let velocity := b.velocity.add (b.acceleration.scale dt)
  let moved := { b with velocity, position := b.position.add (velocity.scale dt) }
  if b.bounded then moved.confine bounds else moved

end Body

end Barrage
