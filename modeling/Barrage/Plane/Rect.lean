import Barrage.Plane.Vec

/-!
# Angles, rectangles and places on the screen

An angle of zero degrees points down the screen and ninety degrees point right, so that a distance
splits into its sine along the first axis and its cosine along the second.
-/

namespace Barrage

variable {K : Type} [Scalar K]

/-- An angle in degrees as an angle in radians. -/
def radians (degrees : K) : K := degrees * Scalar.pi / Scalar.whole 180

/-- The vector of a given length at an angle in degrees. -/
def Vec.polar (distance degrees : K) : Vec K :=
  let angle := radians degrees
  ⟨distance * Scalar.sin angle, distance * Scalar.cos angle⟩

/-- A rectangle with sides along the axes, given by its borders. -/
structure Rect (K : Type) where
  left : K
  right : K
  top : K
  bottom : K
  deriving DecidableEq

namespace Rect

/-- The rectangle whose upper left corner is `(x, y)`. -/
def ofCorner (x y width height : K) : Rect K :=
  { left := x, right := x + width, top := y, bottom := y + height }

/-- The rectangle around a midpoint. -/
def ofMidpoint (midpoint : Vec K) (width height : K) : Rect K where
  left := midpoint.x - width / Scalar.whole 2
  right := midpoint.x + width / Scalar.whole 2
  top := midpoint.y - height / Scalar.whole 2
  bottom := midpoint.y + height / Scalar.whole 2

/-- Distance between the left and the right border. -/
def width (r : Rect K) : K := r.right - r.left

/-- Distance between the upper and the lower border. -/
def height (r : Rect K) : K := r.bottom - r.top

end Rect

/-- Width and height of a sprite. -/
structure Size (K : Type) where
  /-- Extent along the first axis. -/
  width : K
  /-- Extent along the second axis. -/
  height : K
  deriving DecidableEq

/-- A place on the screen in parts of its width and height. -/
structure Place (K : Type) where
  /-- Part of the width, from the left. -/
  x : K
  /-- Part of the height, from the top. -/
  y : K
  deriving DecidableEq

/-- The point at a place of a screen with the given extents. -/
def Place.onScreen (place : Place K) (width height : K) : Vec K :=
  ⟨place.x * width, place.y * height⟩

end Barrage
