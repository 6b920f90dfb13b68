import Barrage.Plane.Limits
import Barrage.World.Body

/-!
# Moving a body within limits

Each axis is checked on its own. Where a displacement does not fit, the body is moved flush against
the border it would have crossed.
-/

namespace Barrage

variable {K : Type} [Scalar K]

/-- Checks a displacement of a body along the first axis. -/
def Limits.checkX (l : Limits K) (b : Body K) (dx : K) : AxisCheck K :=
  checkAxis b.position.x b.half.x dx l.left l.right

/-- Checks a displacement of a body along the second axis. -/
def Limits.checkY (l : Limits K) (b : Body K) (dy : K) : AxisCheck K :=
  checkAxis b.position.y b.half.y dy l.top l.bottom

/-- Along which axes a displacement fits. -/
structure AxisMoves where
  /-- It fits along the first axis. -/
  x : Bool
  /-- It fits along the second axis. -/
  y : Bool
  deriving DecidableEq, Repr

/-- Moves a body by a displacement without crossing the limits. -/
def Body.moveWithin (b : Body K) (l : Limits K) (delta : Vec K) (mode : MoveMode) :
    AxisMoves × Body K :=
  let x := l.checkX b delta.x
  let y := l.checkY b delta.y
  let position : Vec K :=
    ⟨b.position.x + x.shift delta.x mode, b.position.y + y.shift delta.y mode⟩
  (⟨x.possible, y.possible⟩, { b with position })

end Barrage
