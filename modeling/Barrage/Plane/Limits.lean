import Barrage.Plane.Rect

/-!
# Limits of movement

Borders that a box may not cross. Each of the four may be open. A displacement is checked along one
axis at a time, against the border it moves toward.
-/

namespace Barrage

variable {K : Type} [Scalar K]

/-- Four borders, each of which may be open. -/
structure Limits (K : Type) where
  left : Option K
  right : Option K
  top : Option K
  bottom : Option K
  deriving DecidableEq

namespace Limits

/-- All borders are open. -/
def unbounded : Limits K := ⟨none, none, none, none⟩

/-- The borders of a rectangle. -/
def ofRect (r : Rect K) : Limits K := ⟨some r.left, some r.right, some r.top, some r.bottom⟩

/-- Borders given in parts of a screen. -/
def onScreen (parts : Limits K) (width height : K) : Limits K where
  left := parts.left.map (· * width)
  right := parts.right.map (· * width)
  top := parts.top.map (· * height)
  bottom := parts.bottom.map (· * height)

/-- Whether all borders are open. -/
def isUnbounded (l : Limits K) : Bool :=
  l.left.isNone && l.right.isNone && l.top.isNone && l.bottom.isNone

end Limits

/-- What a check along one axis says. -/
structure AxisCheck (K : Type) where
  /-- The whole displacement fits. -/
  possible : Bool
  /-- The displacement up to the border ahead, if there is one. -/
  room : Option K
  deriving DecidableEq

/-- Checks a displacement along one axis against the border it moves toward. -/
def checkAxis (position half delta : K) (lo hi : Option K) : AxisCheck K :=
  if delta < 0 then
    match lo with
    | some lo =>
      let room := -(position - half - lo)
      ⟨decide (room ≤ delta), some room⟩
    | none => ⟨true, none⟩
  else if 0 < delta then
    match hi with
    | some hi =>
      let room := hi - (position + half)
      ⟨decide (delta ≤ room), some room⟩
    | none => ⟨true, none⟩
  else ⟨true, none⟩

/-- What happens to a displacement that fits. -/
inductive MoveMode where
  /-- It stems from the velocity of the body, which carries it out later. -/
  | velocity
  /-- It is carried out at once. -/
  | teleport
  deriving DecidableEq, Repr

/-- The change of position that follows from a check. -/
def AxisCheck.shift (check : AxisCheck K) (delta : K) (mode : MoveMode) : K :=
  match check.possible, check.room, mode with
  | false, some room, _ => room
  | true, _, .teleport => delta
  | _, _, _ => 0

end Barrage
