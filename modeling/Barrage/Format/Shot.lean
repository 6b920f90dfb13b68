import Barrage.Json.Decode
import Barrage.Script.Shot

/-!
# JSON form of shots

A shot is an object. Its velocity has no member of its own: the members `x_velo` and `y_velo` give
it by components if both are numbers, and otherwise `speed` and `degree` give it by speed and angle.

Names are read by another rule inside a pattern than outside of one, so the readers of what occurs
in both places, `Anchor.ofJsonBy?` and `Shot.ofJsonBy?`, are given the reader of names.
-/

namespace Barrage

variable {K : Type} [Scalar K]

/-- The anchor of a name; every name but four is the centre. -/
def Anchor.ofName : String → Anchor
  | "Top" => .top
  | "Bottom" => .bottom
  | "Left" => .left
  | "Right" => .right
  | _ => .middle

/-- An anchor by its name, read as `name?` says. -/
def Anchor.ofJsonBy? (name? : Json K → Option String) (j : Json K) : Option Anchor :=
  (name? j).map Anchor.ofName

/-- An anchor by its name. -/
def Anchor.ofJson? (j : Json K) : Option Anchor := Anchor.ofJsonBy? Json.name? j

/-- The name of an anchor. -/
def Anchor.name : Anchor → String
  | .top => "Top"
  | .bottom => "Bottom"
  | .left => "Left"
  | .right => "Right"
  | .middle => "Middle"

/-- An anchor in JSON. -/
def Anchor.toJson (a : Anchor) : Json K := .str a.name

namespace ShotVelocity

/-- A velocity from the members of an object. -/
def ofFields? (f : Json.Fields K) : Option (ShotVelocity K) :=
  match f.required 0 "x_velo" Json.scalar?, f.required 1 "y_velo" Json.scalar? with
  | some x, some y => some (.components x y)
  | _, _ => do
    return .polar (← f.required 0 "speed" Json.scalar?) (← f.required 1 "degree" Json.scalar?)

/-- A velocity from an object. -/
def ofJson? (j : Json K) : Option (ShotVelocity K) := j.object?.bind ofFields?

/-- The members that give a velocity. -/
def members : ShotVelocity K → List (String × Json K)
  | components x y => [("x_velo", .ofScalar x), ("y_velo", .ofScalar y)]
  | polar speed degrees => [("speed", .ofScalar speed), ("degree", .ofScalar degrees)]

/-- A velocity in JSON. -/
def toJson (v : ShotVelocity K) : Json K := .obj v.members

end ShotVelocity

namespace Shot

/-- A shot from an object, with names read as `name?` says. -/
def ofJsonBy? (name? : Json K → Option String) (j : Json K) : Option (Shot K) := do
  let f ← j.object?
  return {
    image := ← f.required 0 "shot_id" Json.str?
    offset := ⟨← f.withDefault 1 "x_offset" 0 Json.scalar?,
      ← f.withDefault 2 "y_offset" 0 Json.scalar?⟩
    anchor := ← f.withDefault 3 "anchor" .middle (Anchor.ofJsonBy? name?)
    damage := ← f.withDefault 4 "damage" none (Json.option? Json.nat32?)
    velocity := ← ShotVelocity.ofFields? f }

/-- A shot from an object. -/
def ofJson? (j : Json K) : Option (Shot K) := ofJsonBy? Json.name? j

/-- A shot in JSON; damage that is not given is left out. -/
def toJson (s : Shot K) : Json K :=
  .obj ([("shot_id", .str s.image), ("x_offset", .ofScalar s.offset.x),
      ("y_offset", .ofScalar s.offset.y), ("anchor", s.anchor.toJson)]
    ++ (s.damage.map fun d => ("damage", Json.ofNat d)).toList ++ s.velocity.members)

end Shot

end Barrage
