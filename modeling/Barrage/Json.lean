import Barrage.Number.Scalar

/-!
# JSON values

Content is authored as JSON. An integer that fits sixty-four bits, signed or unsigned, is kept apart
from the other numbers, which are scalars. An object holds each key once.
-/

namespace Barrage

/-- A JSON value with scalars of type `K`. -/
inductive Json (K : Type) where
  | null
  | bool (b : Bool)
  /-- An integer of at most sixty-four bits. -/
  | int (i : Int)
  /-- Any other number. -/
  | real (x : K)
  | str (s : String)
  | arr (items : List (Json K))
  | obj (members : List (String × Json K))

namespace Json

variable {K : Type}

/-- The members of an object with one more. A key that is already there gets the new value. -/
def insertMember (members : List (String × Json K)) (key : String) (value : Json K) :
    List (String × Json K) :=
  if members.any (·.1 == key) then members.map fun m => if m.1 == key then (key, value) else m
  else members ++ [(key, value)]

/-- The object with the given members; of several with one key, the last one counts. -/
def ofMembers (members : List (String × Json K)) : Json K :=
  .obj (members.foldl (fun acc m => insertMember acc m.1 m.2) [])

/-- A number of the simulation as JSON, which cannot express numbers that are not finite. -/
def ofScalar [Scalar K] (x : K) : Json K := if Scalar.isFinite x then .real x else .null

/-- A natural number as JSON. -/
def ofNat (n : Nat) : Json K := .int (Int.ofNat n)

/-- A value that may be missing, as JSON. -/
def ofOption {α : Type} (write : α → Json K) : Option α → Json K
  | none => .null
  | some a => write a

/-- A list as JSON. -/
def ofList {α : Type} (write : α → Json K) (items : List α) : Json K := .arr (items.map write)

end Json

end Barrage
