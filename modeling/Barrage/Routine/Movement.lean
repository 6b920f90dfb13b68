import Std.Data.ExtTreeMap
import Barrage.Script.Move
import Barrage.Prng

/-!
# Movement of an enemy

A routine holds a table of maneuvers by time. A maneuver either gives a movement outright or draws
its velocity from two ranges, the first axis before the second one.
-/

namespace Barrage

variable {K : Type} [Scalar K]

/-- What an enemy does on a frame. -/
structure Movement (K : Type) where
  velocity : Vec K
  acceleration : Vec K
  /-- Whether the enemy may leave its limits. -/
  mayLeave : Bool
  deriving DecidableEq

namespace Movement

/-- No motion, and no limits. -/
def still : Movement K := ⟨.zero, .zero, true⟩

/-- The movement without its part along the first axis. -/
def haltX (m : Movement K) : Movement K :=
  { m with velocity := ⟨0, m.velocity.y⟩, acceleration := ⟨0, m.acceleration.y⟩ }

/-- The movement without its part along the second axis. -/
def haltY (m : Movement K) : Movement K :=
  { m with velocity := ⟨m.velocity.x, 0⟩, acceleration := ⟨m.acceleration.x, 0⟩ }

/-- The displacement in the next step of the world. -/
def displacement (m : Movement K) (dt : K) : Vec K :=
  ⟨(m.velocity.x + m.acceleration.x * dt) * dt, (m.velocity.y + m.acceleration.y * dt) * dt⟩

end Movement

/-- An entry of the table of movements. -/
inductive Maneuver (K : Type) where
  | fixed (m : Movement K)
  /-- A velocity drawn when the entry becomes current. -/
  | drawn (x y : Range) (acceleration : Vec K)
  deriving DecidableEq

/-- The movement of a maneuver, and the generator after its draws. -/
def Maneuver.resolve (g : Prng) : Maneuver K → Movement K × Prng
  | fixed m => (m, g)
  | drawn x y acceleration =>
    let (vx, g) := g.between x.lo x.hi
    let (vy, g) := g.between y.lo y.hi
    (⟨⟨Scalar.ofInt vx.toInt, Scalar.ofInt vy.toInt⟩, acceleration, false⟩, g)

namespace MoveScript

/-- The maneuver of an entry, with the times at which it becomes current. -/
def maneuver? : MoveScript K → Option (List Nat × Maneuver K)
  | fixed times velocity acceleration => some (times, .fixed ⟨velocity, acceleration, true⟩)
  | randomized times x y acceleration => some (times, .drawn x y acceleration)
  | stop times => some (times, .fixed .still)
  | unknown => none

end MoveScript

/-- Maneuvers by the times at which they become current. -/
abbrev MoveTable (K : Type) := Std.ExtTreeMap Nat (Maneuver K)

namespace MoveTable

/-- Puts a maneuver into the table; it takes the place of earlier ones at its times. -/
def insertAt (table : MoveTable K) (times : List Nat) (maneuver : Maneuver K) : MoveTable K :=
  times.foldl (fun t time => t.insert time maneuver) table

/-- Puts an entry into the table. -/
def add (table : MoveTable K) (entry : MoveScript K) : MoveTable K :=
  match entry.maneuver? with
  | none => table
  | some (times, maneuver) => table.insertAt times maneuver

omit [Scalar K] in
/-- A maneuver is put down at all the times that are given. -/
theorem getElem?_insertAt (table : MoveTable K) (times : List Nat) (maneuver : Maneuver K)
    (time : Nat) :
    (table.insertAt times maneuver)[time]? =
      if time ∈ times then some maneuver else table[time]? := by
  unfold insertAt
  induction times generalizing table with
  | nil => simp
  | cons first rest ih =>
    rw [List.foldl_cons, ih, Std.ExtTreeMap.getElem?_insert]
    simp only [Std.LawfulEqOrd.compare_eq_iff_eq, List.mem_cons, @eq_comm _ time first]
    by_cases hr : time ∈ rest <;> by_cases hf : first = time <;> simp [hr, hf]

end MoveTable

end Barrage
