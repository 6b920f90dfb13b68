import Barrage.Script.Sheet

/-!
# Lives and energy

The lives of the player and the energy of the special. Every change is clamped, so nothing here can
fail: lives stay between zero and their bound, and energy between zero and what the special takes.
-/

namespace Barrage

/-- An integer brought between zero and an upper bound. -/
def clampTo (bound i : Int) : Int := max 0 (min i bound)

/-- Lives and energy. -/
structure Status where
  lives : Int
  maxLives : Int
  special : String
  energy : Nat
  energyRequired : Nat
  deriving DecidableEq

namespace Status

/-- The status at the start: no energy, and lives within their bound, which is at least zero. -/
def new (lives maxLives : Int) (special : SpecialSheet) : Status where
  lives := clampTo (max maxLives 0) lives
  maxLives := max maxLives 0
  special := special.name
  energy := 0
  energyRequired := special.energyRequired

/-- Adds lives, or takes some away. -/
def addLives (s : Status) (delta : Int) : Status :=
  { s with lives := clampTo s.maxLives (s.lives + delta) }

/-- Adds energy, or takes some away. -/
def addEnergy (s : Status) (delta : Int) : Status :=
  { s with energy := (clampTo s.energyRequired (s.energy + delta)).toNat }

/-- Whether there is energy enough for the special. -/
def isReady (s : Status) : Bool := s.energy == s.energyRequired

/-- Spends all energy. -/
def clearEnergy (s : Status) : Status := { s with energy := 0 }

/-- Energy over the energy that the special takes. -/
def energyFraction {K : Type} [Scalar K] (s : Status) : K :=
  if s.energyRequired = 0 then Scalar.whole 1
  else Scalar.whole s.energy / Scalar.whole s.energyRequired

/-- Whether no lives are left. -/
def isOver (s : Status) : Bool := decide (s.lives ≤ 0)

/-- Energy stays within what the special takes, whatever is added. -/
theorem energy_addEnergy_le (s : Status) (delta : Int) :
    (s.addEnergy delta).energy ≤ s.energyRequired := by
  simp only [addEnergy, clampTo]
  omega

end Status

end Barrage
