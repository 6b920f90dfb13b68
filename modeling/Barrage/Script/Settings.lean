import Barrage.Plane.Limits

/-!
# Settings

What can be set for a fight beside its content.
-/

namespace Barrage

/-- The settings of a fight. -/
structure Settings (K : Type) where
  /-- Extents of the screen. -/
  viewport : Size K
  /-- Seconds per frame. -/
  dt : K
  seed : Nat
  /-- Where the player starts. -/
  playerPlace : Place K
  /-- Where enemies appear. -/
  enemyPlace : Place K
  /-- The part of the screen that a boss keeps to. -/
  bossLimits : Limits K
  maxLives : Int
  /-- Energy gained at a time. -/
  energyGain : Nat
  /-- Frames between two gains. -/
  energyInterval : Nat
  /-- Length of a jump by the blink special. -/
  blinkDistance : K
  /-- Size of a sprite that the table of sizes does not hold. -/
  spriteSize : Size K
  /-- Damage of a player bullet that does not say. -/
  shotDamage : Nat
  deriving DecidableEq

/-- The settings of a fight that overrides none of them. -/
def Settings.standard {K : Type} [Scalar K] : Settings K where
  viewport := ⟨Scalar.whole 1920, Scalar.whole 1080⟩
  dt := Scalar.whole 1 / Scalar.whole 60
  seed := 0x5EED
  playerPlace := ⟨Scalar.whole 5 / Scalar.whole 10, Scalar.whole 9 / Scalar.whole 10⟩
  enemyPlace := ⟨Scalar.whole 5 / Scalar.whole 10, Scalar.whole 1 / Scalar.whole 10⟩
  bossLimits :=
    ⟨some 0, some (Scalar.whole 1), some 0, some (Scalar.whole 42 / Scalar.whole 100)⟩
  maxLives := 99
  energyGain := 2
  energyInterval := 6
  blinkDistance := Scalar.whole 300
  spriteSize := ⟨Scalar.whole 32, Scalar.whole 32⟩
  shotDamage := 1

end Barrage
