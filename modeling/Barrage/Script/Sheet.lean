import Barrage.Script.Move
import Barrage.Script.Pattern

/-!
# Sheets

What is known of the routines, the enemies and the player before a fight, and when enemies arrive.
-/

namespace Barrage

/-- One phase of an enemy. -/
structure RoutineScript (K : Type) where
  name : String
  /-- Whether the routine starts again after its last frame. -/
  loops : Bool
  /-- The last frame. -/
  duration : Nat
  /-- Hit points, if it has some; the routine ends when they are gone. -/
  hitPoints : Option Nat
  moves : List (MoveScript K)
  patterns : List (PatternScript K)
  deriving DecidableEq

/-- The behaviour of an enemy. -/
inductive EnemyKind where
  /-- It keeps to a part of the screen. -/
  | boss
  /-- It moves without limits. -/
  | ordinary
  deriving DecidableEq, Repr

/-- What is known of an enemy before it appears. -/
structure EnemySheet where
  kind : EnemyKind
  image : String
  /-- Names of its routines in the order of play. -/
  routines : List String
  deriving DecidableEq

/-- The weapon of a player. -/
structure WeaponSheet (K : Type) where
  /-- Frames between two volleys. -/
  fireRate : Nat
  /-- The shots of a volley. -/
  shots : List (Shot K)
  /-- Speed of the shots, for information. -/
  bulletSpeed : Option K
  deriving DecidableEq

/-- The speeds of a player. -/
structure Speeds (K : Type) where
  normal : K
  /-- Speed while the slow key is held. -/
  slowed : K
  deriving DecidableEq

/-- The special of a player. -/
structure SpecialSheet where
  name : String
  energyRequired : Nat
  deriving DecidableEq

/-- What is known of the player before a fight. -/
structure PlayerSheet (K : Type) where
  folder : String
  weapon : WeaponSheet K
  speeds : Speeds K
  /-- Frames without harm after a hit. -/
  invincibility : Nat
  /-- Lives at the start. -/
  lives : Int
  special : SpecialSheet
  deriving DecidableEq

/-- One entry of a level's timeline. -/
structure LevelEntry where
  /-- The fight frame on which it happens. -/
  time : Nat
  /-- What kind of thing happens. -/
  kind : String
  /-- Key of the thing it happens to. -/
  subject : String
  deriving DecidableEq

end Barrage
