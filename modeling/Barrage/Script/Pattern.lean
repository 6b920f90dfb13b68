import Barrage.Script.Shot

/-!
# Shot patterns of a routine

What the author of a routine writes down about its shots: listed shots, rows, circles and sweeps. A
kind of pattern that the library does not know is a value of its own, so that it can be skipped with
a warning.
-/

namespace Barrage

/-- When a row or a circle is fired. -/
structure Timing where
  /-- From `start` on, again and again up to the end of the routine. -/
  continuous : Bool
  /-- The times, when it is not continuous. -/
  times : List Nat
  /-- Frames between two firings, when it is continuous. -/
  interval : Nat
  /-- The first time, when it is continuous. -/
  start : Nat
  deriving DecidableEq

/-- Listed shots at listed times. -/
structure VolleyScript (K : Type) where
  /-- The times at which each shot is fired. -/
  times : List Nat
  /-- The shots; their own anchors are not used. -/
  shots : List (Shot K)
  anchor : Anchor
  deriving DecidableEq

/-- Shots at even distances along a horizontal line. -/
structure RowScript (K : Type) where
  count : Int
  anchor : Anchor
  /-- Keys of the images, used in turn. -/
  images : List String
  /-- Speeds, used in turn. -/
  speeds : List K
  /-- Angles of travel in degrees, used in turn. -/
  degrees : List K
  /-- Offset of the first shot along the line. -/
  xStart : K
  /-- Offset at which the line ends. -/
  xEnd : K
  /-- Offset of the line down the screen. -/
  yOffset : K
  damage : Option Nat
  timing : Timing
  deriving DecidableEq

/-- Shots at even angles on a circle. -/
structure CircleScript (K : Type) where
  count : Int
  anchor : Anchor
  /-- Keys of the images, used in turn. -/
  images : List String
  /-- Speeds, used in turn. -/
  speeds : List K
  /-- Each shot travels away from the centre. -/
  spread : Bool
  /-- Angles of travel in degrees, used in turn unless the shots spread. -/
  degrees : List K
  offset : Vec K
  /-- Angle of the first shot, if it is not zero. -/
  startDegree : Option K
  /-- Angle at which the circle ends, if it is not a whole turn. -/
  endDegree : Option K
  radius : K
  damage : Option Nat
  timing : Timing
  deriving DecidableEq

/-- The sense in which a sweep turns. -/
inductive Direction where
  /-- Toward larger angles. -/
  | clockwise
  /-- Toward smaller angles. -/
  | counterclockwise
  deriving DecidableEq, Repr

/-- A sweep of single shots, each at its own angle and time. -/
structure TwisterScript (K : Type) where
  anchor : Anchor
  offset : Vec K
  /-- Speeds, used in turn. -/
  speeds : List K
  /-- Angle of the first shot. -/
  startDegree : K
  /-- Angle at which the sweep ends. -/
  finishDegree : K
  direction : Direction
  /-- Angle between two shots. -/
  step : K
  /-- Keys of the images, used in turn. -/
  images : List String
  /-- Time of the first shot. -/
  start : Nat
  /-- Frames between two shots. -/
  interval : Nat
  /-- Distance from the centre at which a shot appears. -/
  radius : K
  /-- The sweep is repeated up to the end of the routine. -/
  continuous : Bool
  /-- Frames between two sweeps, when they are repeated. -/
  pause : Nat
  damage : Option Nat
  deriving DecidableEq

/-- A shot pattern of a routine. -/
inductive PatternScript (K : Type) where
  | volley (v : VolleyScript K)
  | row (r : RowScript K)
  | circle (c : CircleScript K)
  | twister (t : TwisterScript K)
  | unknown
  deriving DecidableEq

/-- The name of a pattern's kind. -/
def PatternScript.kind {K : Type} : PatternScript K → String
  | volley _ => "ShotArray"
  | row _ => "ShotRow"
  | circle _ => "ShotCircle"
  | twister _ => "ShotTwister"
  | unknown => "Unknown"

end Barrage
