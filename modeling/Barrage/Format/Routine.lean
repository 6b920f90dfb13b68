import Barrage.Script.Sheet
import Barrage.Format.Shot

/-!
# JSON form of routines

The kinds of moves are `Fixed`, `Randomized` and `Stop`, and the kinds of patterns are `ShotArray`,
`ShotRow`, `ShotCircle` and `ShotTwister`. Any other kind is read as the unknown one, whatever the
object holds beside it. Rows and circles have the members of their timing among their own, so they
are objects only.
-/

namespace Barrage

variable {K : Type} [Scalar K]

/-- A list of times. -/
def timesOfJson? (j : Json K) : Option (List Nat) := j.list? Json.nat32?

/-- A list of times in JSON. -/
def timesToJson (times : List Nat) : Json K := .ofList Json.ofNat times

/-- A range is a list of two integers. -/
def Range.ofJson? (j : Json K) : Option Range :=
  (j.pair? Json.int64?).map fun (a, b) => ⟨Int64.ofInt a, Int64.ofInt b⟩

/-- A range in JSON. -/
def Range.toJson (r : Range) : Json K := .arr [.int r.first.toInt, .int r.second.toInt]

/-- A kind that is not known: by position, it stands alone. -/
def unknownKind? {α : Type} (unknown : α) (f : Json.Fields K) : Option α :=
  (f.atMost? 0).map fun _ => unknown

namespace MoveScript

/-- The fields of a fixed move. -/
def fixedOfFields? (f : Json.Fields K) : Option (MoveScript K) := do
  let f ← f.atMost? 5
  let times ← f.required 0 "times" timesOfJson?
  let ax ← f.withDefault 1 "x_acceleration" 0 Json.scalar?
  let ay ← f.withDefault 2 "y_acceleration" 0 Json.scalar?
  let vx ← f.withDefault 3 "x_velo" 0 Json.scalar?
  let vy ← f.withDefault 4 "y_velo" 0 Json.scalar?
  return .fixed times ⟨vx, vy⟩ ⟨ax, ay⟩

/-- The fields of a randomized move. -/
def randomizedOfFields? (f : Json.Fields K) : Option (MoveScript K) := do
  let f ← f.atMost? 5
  let times ← f.required 0 "times" timesOfJson?
  let x ← f.required 1 "x_velo_range" Range.ofJson?
  let y ← f.required 2 "y_velo_range" Range.ofJson?
  let ax ← f.withDefault 3 "x_acceleration" 0 Json.scalar?
  let ay ← f.withDefault 4 "y_acceleration" 0 Json.scalar?
  return .randomized times x y ⟨ax, ay⟩

/-- The fields of a stop. -/
def stopOfFields? (f : Json.Fields K) : Option (MoveScript K) := do
  let f ← f.atMost? 1
  return .stop (← f.required 0 "times" timesOfJson?)

/-- A move from JSON. -/
def ofJson? (j : Json K) : Option (MoveScript K) := do
  match ← j.tagged? with
  | ("Fixed", f) => fixedOfFields? f
  | ("Randomized", f) => randomizedOfFields? f
  | ("Stop", f) => stopOfFields? f
  | (_, f) => unknownKind? .unknown f

/-- A move in JSON. -/
def toJson : MoveScript K → Json K
  | fixed times v a => .obj [("type", .str "Fixed"), ("times", timesToJson times),
      ("x_acceleration", .ofScalar a.x), ("y_acceleration", .ofScalar a.y),
      ("x_velo", .ofScalar v.x), ("y_velo", .ofScalar v.y)]
  | randomized times x y a => .obj [("type", .str "Randomized"), ("times", timesToJson times),
      ("x_velo_range", x.toJson), ("y_velo_range", y.toJson),
      ("x_acceleration", .ofScalar a.x), ("y_acceleration", .ofScalar a.y)]
  | stop times => .obj [("type", .str "Stop"), ("times", timesToJson times)]
  | unknown => .obj [("type", .str "Unknown")]

end MoveScript

/-- The timing of a pattern; every part of it has a default. -/
def Timing.ofFields? (f : Json.Fields K) : Option Timing := do
  return {
    continuous := ← f.withDefault 0 "continuous" false Json.bool?
    times := ← f.withDefault 1 "times" [] timesOfJson?
    interval := ← f.withDefault 2 "interval" 0 Json.nat32?
    start := ← f.withDefault 3 "start_time" 0 Json.nat32? }

/-- The members that give a timing. -/
def Timing.members (t : Timing) : List (String × Json K) :=
  [("continuous", .bool t.continuous), ("times", timesToJson t.times),
    ("interval", .ofNat t.interval), ("start_time", .ofNat t.start)]

/-- The direction of a name; every name but one is the counterclockwise one. -/
def Direction.ofName : String → Direction
  | "clockwise" => .clockwise
  | _ => .counterclockwise

/-- A direction by its name. -/
def Direction.ofJson? (j : Json K) : Option Direction := j.name?.map Direction.ofName

/-- The name of a direction. -/
def Direction.name : Direction → String
  | .clockwise => "clockwise"
  | .counterclockwise => "counterclockwise"

/-- The anchor of a pattern. -/
def patternAnchor? (j : Json K) : Option Anchor := Anchor.ofJsonBy? Json.nestedName? j

/-- The fields of listed shots. -/
def VolleyScript.ofFields? (f : Json.Fields K) : Option (VolleyScript K) := do
  let f ← f.atMost? 3
  return {
    times := ← f.required 0 "times" timesOfJson?
    shots := ← f.required 1 "shots" (Json.list? (Shot.ofJsonBy? Json.nestedName?))
    anchor := ← f.withDefault 2 "anchor" .middle patternAnchor? }

/-- The fields of a row. -/
def RowScript.ofFields? (f : Json.Fields K) : Option (RowScript K) := do
  let f ← f.named?
  return {
    count := ← f.required 0 "nr_shots" Json.int64?
    anchor := ← f.withDefault 1 "anchor" .middle patternAnchor?
    images := ← f.required 2 "shot_ids" (Json.list? Json.str?)
    speeds := ← f.required 3 "speeds" (Json.list? Json.scalar?)
    degrees := ← f.required 4 "degrees" (Json.list? Json.scalar?)
    xStart := ← f.required 5 "x_offset_start" Json.scalar?
    xEnd := ← f.required 6 "x_offset_end" Json.scalar?
    yOffset := ← f.withDefault 7 "y_offset" 0 Json.scalar?
    damage := ← f.withDefault 8 "damage" none (Json.option? Json.nat32?)
    timing := ← Timing.ofFields? f }

/-- The fields of a circle. -/
def CircleScript.ofFields? (f : Json.Fields K) : Option (CircleScript K) := do
  let f ← f.named?
  return {
    count := ← f.required 0 "nr_shots" Json.int64?
    anchor := ← f.withDefault 1 "anchor" .middle patternAnchor?
    images := ← f.required 2 "shot_ids" (Json.list? Json.str?)
    speeds := ← f.required 3 "speeds" (Json.list? Json.scalar?)
    spread := ← f.withDefault 4 "shot_spread" false Json.bool?
    degrees := ← f.withDefault 5 "degrees" [] (Json.list? Json.scalar?)
    offset := ⟨← f.withDefault 6 "x_offset" 0 Json.scalar?,
      ← f.withDefault 7 "y_offset" 0 Json.scalar?⟩
    startDegree := ← f.withDefault 8 "start_degree" none (Json.option? Json.scalar?)
    endDegree := ← f.withDefault 9 "end_degree" none (Json.option? Json.scalar?)
    radius := ← f.withDefault 10 "radius" 0 Json.scalar?
    damage := ← f.withDefault 11 "damage" none (Json.option? Json.nat32?)
    timing := ← Timing.ofFields? f }

/-- The fields of a sweep. -/
def TwisterScript.ofFields? (f : Json.Fields K) : Option (TwisterScript K) := do
  let f ← f.atMost? 15
  return {
    anchor := ← f.withDefault 0 "anchor" .middle patternAnchor?
    offset := ⟨← f.withDefault 1 "x_offset" 0 Json.scalar?,
      ← f.withDefault 2 "y_offset" 0 Json.scalar?⟩
    speeds := ← f.required 3 "speeds" (Json.list? Json.scalar?)
    startDegree := ← f.required 4 "start_degree" Json.scalar?
    finishDegree := ← f.required 5 "finish_degree" Json.scalar?
    direction := ← f.withDefault 6 "direction" .counterclockwise fun j =>
      j.nestedName?.map Direction.ofName
    step := ← f.required 7 "degree_offset" Json.scalar?
    images := ← f.required 8 "shot_ids" (Json.list? Json.str?)
    start := ← f.withDefault 9 "start_time" 0 Json.nat32?
    interval := ← f.withDefault 10 "time_interval" 0 Json.nat32?
    radius := ← f.withDefault 11 "radius" 0 Json.scalar?
    continuous := ← f.withDefault 12 "continuous" false Json.bool?
    pause := ← f.withDefault 13 "repeat_interval" 0 Json.nat32?
    damage := ← f.withDefault 14 "damage" none (Json.option? Json.nat32?) }

namespace PatternScript

/-- A pattern from JSON. -/
def ofJson? (j : Json K) : Option (PatternScript K) := do
  match ← j.tagged? with
  | ("ShotArray", f) => (VolleyScript.ofFields? f).map .volley
  | ("ShotRow", f) => (RowScript.ofFields? f).map .row
  | ("ShotCircle", f) => (CircleScript.ofFields? f).map .circle
  | ("ShotTwister", f) => (TwisterScript.ofFields? f).map .twister
  | (_, f) => unknownKind? .unknown f

/-- The members of a pattern beside its kind. -/
def members : PatternScript K → List (String × Json K)
  | volley v => [("times", timesToJson v.times), ("shots", .ofList Shot.toJson v.shots),
      ("anchor", v.anchor.toJson)]
  | row r => [("nr_shots", .int r.count), ("anchor", r.anchor.toJson),
      ("shot_ids", .ofList Json.str r.images), ("speeds", .ofList Json.ofScalar r.speeds),
      ("degrees", .ofList Json.ofScalar r.degrees), ("x_offset_start", .ofScalar r.xStart),
      ("x_offset_end", .ofScalar r.xEnd), ("y_offset", .ofScalar r.yOffset),
      ("damage", .ofOption Json.ofNat r.damage)] ++ r.timing.members
  | circle c => [("nr_shots", .int c.count), ("anchor", c.anchor.toJson),
      ("shot_ids", .ofList Json.str c.images), ("speeds", .ofList Json.ofScalar c.speeds),
      ("shot_spread", .bool c.spread), ("degrees", .ofList Json.ofScalar c.degrees),
      ("x_offset", .ofScalar c.offset.x), ("y_offset", .ofScalar c.offset.y),
      ("start_degree", .ofOption Json.ofScalar c.startDegree),
      ("end_degree", .ofOption Json.ofScalar c.endDegree), ("radius", .ofScalar c.radius),
      ("damage", .ofOption Json.ofNat c.damage)] ++ c.timing.members
  | twister t => [("anchor", t.anchor.toJson), ("x_offset", .ofScalar t.offset.x),
      ("y_offset", .ofScalar t.offset.y), ("speeds", .ofList Json.ofScalar t.speeds),
      ("start_degree", .ofScalar t.startDegree), ("finish_degree", .ofScalar t.finishDegree),
      ("direction", .str t.direction.name), ("degree_offset", .ofScalar t.step),
      ("shot_ids", .ofList Json.str t.images), ("start_time", .ofNat t.start),
      ("time_interval", .ofNat t.interval), ("radius", .ofScalar t.radius),
      ("continuous", .bool t.continuous), ("repeat_interval", .ofNat t.pause),
      ("damage", .ofOption Json.ofNat t.damage)]
  | unknown => []

/-- A pattern in JSON. -/
def toJson (p : PatternScript K) : Json K := .obj (("type", .str p.kind) :: p.members)

end PatternScript

namespace RoutineScript

/-- A routine from JSON. -/
def ofJson? (j : Json K) : Option (RoutineScript K) := do
  let f ← j.record? 6
  return {
    name := ← f.required 0 "name" Json.str?
    loops := ← f.withDefault 1 "loops" false Json.bool?
    duration := ← f.required 2 "duration" Json.nat32?
    hitPoints := ← f.withDefault 3 "hp" none (Json.option? Json.nat32?)
    moves := ← f.withDefault 4 "moves" [] (Json.list? MoveScript.ofJson?)
    patterns := ← f.withDefault 5 "shots" [] (Json.list? PatternScript.ofJson?) }

/-- A routine in JSON. -/
def toJson (r : RoutineScript K) : Json K :=
  .obj [("name", .str r.name), ("loops", .bool r.loops), ("duration", .ofNat r.duration),
    ("hp", .ofOption Json.ofNat r.hitPoints), ("moves", .ofList MoveScript.toJson r.moves),
    ("shots", .ofList PatternScript.toJson r.patterns)]

end RoutineScript

end Barrage
