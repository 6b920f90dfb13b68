import Std.Data.ExtTreeMap
import Barrage.Script.Sheet
import Barrage.Script.Settings
import Barrage.Format.Shot

/-!
# JSON form of sheets, timelines, sizes and settings

Each of these is a record. The settings of a fight have a default for every field.
-/

namespace Barrage

variable {K : Type} [Scalar K]

/-- The behaviour of an enemy by its name; every name but one is the ordinary one. -/
def EnemyKind.ofJson? (j : Json K) : Option EnemyKind :=
  j.name?.map fun
    | "boss" => .boss
    | _ => .ordinary

/-- The name of a behaviour. -/
def EnemyKind.name : EnemyKind → String
  | .boss => "boss"
  | .ordinary => "default"

/-- The name of a routine is a record of its own. -/
def routineNameOfJson? (j : Json K) : Option String :=
  (j.record? 1).bind (·.required 0 "name" Json.str?)

/-- The name of a routine in JSON. -/
def routineNameToJson (name : String) : Json K := .obj [("name", .str name)]

namespace EnemySheet

/-- An enemy from JSON. -/
def ofJson? (j : Json K) : Option EnemySheet := do
  let f ← j.record? 3
  return {
    kind := ← f.withDefault 0 "type" .ordinary EnemyKind.ofJson?
    image := ← f.required 1 "id" Json.str?
    routines := ← f.required 2 "routines" (Json.list? routineNameOfJson?) }

/-- An enemy in JSON. -/
def toJson (e : EnemySheet) : Json K :=
  .obj [("type", .str e.kind.name), ("id", .str e.image),
    ("routines", .ofList routineNameToJson e.routines)]

end EnemySheet

namespace WeaponSheet

/-- A weapon from JSON. -/
def ofJson? (j : Json K) : Option (WeaponSheet K) := do
  let f ← j.record? 3
  return {
    fireRate := ← f.required 0 "fire_rate" Json.nat32?
    shots := ← f.required 1 "shots" (Json.list? Shot.ofJson?)
    bulletSpeed := ← f.withDefault 2 "bullet_speed" none (Json.option? Json.scalar?) }

/-- A weapon in JSON. -/
def toJson (w : WeaponSheet K) : Json K :=
  .obj [("fire_rate", .ofNat w.fireRate), ("shots", .ofList Shot.toJson w.shots),
    ("bullet_speed", .ofOption Json.ofScalar w.bulletSpeed)]

end WeaponSheet

/-- Speeds from JSON. -/
def Speeds.ofJson? (j : Json K) : Option (Speeds K) := do
  let f ← j.record? 2
  return ⟨← f.required 0 "normal" Json.scalar?, ← f.required 1 "slowed" Json.scalar?⟩

/-- Speeds in JSON. -/
def Speeds.toJson (s : Speeds K) : Json K :=
  .obj [("normal", .ofScalar s.normal), ("slowed", .ofScalar s.slowed)]

/-- A special from JSON. -/
def SpecialSheet.ofJson? (j : Json K) : Option SpecialSheet := do
  let f ← j.record? 2
  return ⟨← f.required 0 "name" Json.str?, ← f.required 1 "energy_required" Json.nat32?⟩

/-- A special in JSON. -/
def SpecialSheet.toJson (s : SpecialSheet) : Json K :=
  .obj [("name", .str s.name), ("energy_required", .ofNat s.energyRequired)]

namespace PlayerSheet

/-- A player from JSON. -/
def ofJson? (j : Json K) : Option (PlayerSheet K) := do
  let f ← j.record? 6
  return {
    folder := ← f.required 0 "asset_folder" Json.str?
    weapon := ← f.required 1 "weapon" WeaponSheet.ofJson?
    speeds := ← f.required 2 "movement" Speeds.ofJson?
    invincibility := ← f.required 3 "invincibility_window" Json.nat64?
    lives := ← f.required 4 "lives" Json.int32?
    special := ← f.required 5 "special" SpecialSheet.ofJson? }

/-- A player in JSON. -/
def toJson (p : PlayerSheet K) : Json K :=
  .obj [("asset_folder", .str p.folder), ("weapon", p.weapon.toJson),
    ("movement", p.speeds.toJson), ("invincibility_window", .ofNat p.invincibility),
    ("lives", .int p.lives), ("special", p.special.toJson)]

end PlayerSheet

/-- A timeline entry from JSON. -/
def LevelEntry.ofJson? (j : Json K) : Option LevelEntry := do
  let f ← j.record? 3
  return {
    time := ← f.required 0 "time" Json.nat32?
    kind := ← f.required 1 "type" Json.str?
    subject := ← f.required 2 "id" Json.str? }

/-- A timeline entry in JSON. -/
def LevelEntry.toJson (e : LevelEntry) : Json K :=
  .obj [("time", .ofNat e.time), ("type", .str e.kind), ("id", .str e.subject)]

/-- A timeline from JSON. -/
def levelOfJson? (j : Json K) : Option (List LevelEntry) := j.list? LevelEntry.ofJson?

/-- A timeline in JSON. -/
def levelToJson (entries : List LevelEntry) : Json K := .ofList LevelEntry.toJson entries

/-- A size from JSON. -/
def Size.ofJson? (j : Json K) : Option (Size K) := do
  let f ← j.record? 2
  return ⟨← f.required 0 "width" Json.scalar?, ← f.required 1 "height" Json.scalar?⟩

/-- A size in JSON. -/
def Size.toJson (s : Size K) : Json K :=
  .obj [("width", .ofScalar s.width), ("height", .ofScalar s.height)]

/-- Sizes of sprites by the keys of their images. -/
abbrev SizeTable (K : Type) := Std.ExtTreeMap String (Size K)

/-- A table of sizes from an object. -/
def SizeTable.ofJson? : Json K → Option (SizeTable K)
  | .obj members => do
    let sizes ← members.mapM fun (key, j) => return (key, ← Size.ofJson? j)
    return sizes.foldl (fun table entry => table.insert entry.1 entry.2) ∅
  | _ => none

/-- A table of sizes in JSON. -/
def SizeTable.toJson (table : SizeTable K) : Json K :=
  .obj (table.toList.map fun (key, size) => (key, size.toJson))

/-- The size of a sprite, or a default for one that the table does not hold. -/
def SizeTable.sizeOf (table : SizeTable K) (default : Size K) (key : String) : Size K :=
  table.getD key default

/-- A place from JSON. -/
def Place.ofJson? (j : Json K) : Option (Place K) := do
  let f ← j.record? 2
  return ⟨← f.required 0 "x" Json.scalar?, ← f.required 1 "y" Json.scalar?⟩

/-- A place in JSON. -/
def Place.toJson (p : Place K) : Json K := .obj [("x", .ofScalar p.x), ("y", .ofScalar p.y)]

/-- Limits from JSON; a missing border is open. -/
def Limits.ofJson? (j : Json K) : Option (Limits K) := do
  let f ← j.record? 4
  return {
    left := ← f.optional 0 "x_min" Json.scalar?
    right := ← f.optional 1 "x_max" Json.scalar?
    top := ← f.optional 2 "y_min" Json.scalar?
    bottom := ← f.optional 3 "y_max" Json.scalar? }

/-- Limits in JSON. -/
def Limits.toJson (l : Limits K) : Json K :=
  .obj [("x_min", .ofOption Json.ofScalar l.left), ("x_max", .ofOption Json.ofScalar l.right),
    ("y_min", .ofOption Json.ofScalar l.top), ("y_max", .ofOption Json.ofScalar l.bottom)]

/-- A size given as a list of width and height. -/
def Size.ofPair? (j : Json K) : Option (Size K) :=
  (j.pair? Json.scalar?).map fun (width, height) => ⟨width, height⟩

namespace Settings

/-- Settings from JSON; each field that is missing has its standard value. -/
def ofJson? (j : Json K) : Option (Settings K) := do
  let f ← j.record? 13
  let base : Settings K := standard
  return {
    viewport := ⟨← f.withDefault 0 "viewport_width" base.viewport.width Json.scalar?,
      ← f.withDefault 1 "viewport_height" base.viewport.height Json.scalar?⟩
    dt := ← f.withDefault 2 "frame_dt" base.dt Json.scalar?
    seed := ← f.withDefault 3 "rng_seed" base.seed Json.nat64?
    playerPlace := ← f.withDefault 4 "player_offsets" base.playerPlace Place.ofJson?
    enemyPlace := ← f.withDefault 5 "boss_offsets" base.enemyPlace Place.ofJson?
    bossLimits := ← f.withDefault 6 "boss_limits" base.bossLimits Limits.ofJson?
    maxLives := ← f.withDefault 7 "player_max_lives" base.maxLives Json.int32?
    energyGain := ← f.withDefault 8 "energy_passive_accumulation" base.energyGain Json.nat32?
    energyInterval :=
      ← f.withDefault 9 "energy_accumulation_interval" base.energyInterval Json.nat64?
    blinkDistance := ← f.withDefault 10 "player_blink_distance" base.blinkDistance Json.scalar?
    spriteSize := ← f.withDefault 11 "default_sprite_size" base.spriteSize Size.ofPair?
    shotDamage := ← f.withDefault 12 "default_shot_damage" base.shotDamage Json.nat32? }

/-- Settings in JSON. -/
def toJson (s : Settings K) : Json K :=
  .obj [("viewport_width", .ofScalar s.viewport.width),
    ("viewport_height", .ofScalar s.viewport.height), ("frame_dt", .ofScalar s.dt),
    ("rng_seed", .ofNat s.seed), ("player_offsets", s.playerPlace.toJson),
    ("boss_offsets", s.enemyPlace.toJson), ("boss_limits", s.bossLimits.toJson),
    ("player_max_lives", .int s.maxLives),
    ("energy_passive_accumulation", .ofNat s.energyGain),
    ("energy_accumulation_interval", .ofNat s.energyInterval),
    ("player_blink_distance", .ofScalar s.blinkDistance),
    ("default_sprite_size",
      .arr [.ofScalar s.spriteSize.width, .ofScalar s.spriteSize.height]),
    ("default_shot_damage", .ofNat s.shotDamage)]

end Settings

end Barrage
