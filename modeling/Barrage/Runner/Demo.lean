import Barrage.Assets

/-!
# The demo fight

A small fight with two enemies, for a run without a content directory. All its numbers are integers.
-/

namespace Barrage.Demo

variable {K : Type} [Scalar K]

/-- A record. -/
def record (members : List (String × Json K)) : Json K := .obj members

/-- A list of integers. -/
def ints (items : List Int) : Json K := .ofList Json.int items

/-- A list of texts. -/
def texts (items : List String) : Json K := .ofList Json.str items

/-- A size. -/
def size (width height : Int) : Json K := record [("width", .int width), ("height", .int height)]

/-- A reference to a routine. -/
def routineRef (name : String) : Json K := record [("name", .str name)]

/-- One of the two guns of the player. -/
def gun (x : Int) : Json K :=
  record [("shot_id", .str "bolt"), ("x_offset", .int x), ("anchor", .str "Top"),
    ("speed", .int 900), ("degree", .int 180)]

/-- The player. -/
def player : Json K :=
  record [("asset_folder", .str "ship"),
    ("weapon", record [("fire_rate", .int 6), ("bullet_speed", .int 900),
      ("shots", .arr [gun (-8), gun 8])]),
    ("movement", record [("normal", .int 420), ("slowed", .int 160)]),
    ("invincibility_window", .int 90), ("lives", .int 5),
    ("special", record [("name", .str "blink"), ("energy_required", .int 100)])]

/-- An entry of the timeline. -/
def arrival (time : Int) (key : String) : Json K :=
  record [("time", .int time), ("type", .str "enemy"), ("id", .str key)]

/-- The table of sizes. -/
def sizes : Json K :=
  record [("player_sprite", size 48 48), ("warden", size 160 128), ("drone", size 64 48),
    ("bolt", size 8 24), ("pellet", size 16 16), ("needle", size 8 32)]

/-- The boss. -/
def warden : Json K :=
  record [("type", .str "boss"), ("id", .str "warden"),
    ("routines", .arr [routineRef "warden_opening", routineRef "warden_spiral"])]

/-- A shot of the boss's volley. -/
def needle (degree : Int) : Json K :=
  record [("shot_id", .str "needle"), ("speed", .int 420), ("degree", .int degree)]

/-- The first routine of the boss. -/
def wardenOpening : Json K :=
  record [("name", .str "warden_opening"), ("duration", .int 600),
    ("moves", .arr [
      record [("type", .str "Fixed"), ("times", ints [0]), ("y_velo", .int 60)],
      record [("type", .str "Stop"), ("times", ints [120])],
      record [("type", .str "Randomized"), ("times", ints [240, 420]),
        ("x_velo_range", ints [-200, 200]), ("y_velo_range", ints [-30, 30])]]),
    ("shots", .arr [
      record [("type", .str "ShotRow"), ("nr_shots", .int 8), ("anchor", .str "Bottom"),
        ("shot_ids", texts ["pellet"]), ("speeds", ints [240]), ("degrees", ints [0]),
        ("x_offset_start", .int (-160)), ("x_offset_end", .int 160),
        ("continuous", .bool true), ("interval", .int 45), ("start_time", .int 150)],
      record [("type", .str "ShotArray"), ("times", ints [300, 450]), ("anchor", .str "Bottom"),
        ("shots", .arr [needle (-15), needle 0, needle 15])]])]

/-- The second routine of the boss. -/
def wardenSpiral : Json K :=
  record [("name", .str "warden_spiral"), ("loops", .bool true), ("duration", .int 480),
    ("hp", .int 400),
    ("moves", .arr [
      record [("type", .str "Randomized"), ("times", ints [0, 240]),
        ("x_velo_range", ints [-120, 120]), ("y_velo_range", ints [-20, 20])]]),
    ("shots", .arr [
      record [("type", .str "ShotTwister"), ("speeds", ints [200]), ("shot_ids", texts ["pellet"]),
        ("start_degree", .int 0), ("finish_degree", .int 360), ("degree_offset", .int 20),
        ("time_interval", .int 3), ("radius", .int 40), ("continuous", .bool true),
        ("repeat_interval", .int 30)],
      record [("type", .str "ShotCircle"), ("nr_shots", .int 12), ("shot_spread", .bool true),
        ("shot_ids", texts ["needle"]), ("speeds", ints [150]), ("radius", .int 60),
        ("times", ints [120, 360])]])]

/-- The other enemy. -/
def drone : Json K :=
  record [("id", .str "drone"), ("routines", .arr [routineRef "drone_pass"])]

/-- The routine of the other enemy. -/
def dronePass : Json K :=
  record [("name", .str "drone_pass"), ("duration", .int 420), ("hp", .int 30),
    ("moves", .arr [
      record [("type", .str "Fixed"), ("times", ints [0]), ("x_velo", .int 180),
        ("y_velo", .int 40)]]),
    ("shots", .arr [
      record [("type", .str "ShotCircle"), ("nr_shots", .int 6), ("anchor", .str "Bottom"),
        ("shot_ids", texts ["pellet"]), ("speeds", ints [180]), ("degrees", ints [-30, 0, 30]),
        ("continuous", .bool true), ("interval", .int 60)]])]

/-- The assets of the demo fight. -/
def assets : Assets K :=
  [("player_info", player), ("level_event_info", .arr [arrival 30 "warden", arrival 900 "drone"]),
    ("sprite_sizes", sizes), ("warden", warden), ("warden_opening", wardenOpening),
    ("warden_spiral", wardenSpiral), ("drone", drone), ("drone_pass", dronePass)].foldl
      (fun a e => a.insert e.1 e.2) .empty

end Barrage.Demo
