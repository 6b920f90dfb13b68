import Barrage.Json.Parser
import Barrage.Format.Routine
import Barrage.Format.Sheet
import Barrage.Warning

/-!
# Assets

A store of JSON values by key, filled value by value, from texts, or from the files of a directory.
Each reader asks for the value of a key in a certain shape, and says which key failed.
-/

namespace Barrage

/-- JSON values by key. -/
structure Assets (K : Type) where
  entries : Std.ExtTreeMap String (Json K)

/-- What a directory may hold under a name. -/
inductive FileBody where
  | text (s : String)
  /-- Something that cannot be read as text. -/
  | unreadable
  deriving DecidableEq

/-- A name in a directory and what it stands for. -/
structure FileEntry where
  name : String
  /-- What the name stands for. -/
  body : FileBody
  deriving DecidableEq

namespace FileEntry

/-- The key of a content file: its name without the ending `.json`. A name that is nothing but the
ending, or has another one, belongs to no content file. -/
def key? (name : String) : Option String :=
  let cs := name.toList
  let stem := cs.take (cs.length - 5)
  if cs.drop (cs.length - 5) = ".json".toList ∧ stem ≠ [] then some (String.ofList stem) else none

end FileEntry

namespace Assets

variable {K : Type} [Scalar K]

/-- Nothing is stored. -/
def empty : Assets K := ⟨∅⟩

/-- Stores a value. -/
def insert (a : Assets K) (key : String) (value : Json K) : Assets K :=
  ⟨a.entries.insert key value⟩

/-- Stores the value of a text, whose numerals are read by gathering and scaling. -/
def insertText (a : Assets K) (key text : String) : Except AssetError (Assets K) :=
  match Json.parse? Numeral.scaled? text with
  | some value => .ok (a.insert key value)
  | none => .error (.malformed key)

/-- Stores the value of a file under its key. Other files are passed over. -/
def insertFile (a : Assets K) (file : FileEntry) : Except AssetError (Assets K) :=
  match FileEntry.key? file.name with
  | none => .ok a
  | some key =>
    match file.body with
    | .text text => a.insertText key text
    | .unreadable => .error (.unreadable file.name)

/-- The assets of a directory, whose files are read in the order of their names. A directory that
does not exist cannot be read. -/
def ofDirectory (path : String) : Option (List FileEntry) → Except AssetError (Assets K)
  | none => .error (.unreadable path)
  | some files =>
    (files.mergeSort fun a b => decide (a.name ≤ b.name)).foldlM insertFile empty

/-- Whether something is stored under a key. -/
def contains (a : Assets K) (key : String) : Bool := a.entries.contains key

/-- How many values are stored. -/
def size (a : Assets K) : Nat := a.entries.size

/-- The value of a key. -/
def get? (a : Assets K) (key : String) : Option (Json K) := a.entries[key]?

/-- The value of a key in a certain shape. -/
def read {α : Type} (shape : Json K → Option α) (a : Assets K) (key : String) :
    Except AssetError α :=
  match a.get? key with
  | none => .error (.missing key)
  | some j =>
    match shape j with
    | some value => .ok value
    | none => .error (.malformed key)

/-- Key of the player. -/
def playerKey : String := "player_info"

/-- Key of the level's timeline. -/
def levelKey : String := "level_event_info"

/-- Key of the table of sizes. -/
def sizesKey : String := "sprite_sizes"

/-- A routine by its name. -/
def routine (a : Assets K) (name : String) : Except AssetError (RoutineScript K) :=
  a.read RoutineScript.ofJson? name

/-- An enemy by its key. -/
def enemy (a : Assets K) (key : String) : Except AssetError EnemySheet :=
  a.read EnemySheet.ofJson? key

/-- The player. -/
def player (a : Assets K) : Except AssetError (PlayerSheet K) :=
  a.read PlayerSheet.ofJson? playerKey

/-- The timeline of the level. -/
def level (a : Assets K) : Except AssetError (List LevelEntry) :=
  a.read levelOfJson? levelKey

/-- The table of sizes, which may be missing. -/
def sizes (a : Assets K) : Except AssetError (SizeTable K) :=
  if a.contains sizesKey then a.read SizeTable.ofJson? sizesKey else .ok ∅

/-- The settings of a fight under a key. -/
def settings (a : Assets K) (key : String) : Except AssetError (Settings K) :=
  a.read Settings.ofJson? key

end Assets

end Barrage
