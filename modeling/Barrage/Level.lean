import Barrage.Assets

/-!
# Levels

Everything a fight needs from its assets, read before the first frame: the player, the table of
sizes, and the enemies of the timeline with their routines. A missing or malformed asset is reported
here and not in the middle of a fight. Timeline entries of other kinds are left out with a warning.

An enemy is read once, when the timeline lists it for the first time, and put on a roster.
-/

namespace Barrage

/-- An enemy on the timeline. -/
structure Arrival where
  /-- The fight frame on which it appears. -/
  time : Nat
  /-- The key it is stored under. -/
  key : String
  sheet : EnemySheet
  deriving DecidableEq

/-- What a fight is set up from. -/
structure Level (K : Type) where
  player : PlayerSheet K
  sizes : SizeTable K
  /-- The enemies, in the order in which the timeline lists them. -/
  arrivals : List Arrival

namespace LevelEntry

variable {K : Type} [Scalar K]

/-- Whether an entry brings an enemy. -/
def isEnemy (e : LevelEntry) : Bool := e.kind == "enemy"

/-- The enemy of an entry with all its routines read, or nothing for an entry of another kind. -/
def arrival (assets : Assets K) (e : LevelEntry) : Except AssetError (Option Arrival) :=
  if e.isEnemy then do
    let sheet ← assets.enemy e.subject
    sheet.routines.forM fun name => discard (assets.routine name)
    return some ⟨e.time, e.subject, sheet⟩
  else return none

/-- What has to be said about an entry. -/
def warnings (e : LevelEntry) : List Warning :=
  if e.isEnemy then [] else [.unknownEvent e.subject e.kind]

end LevelEntry

namespace Level

variable {K : Type} [Scalar K]

/-- Enemies that have been read with all their routines, by their keys. -/
abbrev Roster := Std.ExtTreeMap String EnemySheet

/-- The enemies of a timeline. Those that are not on the roster are read and put on it. -/
def enlist (assets : Assets K) (roster : Roster) :
    List LevelEntry → Except AssetError (List Arrival)
  | [] => return []
  | e :: rest =>
    if e.isEnemy then
      match roster[e.subject]? with
      | some sheet => do return ⟨e.time, e.subject, sheet⟩ :: (← enlist assets roster rest)
      | none => do
        let sheet ← assets.enemy e.subject
        sheet.routines.forM fun name => discard (assets.routine name)
        return ⟨e.time, e.subject, sheet⟩ ::
          (← enlist assets (roster.insert e.subject sheet) rest)
    else enlist assets roster rest

/-- Reads a level from its assets. -/
def load (assets : Assets K) : Except AssetError (Level K) := do
  let player ← assets.player
  let sizes ← assets.sizes
  let entries ← assets.level
  return { player, sizes, arrivals := ← enlist assets ∅ entries }

/-- What has to be said while a level is read, up to the first asset that cannot be used. -/
def warnings (assets : Assets K) : List Warning :=
  match assets.player, assets.sizes, assets.level with
  | .ok _, .ok _, .ok entries =>
    (entries.takeWhile fun e => (e.arrival assets).isOk).flatMap LevelEntry.warnings
  | _, _, _ => []

end Level

end Barrage
