import Barrage.Json.Decode
import Barrage.Input.Recording

/-!
# JSON form of recordings

A recording is a record of its seed, its last frame and its changes. The keys held on the last frame
are not written, and none are held after reading.
-/

namespace Barrage

variable {K : Type} [Scalar K]

/-- Held keys from a record of their bits. -/
def ActionSet.ofJson? (j : Json K) : Option ActionSet :=
  ((j.record? 1).bind (·.required 0 "flags" (Json.nat? 0x10000))).map ActionSet.ofNat

/-- Held keys in JSON. -/
def ActionSet.toJson (s : ActionSet) : Json K := .obj [("flags", .ofNat s.toNat)]

/-- A change from JSON. -/
def Change.ofJson? (j : Json K) : Option Change := do
  let f ← j.record? 2
  return ⟨← f.required 0 "frame" Json.nat32?, ← f.required 1 "input" ActionSet.ofJson?⟩

/-- A change in JSON. -/
def Change.toJson (c : Change) : Json K :=
  .obj [("frame", .ofNat c.frame), ("input", c.input.toJson)]

namespace Recording

/-- A recording from JSON. -/
def ofJson? (j : Json K) : Option Recording := do
  let f ← j.record? 3
  return {
    seed := ← f.required 0 "rng_seed" Json.nat64?
    endFrame := ← f.required 1 "end_frame" Json.nat32?
    changes := ← f.required 2 "deltas" (Json.list? Change.ofJson?)
    last := .empty }

/-- A recording in JSON. -/
def toJson (r : Recording) : Json K :=
  .obj [("rng_seed", .ofNat r.seed), ("end_frame", .ofNat r.endFrame),
    ("deltas", .ofList Change.toJson r.changes)]

end Recording

end Barrage
