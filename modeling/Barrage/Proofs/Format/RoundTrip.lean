import Barrage.Format.Event
import Barrage.Format.Sheet
import Barrage.Number.Binary64
import Barrage.Proofs.Input.Storage

/-!
# What is written is read back

Values without scalars are read as they were written: events, recordings but for the keys that count
as held, timelines, and enemies (`roundTrips`). All that is asked is that numbers fit the width of
their field.

A record is written as an object in the order of its fields, so each field is found behind those
before it (`Json.Fields.required_cons_of_ne`), and the record is read back because its fields are.
The kinds of what happened have names of their own, which is what `EventData.ofMember?` tells them
apart by; an enemy that is no boss has a name that no other kind has, and so is read by the rule for
all other names.
-/

namespace Barrage

variable {K : Type}

/-! ## Records of required fields -/

section
variable {α β γ : Type} {name other : String} {first second : Json K} {read : Json K → Option α}
  {readOther : Json K → Option β} {a : α} {b : β}

/-- An object of one field is read, if the field is. -/
theorem Json.object?_required {index : Nat} {build : α → γ} (ha : read first = some a) :
    ((Json.obj [(name, first)]).object?.bind fun f =>
      (f.required index name read).bind fun a => some (build a)) = some (build a) := by
  rw [object?, Option.bind_some, Fields.required_cons_self, ha, Option.bind_some]

/-- An object of two fields is read, if both are. -/
theorem Json.object?_required_pair {index place : Nat} {build : α → β → γ} (hne : name ≠ other)
    (ha : read first = some a) (hb : readOther second = some b) :
    ((Json.obj [(name, first), (other, second)]).object?.bind fun f =>
      (f.required index name read).bind fun a =>
        (f.required place other readOther).bind fun b => some (build a b)) = some (build a b) := by
  rw [object?, Option.bind_some, Fields.required_cons_self, ha, Option.bind_some,
    Fields.required_cons_of_ne hne, Fields.required_cons_self, hb, Option.bind_some]

end

/-! ## Events -/

/-- A priority is read from its name. -/
theorem Priority.ofJson?_name (p : Priority) : ofJson? (.str p.name : Json K) = some p := by
  cases p <;> rfl

/-- The numbers of what happened fit their width. -/
def EventData.Fits : EventData → Prop
  | enemySpawned enemy _ => enemy < 0x100000000
  | routineChanged enemy _ => enemy < 0x100000000
  | enemyExhausted enemy => enemy < 0x100000000
  | playerHit livesLeft => -0x80000000 ≤ livesLeft ∧ livesLeft < 0x80000000
  | enemyHit enemy damage => enemy < 0x100000000 ∧ damage < 0x100000000
  | specialExecuted _ => True
  | invincibilityEnded => True
  | gameOver frames => frames < 0x100000000

/-- The numbers of an event fit their width. -/
structure Event.Fits (e : Event) : Prop where
  frame : e.frame < 0x100000000
  subject : ∀ id ∈ e.subject, id < 0x100000000
  data : e.data.Fits

/-- An object of details is read by its name. -/
theorem EventData.ofJson?_details (name : String) (members : List (String × Json K)) :
    ofJson? (toJson.details name members) = ofMember? name (.obj members) := by
  rw [toJson.details]
  unfold ofJson?
  exact if_neg nofun

/-- What happened is read as it was written. -/
theorem EventData.ofJson?_toJson {d : EventData} (h : d.Fits) :
    ofJson? (d.toJson : Json K) = some d := by
  have hnat : ∀ {n : Nat}, n < 0x100000000 → Json.nat32? (.ofNat n : Json K) = some n :=
    Json.nat?_ofNat
  cases d with
  | enemySpawned enemy sprite =>
    rw [toJson, ofJson?_details, ofMember?]
    exact Json.object?_required_pair (by decide) (hnat h) rfl
  | routineChanged enemy routine =>
    rw [toJson, ofJson?_details, ofMember?]
    exact Json.object?_required_pair (by decide) (hnat h) rfl
  | enemyExhausted enemy =>
    rw [toJson, ofJson?_details, ofMember?]
    exact Json.object?_required (hnat h)
  | playerHit livesLeft =>
    rw [toJson, ofJson?_details, ofMember?]
    exact Json.object?_required (Json.intIn?_int h)
  | enemyHit enemy damage =>
    rw [toJson, ofJson?_details, ofMember?]
    exact Json.object?_required_pair (by decide) (hnat h.1) (hnat h.2)
  | specialExecuted name =>
    rw [toJson, ofJson?_details, ofMember?]
    exact Json.object?_required rfl
  | invincibilityEnded => rfl
  | gameOver frames =>
    rw [toJson, ofJson?_details, ofMember?]
    exact Json.object?_required (hnat h)

/-- An event is read as it was written, in all its parts. -/
theorem Event.ofJson?_toJson {e : Event} (h : e.Fits) :
    ofJson? (e.toJson : Json K) = some e := by
  have hframe : Json.nat32? (.ofNat e.frame : Json K) = some e.frame := Json.nat?_ofNat h.frame
  have hsubject : Json.option? Json.nat32? (.ofOption Json.ofNat e.subject : Json K) =
      some e.subject := Json.option?_ofNat h.subject
  rw [ofJson?, toJson, Json.record?, Option.bind_eq_bind, Option.bind_some]
  simp (disch := decide) only [Json.Fields.required_cons_self, Json.Fields.required_cons_of_ne,
    Json.Fields.optional_cons_self, Json.Fields.optional_cons_of_ne, hframe,
    Priority.ofJson?_name, hsubject, EventData.ofJson?_toJson h.data, Option.bind_eq_bind,
    Option.bind_some]
  rfl

/-! ## Timelines and enemies -/

/-- An entry of a timeline is read as it was written. -/
theorem LevelEntry.ofJson?_toJson {e : LevelEntry} (h : e.time < 0x100000000) :
    ofJson? (e.toJson : Json K) = some e := by
  have htime : Json.nat32? (.ofNat e.time : Json K) = some e.time := Json.nat?_ofNat h
  rw [ofJson?, toJson, Json.record?, Option.bind_eq_bind, Option.bind_some]
  simp (disch := decide) only [Json.Fields.required_cons_self, Json.Fields.required_cons_of_ne,
    htime, Json.str?, Option.bind_eq_bind, Option.bind_some]
  rfl

/-- A timeline is read as it was written. -/
theorem levelOfJson?_levelToJson {entries : List LevelEntry}
    (h : ∀ e ∈ entries, e.time < 0x100000000) :
    levelOfJson? (levelToJson entries : Json K) = some entries :=
  Json.list?_ofList fun e he => LevelEntry.ofJson?_toJson (h e he)

/-- The kind of an enemy is read from its name. -/
theorem EnemyKind.ofJson?_name (kind : EnemyKind) :
    ofJson? (.str kind.name : Json K) = some kind := by
  cases kind <;> rfl

/-- The name of a routine is read as it was written. -/
theorem routineNameOfJson?_toJson (name : String) :
    routineNameOfJson? (routineNameToJson name : Json K) = some name := by
  rw [routineNameOfJson?, routineNameToJson, Json.record?, Option.bind_some,
    Json.Fields.required_cons_self, Json.str?]

/-- An enemy is read as it was written. -/
theorem EnemySheet.ofJson?_toJson (e : EnemySheet) : ofJson? (e.toJson : Json K) = some e := by
  have hroutines : Json.list? routineNameOfJson? (.ofList routineNameToJson e.routines : Json K) =
      some e.routines := Json.list?_ofList fun name _ => routineNameOfJson?_toJson name
  rw [ofJson?, toJson, Json.record?, Option.bind_eq_bind, Option.bind_some]
  simp (disch := decide) only [Json.Fields.withDefault_cons_self, Json.Fields.required_cons_self,
    Json.Fields.required_cons_of_ne, EnemyKind.ofJson?_name, hroutines, Json.str?,
    Option.bind_eq_bind, Option.bind_some]
  rfl

/-! ## Every kind of value -/

/-- The numbers of a recording fit their width. -/
structure Recording.Fits (r : Recording) : Prop where
  seed : r.seed < 0x10000000000000000
  endFrame : r.endFrame < 0x100000000
  changes : ∀ c ∈ r.changes, c.frame < 0x100000000

/-- What is written is read as the value it was written from. Of a recording, the keys that count as
held are not written, and none are read. -/
structure RoundTrips (K : Type) : Prop where
  event : ∀ {e : Event}, e.Fits → Event.ofJson? (e.toJson : Json K) = some e
  recording : ∀ {r : Recording}, r.Fits →
    Recording.ofJson? (r.toJson : Json K) = some { r with last := .empty }
  level : ∀ {entries : List LevelEntry}, (∀ e ∈ entries, e.time < 0x100000000) →
    levelOfJson? (levelToJson entries : Json K) = some entries
  enemy : ∀ e : EnemySheet, EnemySheet.ofJson? (e.toJson : Json K) = some e

/-- What is written of each kind is read back. -/
theorem roundTrips : RoundTrips K where
  event := Event.ofJson?_toJson
  recording {r} h := r.ofJson?_toJson h.seed h.endFrame h.changes
  level := levelOfJson?_levelToJson
  enemy := EnemySheet.ofJson?_toJson

/-- An event of the widest numbers. -/
def Event.widest : Event :=
  { frame := 0xFFFFFFFF, priority := .playerHit, subject := some 0xFFFFFFFF,
    data := .playerHit (-0x80000000) }

/-- All sixteen keys are pressed on the last frame. -/
def Recording.widest : Recording :=
  { seed := 0xFFFFFFFFFFFFFFFF, endFrame := 0xFFFFFFFF,
    changes := [⟨0, .empty⟩, ⟨0xFFFFFFFF, ⟨BitVec.allOnes 16⟩⟩], last := ⟨BitVec.allOnes 16⟩ }

/-- The last frame that there is. -/
def LevelEntry.widest : LevelEntry := ⟨0xFFFFFFFF, "enemy", ""⟩

/-- The widest numbers are read back. -/
theorem roundTrips_widest :
    (Event.widest.Fits ∧ Event.ofJson? (Event.widest.toJson : Json Binary64) = some .widest) ∧
      (Recording.widest.Fits ∧ Recording.ofJson? (Recording.widest.toJson : Json Binary64) =
        some { Recording.widest with last := .empty }) ∧
      (∀ e ∈ [LevelEntry.widest], e.time < 0x100000000) ∧
        levelOfJson? (levelToJson [.widest] : Json Binary64) = some [.widest] := by
  have hdata : (-0x80000000 : Int) ≤ -0x80000000 ∧ (-0x80000000 : Int) < 0x80000000 := by decide
  have hevent : Event.widest.Fits := ⟨by decide, by decide, hdata⟩
  have hrecording : Recording.widest.Fits := ⟨by decide, by decide, by decide⟩
  have hlevel : ∀ e ∈ [LevelEntry.widest], e.time < 0x100000000 := by decide
  exact ⟨⟨hevent, roundTrips.event hevent⟩, ⟨hrecording, roundTrips.recording hrecording⟩, hlevel,
    roundTrips.level hlevel⟩

end Barrage
