import Barrage.Fight.Basic
import Barrage.Proofs.Level

/-!
# What a fight asks of its assets

A fight can be set up from assets that are complete (`Assets.Complete`): the player and the timeline
can be read, the table of sizes can be read if there is one, and of each entry that brings an enemy,
the enemy and all its routines can be read. When they are not, the error is about the first demand
that is not met, in the order in which the demands are listed by `Level.demands`.

Every step of reading a level fails with what is the first failure among the demands it makes
(`failureOf_load`), so both directions come from one equation. The roster does not appear in it: it
saves reading an enemy again and changes no result (`Level.enlist_eq_arrivals?`).
-/

namespace Barrage

/-! ## The first failure of several steps -/

section
variable {ε α β : Type}

/-- The error of a computation that fails. -/
def failureOf : Except ε α → Option ε
  | .error e => some e
  | .ok _ => none

/-- A failure is that of a result that failed. -/
theorem failureOf_eq_some_iff {x : Except ε α} {e : ε} : failureOf x = some e ↔ x = .error e := by
  cases x with
  | error e' => exact ⟨fun h => congrArg _ (Option.some.inj h), fun h => by cases h; rfl⟩
  | ok a => exact ⟨nofun, nofun⟩

/-- What did not fail has a value. -/
theorem failureOf_eq_none_iff {x : Except ε α} : failureOf x = none ↔ ∃ a, x = .ok a := by
  cases x with
  | error e => exact ⟨nofun, nofun⟩
  | ok a => exact ⟨fun _ => ⟨a, rfl⟩, fun _ => rfl⟩

/-- To change a value changes no failure. -/
theorem failureOf_map (x : Except ε α) (f : α → β) : failureOf (x.map f) = failureOf x := by
  cases x <;> rfl

/-- Of computations in a row, the first one that fails gives the error. -/
theorem failureOf_forM (as : List α) (f : α → Except ε PUnit) :
    failureOf (as.forM f) = as.findSome? fun a => failureOf (f a) := by
  induction as with
  | nil => rfl
  | cons a rest ih =>
    rw [List.findSome?_cons, ← ih]
    change failureOf (f a >>= fun _ => rest.forM f) = _
    cases f a <;> rfl

/-- Of several results in a row the first failure counts. -/
theorem failureOf_mapM (as : List α) (f : α → Except ε β) :
    failureOf (as.mapM f) = as.findSome? fun a => failureOf (f a) := by
  induction as with
  | nil => rfl
  | cons a rest ih =>
    rw [List.mapM_cons, List.findSome?_cons, ← ih]
    cases f a with
    | error e => rfl
    | ok b => cases rest.mapM f <;> rfl

/-- What is found first in lists behind each other is found in the first of them that has it. -/
theorem findSome?_flatMap (as : List α) (f : α → List β) {γ : Type} (g : β → Option γ) :
    (as.flatMap f).findSome? g = as.findSome? fun a => (f a).findSome? g := by
  induction as with
  | nil => rfl
  | cons a rest ih =>
    rw [List.flatMap_cons, List.findSome?_append, List.findSome?_cons, ih]
    cases (f a).findSome? g <;> rfl

end

/-! ## Demands -/

section
variable {K α : Type}

/-- What is stored under a key, in a certain shape. -/
def Assets.stored? (assets : Assets K) (shape : Json K → Option α) (key : String) : Option α :=
  (assets.get? key).bind shape

/-- A value that is asked of assets. -/
structure Demand (K : Type) where
  /-- The key under which it is to be stored. -/
  key : String
  /-- Whether nothing need be stored. -/
  mayMiss : Bool
  /-- Whether a value has the shape that is asked for. -/
  fits : Json K → Bool

namespace Demand

/-- The demand for a value of a shape. -/
def ofShape (shape : Json K → Option α) (key : String) : Demand K :=
  { key, mayMiss := false, fits := fun j => (shape j).isSome }

/-- What is wrong with assets that do not meet a demand: nothing is stored under its key, or
something of another shape. -/
def failure? (assets : Assets K) (d : Demand K) : Option AssetError :=
  match assets.get? d.key with
  | none => if d.mayMiss then none else some (.missing d.key)
  | some j => if d.fits j then none else some (.malformed d.key)

/-- A demand is met when a value of its shape is stored. -/
theorem failure?_ofShape_eq_none_iff {assets : Assets K} {shape : Json K → Option α}
    {key : String} : (ofShape shape key).failure? assets = none ↔
      ∃ value, assets.stored? shape key = some value := by
  unfold failure? ofShape Assets.stored?
  cases assets.get? key with
  | none => simp
  | some j => simp [Option.isSome_iff_exists]

end Demand

/-- A value is read when the demand for it is met. -/
theorem Assets.failureOf_read (assets : Assets K) (shape : Json K → Option α) (key : String) :
    failureOf (assets.read shape key) = (Demand.ofShape shape key).failure? assets := by
  unfold read Demand.failure? Demand.ofShape
  cases assets.get? key with
  | none => rfl
  | some j => rcases (shape j).eq_none_or_eq_some with h | ⟨value, h⟩ <;> simp [h, failureOf]

/-- What was read is stored. -/
theorem Assets.stored?_of_read {assets : Assets K} {shape : Json K → Option α} {key : String}
    {value : α} (h : assets.read shape key = .ok value) :
    assets.stored? shape key = some value := by
  unfold read at h
  unfold stored?
  split at h
  · cases h
  · next j hget =>
    rw [hget, Option.bind_some]
    split at h
    · next found hshape =>
      cases h
      exact hshape
    · cases h

end

variable {K : Type} [Scalar K]

/-- The routines of an enemy in their order. -/
def EnemySheet.demands (sheet : EnemySheet) : List (Demand K) :=
  sheet.routines.map (.ofShape RoutineScript.ofJson?)

/-- The enemy of an entry, and then its routines. An entry of another kind asks for nothing. -/
def LevelEntry.demands (assets : Assets K) (e : LevelEntry) : List (Demand K) :=
  if e.kind = "enemy" then
    .ofShape EnemySheet.ofJson? e.subject ::
      ((assets.stored? EnemySheet.ofJson? e.subject).map EnemySheet.demands).getD []
  else []

namespace Level

/-- All that a fight asks of its assets: the player, the sizes, the timeline, and the demands of its
entries in their order. -/
def demands (assets : Assets K) : List (Demand K) :=
  .ofShape PlayerSheet.ofJson? Assets.playerKey ::
    { Demand.ofShape SizeTable.ofJson? Assets.sizesKey with mayMiss := true } ::
    .ofShape levelOfJson? Assets.levelKey ::
    ((assets.stored? levelOfJson? Assets.levelKey).getD []).flatMap (LevelEntry.demands assets)

end Level

/-! ## Reading a level -/

section
variable (assets : Assets K)

/-- An entry brings an enemy if its kind says so. -/
theorem LevelEntry.isEnemy_iff {e : LevelEntry} : e.isEnemy = true ↔ e.kind = "enemy" :=
  beq_iff_eq

/-- The routines of an enemy fail as its demands do. -/
theorem EnemySheet.failureOf_routines (sheet : EnemySheet) :
    failureOf (sheet.routines.forM fun name => discard (assets.routine name)) =
      sheet.demands.findSome? (Demand.failure? assets) := by
  rw [failureOf_forM, demands, List.findSome?_map]
  congr 1
  funext name
  rw [Function.comp_apply, ← assets.failureOf_read]
  exact failureOf_map (assets.routine name) _

/-- An arrival fails as the demands of its entry do. -/
theorem LevelEntry.failureOf_arrival (e : LevelEntry) :
    failureOf (e.arrival assets) = (e.demands assets).findSome? (Demand.failure? assets) := by
  unfold arrival demands
  by_cases henemy : e.kind = "enemy"
  · rw [if_pos (isEnemy_iff.2 henemy), if_pos henemy, List.findSome?_cons,
      ← assets.failureOf_read, ← Assets.enemy]
    cases hsheet : assets.enemy e.subject with
    | error error => rfl
    | ok sheet =>
      rw [Assets.stored?_of_read hsheet, Option.map_some, Option.getD_some,
        ← sheet.failureOf_routines assets]
      change failureOf ((sheet.routines.forM fun name => discard (assets.routine name)).map _) = _
      exact failureOf_map _ _
  · rw [if_neg (mt isEnemy_iff.1 henemy), if_neg henemy]
    rfl

/-- The table of sizes may be missing, but not have another shape. -/
theorem Assets.failureOf_sizes : failureOf assets.sizes = Demand.failure? assets
    { Demand.ofShape SizeTable.ofJson? Assets.sizesKey with mayMiss := true } := by
  unfold sizes contains Demand.failure?
  rw [Std.ExtTreeMap.contains_eq_isSome_getElem?]
  have hread := assets.failureOf_read SizeTable.ofJson? sizesKey
  unfold Demand.failure? Demand.ofShape at hread
  unfold Demand.ofShape
  cases hget : assets.get? sizesKey with
  | none =>
    rw [get?] at hget
    rw [hget]
    rfl
  | some j =>
    dsimp only at hread ⊢
    rw [hget] at hread
    rw [get?] at hget
    rw [hget, Option.isSome_some, if_pos rfl, hread]

/-- Reading a level fails with the first failure among the demands. -/
theorem Level.failureOf_load :
    failureOf (load assets) = (demands assets).findSome? (Demand.failure? assets) := by
  unfold load demands
  rw [List.findSome?_cons, List.findSome?_cons, List.findSome?_cons, ← assets.failureOf_read,
    ← assets.failureOf_read, ← assets.failureOf_sizes, findSome?_flatMap,
    ← Assets.player, ← Assets.level]
  cases assets.player with
  | error e => rfl
  | ok player =>
    cases assets.sizes with
    | error e => rfl
    | ok sizes =>
      cases hlevel : assets.level with
      | error e => rfl
      | ok entries =>
        rw [Assets.stored?_of_read hlevel, Option.getD_some]
        simp only [← LevelEntry.failureOf_arrival]
        rw [← failureOf_mapM, ← failureOf_map _ (List.filterMap id)]
        change failureOf ((enlist assets ∅ entries).map _) = failureOf (arrivals? assets entries)
        rw [failureOf_map, enlist_eq_arrivals? (Roster.vetted_empty assets)]

end

/-! ## Complete assets -/

/-- Everything that a fight needs can be read. -/
structure Assets.Complete (assets : Assets K) : Prop where
  player : ∃ sheet, assets.stored? PlayerSheet.ofJson? playerKey = some sheet
  /-- The table of sizes may be missing. -/
  sizes : assets.get? sizesKey = none ∨
    ∃ table, assets.stored? SizeTable.ofJson? sizesKey = some table
  /-- Entries that bring no enemy need nothing. -/
  level : ∃ entries, assets.stored? levelOfJson? levelKey = some entries ∧
    ∀ e ∈ entries, e.kind = "enemy" →
      ∃ sheet, assets.stored? EnemySheet.ofJson? e.subject = some sheet ∧
        ∀ name ∈ sheet.routines, ∃ script, assets.stored? RoutineScript.ofJson? name = some script

section
variable {assets : Assets K}

/-- The demands of an entry are met when its enemy and all its routines are stored. -/
theorem LevelEntry.demands_met_iff {e : LevelEntry} :
    (∀ d ∈ e.demands assets, d.failure? assets = none) ↔ (e.kind = "enemy" →
      ∃ sheet, assets.stored? EnemySheet.ofJson? e.subject = some sheet ∧
        ∀ name ∈ sheet.routines,
          ∃ script, assets.stored? RoutineScript.ofJson? name = some script) := by
  unfold demands
  by_cases henemy : e.kind = "enemy"
  · rw [if_pos henemy, List.forall_mem_cons, Demand.failure?_ofShape_eq_none_iff]
    cases assets.stored? EnemySheet.ofJson? e.subject with
    | none => simp [henemy]
    | some sheet => simp [henemy, EnemySheet.demands, Demand.failure?_ofShape_eq_none_iff]
  · simp [henemy]

/-- Assets are complete when they meet all demands. -/
theorem Assets.complete_iff :
    assets.Complete ↔ ∀ d ∈ Level.demands assets, d.failure? assets = none := by
  have hsizes : Demand.failure? assets
      { Demand.ofShape SizeTable.ofJson? Assets.sizesKey with mayMiss := true } = none ↔
        (assets.get? sizesKey = none ∨
          ∃ table, assets.stored? SizeTable.ofJson? sizesKey = some table) := by
    unfold Demand.failure? Demand.ofShape stored?
    cases assets.get? sizesKey with
    | none => simp
    | some j => simp [Option.isSome_iff_exists]
  rw [Level.demands, List.forall_mem_cons, List.forall_mem_cons, List.forall_mem_cons,
    Demand.failure?_ofShape_eq_none_iff, Demand.failure?_ofShape_eq_none_iff, hsizes]
  constructor
  · rintro ⟨hplayer, hsizes, entries, hlevel, henemies⟩
    refine ⟨hplayer, hsizes, ⟨entries, hlevel⟩, fun d hd => ?_⟩
    rw [hlevel, Option.getD_some] at hd
    obtain ⟨e, he, hd⟩ := List.mem_flatMap.1 hd
    exact LevelEntry.demands_met_iff.2 (henemies e he) d hd
  · rintro ⟨hplayer, hsizes, ⟨entries, hlevel⟩, hmet⟩
    rw [hlevel, Option.getD_some] at hmet
    exact ⟨hplayer, hsizes, entries, hlevel, fun e he => LevelEntry.demands_met_iff.1 fun d hd =>
      hmet d (List.mem_flatMap.2 ⟨e, he, hd⟩)⟩

end

/-- When a fight can be set up, and which error is given when it cannot. -/
structure LoadLaw (assets : Assets K) (settings : Settings K) : Prop where
  /-- It can be set up from complete assets, and from no others. -/
  succeeds : (∃ f, Fight.start assets settings = .ok f) ↔ assets.Complete
  /-- The error is the failure of the first demand that is not met. -/
  fails : ∀ error, Fight.start assets settings = .error error ↔
    ∃ before d after, Level.demands assets = before ++ d :: after ∧
      (∀ c ∈ before, c.failure? assets = none) ∧ d.failure? assets = some error

/-- All that a fight will need is looked at when it is set up, in order. -/
theorem loadLaw_start (assets : Assets K) (settings : Settings K) : LoadLaw assets settings := by
  have hstart : failureOf (Fight.start assets settings) =
      (Level.demands assets).findSome? (Demand.failure? assets) := by
    rw [Fight.start, failureOf_map, Level.failureOf_load]
  constructor
  · rw [← failureOf_eq_none_iff, hstart, Assets.complete_iff, List.findSome?_eq_none_iff]
  · intro error
    rw [← failureOf_eq_some_iff, hstart, List.findSome?_eq_some_iff]
    simp only [and_comm]

end Barrage
