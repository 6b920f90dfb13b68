import Barrage.Actor.Enemy
import Barrage.Level

/-!
# What a level has read

Reading a level looks up the enemy of each entry and all its routines. An enemy on the roster is not
read again, but what was read of it is what would be read (`Roster.Vetted`), so the enemies of a
timeline are those of its entries, each read on its own (`Level.enlist_eq_arrivals?`).

So an enemy that is on the timeline can be put into a world at any time (`Arrival.Ready`). The
arrivals of a level are the entries that bring enemies, in the order of the timeline: frame by
frame, the enemies that are to come are those that the entries list for it (`Level.arrivals?_spec`).
-/

namespace Barrage

variable {K : Type} [Scalar K] {assets : Assets K}

/-- All routines of an arrival can be read. -/
def Arrival.Ready (a : Arrival) (assets : Assets K) : Prop :=
  ∃ scripts, Enemy.scripts a.sheet assets = .ok scripts

/-- The image of the enemy that is stored under the key of an entry. -/
def LevelEntry.image? (e : LevelEntry) (assets : Assets K) : Option String :=
  (assets.enemy e.subject).toOption.map (·.image)

/-- Routines that can be read one by one can be read together. -/
theorem Enemy.scripts_of_forM {sheet : EnemySheet} {u : Unit}
    (h : (sheet.routines.forM fun name => discard (assets.routine name)) = .ok u) :
    ∃ scripts, Enemy.scripts sheet assets = .ok scripts := by
  rw [Enemy.scripts]
  generalize sheet.routines = names at h
  induction names with
  | nil => exact ⟨[], rfl⟩
  | cons name rest ih =>
    obtain ⟨_, hname, hrest⟩ := bind_eq_ok_iff.1 h
    obtain ⟨script, hname, -⟩ := map_eq_ok_iff.1 hname
    obtain ⟨scripts, hrest⟩ := ih hrest
    refine ⟨script :: scripts, ?_⟩
    rw [List.mapM_cons, hname, hrest]
    rfl

/-- The routines of a sheet were read one by one. -/
theorem Enemy.exists_routine_of_mem_scripts {sheet : EnemySheet} {scripts : List (RoutineScript K)}
    (h : Enemy.scripts sheet assets = .ok scripts) {script : RoutineScript K}
    (hscript : script ∈ scripts) : ∃ name ∈ sheet.routines, assets.routine name = .ok script :=
  exists_of_mem_of_mapM_eq_ok h hscript

/-- What holds of the routines of all scripts that a sheet names holds of the routines of an enemy
that is made from it. -/
theorem Enemy.forall_routines_spawn {P : Routine K → Prop} {sheet : EnemySheet}
    (hP : ∀ name ∈ sheet.routines, ∀ {script : RoutineScript K},
      assets.routine name = .ok script → P (.ofScript script))
    {w w' : World K} {group : GroupId} {settings : Settings K} {size : Size K} {e : Enemy K}
    (hspawn : Enemy.spawn sheet assets w group settings size = .ok (e, w')) :
    ∀ r ∈ e.sequence.routines, P r := by
  obtain ⟨scripts, hscripts, hspawn⟩ := map_eq_ok_iff.1 hspawn
  cases hspawn
  intro r hr
  obtain ⟨script, hscript, rfl⟩ := List.mem_map.1 hr
  obtain ⟨name, hname, hroutine⟩ := exists_routine_of_mem_scripts hscripts hscript
  exact hP name hname hroutine

/-- An entry brings an enemy whose routines can be read, or none. -/
theorem LevelEntry.arrival_eq_ok {e : LevelEntry} {found : Option Arrival}
    (h : e.arrival assets = .ok found) :
    (e.isEnemy = true ∧ ∃ a, found = some a ∧ a.time = e.time ∧
      assets.enemy e.subject = .ok a.sheet ∧ a.Ready assets) ∨
    (e.isEnemy = false ∧ found = none) := by
  unfold arrival at h
  split at h
  · next henemy =>
    obtain ⟨sheet, hsheet, h⟩ := bind_eq_ok_iff.1 h
    obtain ⟨_, hscripts, h⟩ := bind_eq_ok_iff.1 h
    cases h
    exact .inl ⟨henemy, _, rfl, rfl, hsheet, Enemy.scripts_of_forM hscripts⟩
  · next henemy =>
    cases h
    exact .inr ⟨Bool.eq_false_iff.2 henemy, rfl⟩

namespace Level

/-- The enemies of a timeline, when each entry is read on its own. -/
def arrivals? (assets : Assets K) (entries : List LevelEntry) :
    Except AssetError (List Arrival) := do
  return (← entries.mapM (LevelEntry.arrival assets)).filterMap id

/-- An enemy on the timeline arrives if its sheet and its routines can be read. -/
theorem arrivals?_cons_of_isEnemy {e : LevelEntry} (h : e.isEnemy = true)
    (rest : List LevelEntry) : arrivals? assets (e :: rest) = do
      let sheet ← assets.enemy e.subject
      sheet.routines.forM fun name => discard (assets.routine name)
      return ⟨e.time, e.subject, sheet⟩ :: (← arrivals? assets rest) := by
  rw [arrivals?, arrivals?, List.mapM_cons, LevelEntry.arrival, if_pos h]
  cases assets.enemy e.subject with
  | error e => rfl
  | ok sheet =>
    cases hread : sheet.routines.forM fun name => discard (assets.routine name) with
    | error e =>
      simp only [bind, Except.bind, hread]
    | ok _ =>
      simp only [bind, Except.bind, hread]
      cases rest.mapM (LevelEntry.arrival assets) <;> rfl

/-- An entry that is no enemy is left out. -/
theorem arrivals?_cons_of_not_isEnemy {e : LevelEntry} (h : e.isEnemy = false)
    (rest : List LevelEntry) : arrivals? assets (e :: rest) = arrivals? assets rest := by
  rw [arrivals?, arrivals?, List.mapM_cons, LevelEntry.arrival, h, if_neg Bool.false_ne_true]
  cases rest.mapM (LevelEntry.arrival assets) <;> rfl

/-- What is on the roster is what would be read. -/
def Roster.Vetted (roster : Roster) (assets : Assets K) : Prop :=
  ∀ key sheet, roster[key]? = some sheet → assets.enemy key = .ok sheet ∧
    (sheet.routines.forM fun name => discard (assets.routine name)) = .ok ()

/-- An empty roster vouches for nothing. -/
theorem Roster.vetted_empty (assets : Assets K) : Vetted ∅ assets := by
  intro key sheet h
  simp at h

/-- An enemy that was read, with all its routines, can be put on the roster. -/
theorem Roster.Vetted.insert {roster : Roster} (h : roster.Vetted assets) {key : String}
    {sheet : EnemySheet} (hsheet : assets.enemy key = .ok sheet)
    (hroutines : (sheet.routines.forM fun name => discard (assets.routine name)) = .ok ()) :
    Vetted (Std.ExtTreeMap.insert roster key sheet) assets := by
  intro other found hfound
  rw [Std.ExtTreeMap.getElem?_insert] at hfound
  split at hfound
  · next heq =>
    obtain rfl := Std.LawfulEqOrd.compare_eq_iff_eq.1 heq
    cases hfound
    exact ⟨hsheet, hroutines⟩
  · exact h other found hfound

/-- The roster only saves reading an enemy again. -/
theorem enlist_eq_arrivals? {roster : Roster} (h : roster.Vetted assets)
    (entries : List LevelEntry) : enlist assets roster entries = arrivals? assets entries := by
  induction entries generalizing roster with
  | nil => rfl
  | cons e rest ih =>
    unfold enlist
    cases henemy : e.isEnemy with
    | false =>
      rw [if_neg Bool.false_ne_true, ih h, arrivals?_cons_of_not_isEnemy henemy]
    | true =>
      rw [if_pos rfl, arrivals?_cons_of_isEnemy henemy]
      cases hfound : roster[e.subject]? with
      | some sheet =>
        obtain ⟨hsheet, hroutines⟩ := h e.subject sheet hfound
        simp only [hsheet, bind, Except.bind, hroutines, ih h]
      | none =>
        cases hsheet : assets.enemy e.subject with
        | error e => rfl
        | ok sheet =>
          cases hroutines : sheet.routines.forM fun name => discard (assets.routine name) with
          | error e => simp only [bind, Except.bind, hroutines]
          | ok _ => simp only [bind, Except.bind, hroutines, ih (h.insert hsheet hroutines)]

end Level

/-- An enemy on the timeline is the enemy of an entry, and it is ready. -/
theorem Level.exists_entry_of_mem_arrivals {entries : List LevelEntry} {arrivals : List Arrival}
    (h : arrivals? assets entries = .ok arrivals) {a : Arrival} (ha : a ∈ arrivals) :
    ∃ e ∈ entries, e.isEnemy = true ∧ assets.enemy e.subject = .ok a.sheet ∧ a.Ready assets := by
  obtain ⟨found, hfound, harrivals⟩ := bind_eq_ok_iff.1 h
  cases harrivals
  obtain ⟨_, hsome, rfl⟩ := List.mem_filterMap.1 ha
  obtain ⟨e, he, harrival⟩ := exists_of_mem_of_mapM_eq_ok hfound hsome
  rcases LevelEntry.arrival_eq_ok harrival with ⟨henemy, b, hb, -, hsheet, hready⟩ | ⟨-, hnone⟩
  · cases hb
    exact ⟨e, he, henemy, hsheet, hready⟩
  · cases hnone

/-- The arrivals of a level are ready, and those of each frame are the enemies that its entries list
for it, in their order. -/
theorem Level.arrivals?_spec {entries : List LevelEntry} {arrivals : List Arrival}
    (h : arrivals? assets entries = .ok arrivals) :
    (∀ a ∈ arrivals, a.Ready assets) ∧
    ∀ time, (arrivals.filter (·.time == time)).map (fun a => some a.sheet.image) =
      (entries.filter fun e => e.isEnemy && e.time == time).map (·.image? assets) := by
  constructor
  · intro a ha
    obtain ⟨_, -, -, -, hready⟩ := exists_entry_of_mem_arrivals h ha
    exact hready
  intro time
  obtain ⟨found, hfound, harrivals⟩ := bind_eq_ok_iff.1 h
  clear h
  cases harrivals
  induction entries generalizing found with
  | nil =>
    cases hfound
    rfl
  | cons e rest ih =>
    rw [List.mapM_cons] at hfound
    obtain ⟨first, hfirst, hfound⟩ := bind_eq_ok_iff.1 hfound
    obtain ⟨later, hlater, hfound⟩ := bind_eq_ok_iff.1 hfound
    cases hfound
    have hsame := ih later hlater
    rcases LevelEntry.arrival_eq_ok hfirst with
      ⟨henemy, a, rfl, htime, hsheet, -⟩ | ⟨hother, rfl⟩
    · have himage : e.image? assets = some a.sheet.image := by
        rw [LevelEntry.image?, hsheet]
        rfl
      have hcons : (some a :: later).filterMap id = a :: later.filterMap id := rfl
      rw [hcons, List.filter_cons, List.filter_cons, henemy, Bool.true_and, htime]
      split
      · rw [List.map_cons, List.map_cons, hsame, himage]
      · exact hsame
    · rw [List.filter_cons, hother, Bool.false_and]
      exact hsame

end Barrage
