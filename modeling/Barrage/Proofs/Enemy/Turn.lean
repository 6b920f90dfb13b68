import Barrage.Proofs.Enemy.Update

/-!
# What an update makes of an enemy

Whatever the world around it, an update leaves an enemy that has no routine left as it is, and of
any other one it changes the routine that it has found: this one gets a movement and moves on by a
frame (`Enemy.Turn`). Which of the two it does, and whether the enemy moves to its next routine, is
decided by the enemy alone (`Enemy.isDone`, `Enemy.goesOn`).

What others can tell of an enemy is its role: its body and its image, the names of its routines, and
the place of the current one. Damage leaves the role as it is (`Enemy.role_damage`), and a turn
changes the place alone (`Turn.role_eq`).
-/

namespace Barrage

variable {K : Type}

/-- The names of the routines of a sequence, in the order of play. -/
def Sequence.names (s : Sequence K) : List String := s.routines.map (·.name)

/-- A change of the current routine that leaves its name. -/
theorem Sequence.names_modifyCurrent {s : Sequence K} {change : Routine K → Routine K}
    (hname : ∀ r, s.current? = some r → (change r).name = r.name) :
    (s.modifyCurrent change).names = s.names := map_modifyCurrent hname

/-- What can be told of an enemy. -/
structure Role where
  body : BodyId
  image : String
  /-- The names of its routines, in the order of play. -/
  names : List String
  /-- The place of the current one. -/
  cursor : Nat
  deriving DecidableEq

/-- The names of the routines of a sheet, in the order of play. -/
def EnemySheet.routineNames [Scalar K] (sheet : EnemySheet) (assets : Assets K) : List String :=
  ((Enemy.scripts sheet assets).toOption.getD []).map (·.name)

/-- The role in which an enemy of a sheet comes. -/
def EnemySheet.role [Scalar K] (sheet : EnemySheet) (assets : Assets K) (body : BodyId) : Role :=
  ⟨body, sheet.image, sheet.routineNames assets, 0⟩

namespace Enemy

/-- The role of an enemy. -/
def role (e : Enemy K) : Role := ⟨e.body, e.image, e.sequence.names, e.sequence.cursor⟩

/-- Damage leaves an enemy its role. -/
theorem role_damage (e : Enemy K) (amount : Nat) : (e.damage amount).role = e.role :=
  congrArg (fun names => (⟨e.body, e.image, names, e.sequence.cursor⟩ : Role))
    (Sequence.names_modifyCurrent fun _ _ => rfl)

/-- Damage in two portions is damage in one. -/
theorem damage_damage (e : Enemy K) (first second : Nat) :
    (e.damage first).damage second = e.damage (first + second) := by
  have hsequence :
      (e.sequence.damage first).damage second = e.sequence.damage (first + second) := by
    rw [Sequence.damage, Sequence.damage, Sequence.modifyCurrent_modifyCurrent, Sequence.damage]
    refine congrArg e.sequence.modifyCurrent (funext fun r => ?_)
    exact r.damage_damage first second
  exact congrArg (fun sequence => { e with sequence }) hsequence

/-- Without damage nothing happens. -/
theorem damage_zero (e : Enemy K) : e.damage 0 = e := by
  have hroutines : e.sequence.routines.modify e.sequence.cursor (Routine.damage · 0) =
      e.sequence.routines := by
    rw [show (Routine.damage · 0) = id from funext Routine.damage_zero, List.modify_id]
  exact congrArg (fun routines => { e with sequence := { e.sequence with routines } }) hroutines

/-- Whether the next update finds no routine. -/
def isDone (e : Enemy K) : Bool := e.transition?.isNone

/-- Whether the next update moves to the next routine. -/
def goesOn (e : Enemy K) : Bool := e.sequence.isFinished && e.sequence.hasNext

/-- What an update makes of an enemy, in whatever world: nothing when no routine is left, and
otherwise the routine that it has found gets a movement and moves on by a frame. -/
inductive Turn (e : Enemy K) : Enemy K → Prop
  | done (h : e.transition? = none) : Turn e e
  | acts {e' : Enemy K} {r : Routine K} (ongoing : Movement K) (h : e.transition? = some e')
      (hr : e'.sequence.current? = some r) : Turn e { e' with
        sequence := e'.sequence.modifyCurrent fun _ => ({ r with ongoing } : Routine K).advance }

variable {e e' : Enemy K}

/-- An update that finds a routine is at one. -/
theorem exists_current_transition? (h : e.transition? = some e') :
    ∃ r, e'.sequence.current? = some r := by
  rcases transition?_eq_some h with ⟨hgoes, rfl⟩ | ⟨-, hnext, rfl⟩
  · cases hr : e'.sequence.current? with
    | none =>
      rw [Sequence.isFinished, hr] at hgoes
      cases hgoes
    | some r => exact ⟨r, rfl⟩
  · have hlt := hnext
    rw [Sequence.hasNext, decide_eq_true_eq] at hlt
    rw [Sequence.toNext, if_pos hnext]
    exact ⟨_, List.getElem?_eq_getElem hlt⟩

/-- A turn changes the place of the current routine alone. -/
theorem Turn.role_eq (h : e.Turn e') : e'.role =
    { e.role with cursor := if e.goesOn then e.sequence.cursor + 1 else e.sequence.cursor } := by
  cases h with
  | done h =>
    obtain ⟨hover, hnext⟩ := transition?_eq_none_iff.1 h
    rw [goesOn, hover, hnext]
    rfl
  | @acts found r ongoing h hr =>
    have hnames : (found.sequence.modifyCurrent fun _ =>
        ({ r with ongoing } : Routine K).advance).names = found.sequence.names :=
      Sequence.names_modifyCurrent fun r' hr' => by
        rw [Option.some.inj (hr'.symm.trans hr)]
        rfl
    rw [role, hnames]
    rcases transition?_eq_some h with ⟨hgoes, rfl⟩ | ⟨hover, hnext, rfl⟩
    · rw [goesOn, hgoes]
      rfl
    · rw [goesOn, hover, hnext, Sequence.toNext, if_pos hnext]
      rfl

/-- A turn keeps the body of the enemy. -/
theorem Turn.body_eq (h : e.Turn e') : e'.body = e.body := congrArg Role.body h.role_eq

/-- A turn keeps the routines of the enemy, by their names. -/
theorem Turn.names_eq (h : e.Turn e') : e'.sequence.names = e.sequence.names :=
  congrArg Role.names h.role_eq

/-- A turn moves the cursor on by one when the enemy goes on, and not otherwise. -/
theorem Turn.cursor_eq (h : e.Turn e') :
    e'.sequence.cursor = if e.goesOn then e.sequence.cursor + 1 else e.sequence.cursor :=
  congrArg Role.cursor h.role_eq

/-- After a turn that has found a routine the enemy is at one. -/
theorem Turn.exists_current (h : e.Turn e') (hdone : e.isDone = false) :
    ∃ r, e'.sequence.current? = some r := by
  cases h with
  | done h =>
    rw [isDone, h] at hdone
    cases hdone
  | acts ongoing h hr =>
    exact ⟨_, (Sequence.current?_modifyCurrent _ _).trans (congrArg (Option.map _) hr)⟩

/-- What holds of the routines, and is kept when one of them gets a movement and moves on, holds of
them afterwards. -/
theorem Turn.forall_routines (h : e.Turn e') {P : Routine K → Prop}
    (hP : ∀ r ongoing, P r → P ({ r with ongoing } : Routine K).advance)
    (he : ∀ r ∈ e.sequence.routines, P r) : ∀ r ∈ e'.sequence.routines, P r := by
  cases h with
  | done => exact he
  | @acts found current ongoing h hr =>
    have hroutines := routines_transition? h
    intro r hin
    obtain ⟨i, hi⟩ := List.mem_iff_getElem?.1 hin
    by_cases hcursor : found.sequence.cursor = i
    · subst hcursor
      have hnew := (found.sequence.current?_modifyCurrent fun _ =>
        ({ current with ongoing } : Routine K).advance).trans (congrArg (Option.map _) hr)
      obtain rfl := Option.some.inj (hnew.symm.trans hi)
      exact hP current ongoing (he current (hroutines ▸ List.mem_of_getElem? hr))
    · have hsame := (Sequence.routines_modifyCurrent_of_ne hcursor _).symm.trans hi
      exact he r (hroutines ▸ List.mem_of_getElem? hsame)

/-- What holds of the routines, and is kept by damage, holds of them after a hit. -/
theorem forall_routines_damage {P : Routine K → Prop} {amount : Nat}
    (hP : ∀ r, P r → P (r.damage amount)) (he : ∀ r ∈ e.sequence.routines, P r) :
    ∀ r ∈ (e.damage amount).sequence.routines, P r := by
  intro r hr
  obtain ⟨i, hi⟩ := List.mem_iff_getElem?.1 hr
  by_cases hcursor : e.sequence.cursor = i
  · subst hcursor
    obtain ⟨before, hbefore, rfl⟩ := Option.map_eq_some_iff.1
      ((e.sequence.current?_modifyCurrent _).symm.trans hi)
    exact hP before (he before (List.mem_of_getElem? hbefore))
  · have hsame := (Sequence.routines_modifyCurrent_of_ne hcursor _).symm.trans hi
    exact he r (List.mem_of_getElem? hsame)

/-- An enemy without a next update does not go on. -/
theorem goesOn_of_isDone (h : e.isDone = true) : e.goesOn = false := by
  rw [isDone, Option.isNone_iff_eq_none, transition?_eq_none_iff] at h
  rw [goesOn, h.2, Bool.and_false]

/-- An enemy that goes on has a next routine. -/
theorem exists_next_of_goesOn (h : e.goesOn = true) :
    ∃ name, e.sequence.names[e.sequence.cursor + 1]? = some name := by
  rw [goesOn, Bool.and_eq_true, Sequence.hasNext, decide_eq_true_eq] at h
  rw [Sequence.names, List.getElem?_map, List.getElem?_eq_getElem h.2]
  exact ⟨_, rfl⟩

variable [Scalar K]

/-- An update is such a turn, and it reports the end when it finds no routine. -/
theorem turn_play (e : Enemy K) (s : Scene K) : e.Turn (e.play s).enemy ∧
    ((e.play s).report = .finished ↔ e.isDone = true) := by
  cases h : e.transition? with
  | none =>
    rw [play_of_none h, isDone, h]
    exact ⟨.done h, fun _ => rfl, fun _ => rfl⟩
  | some found =>
    obtain ⟨r, hr⟩ := exists_current_transition? h
    obtain ⟨ongoing, x, y, w', -, henemy, -, hreport, -⟩ := play_of_some h hr s
    rw [henemy, hreport, isDone, h]
    exact ⟨.acts ongoing h hr, nofun, nofun⟩

end Enemy

end Barrage
