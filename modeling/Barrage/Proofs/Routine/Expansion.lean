import Barrage.Proofs.Prng
import Barrage.Routine.Cue

/-!
# Nothing is missing when a routine is expanded

A row, a circle or a sweep draws from its lists in turn, and a look-up in an empty list would find
nothing. A pattern that lacks a list it draws from is not expanded at all, so every other one has a
shot at each of its places. A sweep of no shots is not expanded either, so there is a last shot to
count its length to. Nor does a random number of a movement divide by nothing.

`Supplied` puts these facts together.
-/

namespace Barrage

variable {K : Type} [Scalar K]

/-- A list with a member has one at every place when it is used in turn. -/
theorem isSome_turn? {α : Type} {items : List α} (h : items.isEmpty = false) (i : Nat) :
    (turn? items i).isSome = true := by
  have hpos : 0 < items.length := List.length_pos_iff.2 (List.isEmpty_eq_false_iff.1 h)
  rw [turn?, List.getElem?_eq_getElem (Nat.mod_lt i hpos)]
  rfl

/-- A complete row has a shot at each of its places. -/
theorem RowScript.isSome_shot? {r : RowScript K} (h : r.complete = true) (i : Nat) :
    (r.shot? i).isSome = true := by
  simp only [complete, Bool.and_eq_true, Bool.not_eq_true'] at h
  obtain ⟨image, himage⟩ := Option.isSome_iff_exists.1 (isSome_turn? h.1.1 i)
  obtain ⟨speed, hspeed⟩ := Option.isSome_iff_exists.1 (isSome_turn? h.1.2 i)
  obtain ⟨degrees, hdegrees⟩ := Option.isSome_iff_exists.1 (isSome_turn? h.2 i)
  rw [shot?, himage, hspeed, hdegrees]
  rfl

/-- A complete circle has a shot at each of its places. -/
theorem CircleScript.isSome_shot? {c : CircleScript K} (h : c.complete = true) (i : Nat) :
    (c.shot? i).isSome = true := by
  simp only [complete, Bool.and_eq_true, Bool.not_eq_true', Bool.or_eq_true] at h
  obtain ⟨image, himage⟩ := Option.isSome_iff_exists.1 (isSome_turn? h.1.1 i)
  obtain ⟨speed, hspeed⟩ := Option.isSome_iff_exists.1 (isSome_turn? h.1.2 i)
  rw [shot?, himage, hspeed]
  cases hspread : c.spread with
  | true => rfl
  | false =>
    obtain ⟨degrees, hdegrees⟩ := Option.isSome_iff_exists.1
      (isSome_turn? (h.2.resolve_left (Bool.eq_false_iff.1 hspread)) i)
    rw [hdegrees]
    rfl

/-- A complete sweep has a shot at each of its places. -/
theorem TwisterScript.isSome_shot? {t : TwisterScript K} (h : t.complete = true) (i : Nat)
    (degrees : K) : (t.shot? i degrees).isSome = true := by
  simp only [complete, Bool.and_eq_true, Bool.not_eq_true'] at h
  obtain ⟨image, himage⟩ := Option.isSome_iff_exists.1 (isSome_turn? h.1 i)
  obtain ⟨speed, hspeed⟩ := Option.isSome_iff_exists.1 (isSome_turn? h.2 i)
  rw [shot?, himage, hspeed]
  rfl

/-- A sweep that is expanded has a shot. -/
theorem TwisterScript.count_pos {t : TwisterScript K} {duration : Nat}
    (h : t.cues duration ≠ []) : 0 < t.count := by
  refine Nat.pos_of_ne_zero fun hzero => h ?_
  rw [cues, hzero, sweep]

/-- What the expansion and the movements of a routine rely on: no look-up finds nothing, no count is
taken below zero, and no division is by zero. -/
structure Supplied (K : Type) [Scalar K] : Prop where
  row : ∀ {r : RowScript K}, r.complete = true → ∀ i, (r.shot? i).isSome = true
  circle : ∀ {c : CircleScript K}, c.complete = true → ∀ i, (c.shot? i).isSome = true
  twister : ∀ {t : TwisterScript K}, t.complete = true → ∀ i degrees,
    (t.shot? i degrees).isSome = true
  twister_count : ∀ {t : TwisterScript K} {duration : Nat}, t.cues duration ≠ [] → 0 < t.count
  span : ∀ lo hi, Prng.spanOf lo hi ≠ 0

/-- An expansion has what it relies on, whatever the patterns are. -/
theorem supplied : Supplied K where
  row := RowScript.isSome_shot?
  circle := CircleScript.isSome_shot?
  twister := TwisterScript.isSome_shot?
  twister_count := TwisterScript.count_pos
  span := Prng.spanOf_ne_zero

end Barrage
