import Barrage.Assets

/-!
# What can be read from assets

A reader takes a number only if it fits the width of its field. So whatever the assets are, the
sheets and the routines that are read from them have numbers of these widths.
-/

namespace Barrage

variable {K : Type} {α : Type}

namespace Json

/-- An integer that was read is between the bounds. -/
theorem intIn?_eq_some {lo hi i : Int} {j : Json K} (h : intIn? lo hi j = some i) :
    lo ≤ i ∧ i < hi := by
  unfold intIn? at h
  split at h
  · split at h
    · next hin =>
      cases h
      exact hin
    · cases h
  · cases h

/-- A natural number that was read fits thirty-two bits. -/
theorem nat32?_eq_some {n : Nat} {j : Json K} (h : nat32? j = some n) : n < 0x100000000 := by
  obtain ⟨i, hi, rfl⟩ := Option.map_eq_some_iff.1 h
  have hin := intIn?_eq_some hi
  omega

/-- A value that was read although it may be missing was read by the rule for the value. -/
theorem option?_eq_some {read : Json K → Option α} {j : Json K} {a : α}
    (h : option? read j = some (some a)) : read j = some a := by
  unfold option? at h
  split at h
  · cases h
  · obtain ⟨b, hb, hab⟩ := Option.map_eq_some_iff.1 h
    rw [hb, hab]

namespace Fields

/-- What is read from a field was read from a value. -/
theorem required_eq_some {f : Fields K} {index : Nat} {name : String} {read : Json K → Option α}
    {a : α} (h : f.required index name read = some a) : ∃ j, read j = some a := by
  obtain ⟨j, -, hj⟩ := Option.bind_eq_some_iff.1 h
  exact ⟨j, hj⟩

/-- So is what is read from a field with a default, unless it is the default. -/
theorem withDefault_eq_some {f : Fields K} {index : Nat} {name : String} {default a : α}
    {read : Json K → Option α} (h : f.withDefault index name default read = some a) :
    a = default ∨ ∃ j, read j = some a := by
  unfold withDefault at h
  split at h
  · exact .inl (Option.some.inj h).symm
  · next j _ => exact .inr ⟨j, h⟩

end Fields

end Json

variable [Scalar K]

/-- The rate of a weapon that was read fits thirty-two bits. -/
theorem WeaponSheet.fireRate_lt {j : Json K} {w : WeaponSheet K} (h : ofJson? j = some w) :
    w.fireRate < 0x100000000 := by
  obtain ⟨f, -, h⟩ := Option.bind_eq_some_iff.1 h
  obtain ⟨rate, hrate, h⟩ := Option.bind_eq_some_iff.1 h
  obtain ⟨shots, -, h⟩ := Option.bind_eq_some_iff.1 h
  obtain ⟨speed, -, h⟩ := Option.bind_eq_some_iff.1 h
  cases h
  obtain ⟨j, hj⟩ := Json.Fields.required_eq_some hrate
  exact Json.nat32?_eq_some hj

omit [Scalar K] in
/-- The energy of a special that was read fits thirty-two bits. -/
theorem SpecialSheet.energyRequired_lt {j : Json K} {s : SpecialSheet} (h : ofJson? j = some s) :
    s.energyRequired < 0x100000000 := by
  obtain ⟨f, -, h⟩ := Option.bind_eq_some_iff.1 h
  obtain ⟨name, -, h⟩ := Option.bind_eq_some_iff.1 h
  obtain ⟨energy, henergy, h⟩ := Option.bind_eq_some_iff.1 h
  cases h
  obtain ⟨j, hj⟩ := Json.Fields.required_eq_some henergy
  exact Json.nat32?_eq_some hj

/-- The numbers of a player that can be read. -/
theorem PlayerSheet.bounds {j : Json K} {p : PlayerSheet K} (h : ofJson? j = some p) :
    p.weapon.fireRate < 0x100000000 ∧ (-0x80000000 ≤ p.lives ∧ p.lives < 0x80000000) ∧
      p.special.energyRequired < 0x100000000 := by
  obtain ⟨f, -, h⟩ := Option.bind_eq_some_iff.1 h
  obtain ⟨folder, -, h⟩ := Option.bind_eq_some_iff.1 h
  obtain ⟨weapon, hweapon, h⟩ := Option.bind_eq_some_iff.1 h
  obtain ⟨speeds, -, h⟩ := Option.bind_eq_some_iff.1 h
  obtain ⟨window, -, h⟩ := Option.bind_eq_some_iff.1 h
  obtain ⟨lives, hlives, h⟩ := Option.bind_eq_some_iff.1 h
  obtain ⟨special, hspecial, h⟩ := Option.bind_eq_some_iff.1 h
  cases h
  obtain ⟨_, hweapon⟩ := Json.Fields.required_eq_some hweapon
  obtain ⟨_, hlives⟩ := Json.Fields.required_eq_some hlives
  obtain ⟨_, hspecial⟩ := Json.Fields.required_eq_some hspecial
  exact ⟨WeaponSheet.fireRate_lt hweapon, Json.intIn?_eq_some hlives,
    SpecialSheet.energyRequired_lt hspecial⟩

/-- The hit points of a routine that can be read. -/
theorem RoutineScript.hitPoints_lt {j : Json K} {s : RoutineScript K} (h : ofJson? j = some s)
    {n : Nat} (hn : s.hitPoints = some n) : n < 0x100000000 := by
  obtain ⟨f, -, h⟩ := Option.bind_eq_some_iff.1 h
  obtain ⟨name, -, h⟩ := Option.bind_eq_some_iff.1 h
  obtain ⟨loops, -, h⟩ := Option.bind_eq_some_iff.1 h
  obtain ⟨duration, -, h⟩ := Option.bind_eq_some_iff.1 h
  obtain ⟨hitPoints, hpoints, h⟩ := Option.bind_eq_some_iff.1 h
  obtain ⟨moves, -, h⟩ := Option.bind_eq_some_iff.1 h
  obtain ⟨patterns, -, h⟩ := Option.bind_eq_some_iff.1 h
  cases h
  obtain rfl : hitPoints = some n := hn
  rcases Json.Fields.withDefault_eq_some hpoints with hnone | ⟨j, hj⟩
  · cases hnone
  · exact Json.nat32?_eq_some (Json.option?_eq_some hj)

namespace Assets

omit [Scalar K] in
/-- What is read under a key was read from a value. -/
theorem read_eq_ok {shape : Json K → Option α} {a : Assets K} {key : String} {value : α}
    (h : a.read shape key = .ok value) : ∃ j, shape j = some value := by
  unfold read at h
  split at h
  · cases h
  · next j _ =>
    split at h
    · next hshape =>
      cases h
      exact ⟨j, hshape⟩
    · cases h

end Assets

end Barrage
