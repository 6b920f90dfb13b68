/-!
# Faults

The one way in which the simulation can fail after it was set up: a counter that does not fit its
width any more.
-/

namespace Barrage

/-- Why a frame could not be completed. -/
inductive Fault where
  /-- A sum left the range of its counter. -/
  | counterOverflow
  deriving DecidableEq, Repr

/-- The text that reports a fault. -/
def Fault.message : Fault → String
  | .counterOverflow => "attempt to add with overflow"

section
variable {ε α β : Type} {x : Except ε α} {b : β}

/-- One computation after another succeeds when both of them do. -/
theorem bind_eq_ok_iff {f : α → Except ε β} :
    (x >>= f) = .ok b ↔ ∃ a, x = .ok a ∧ f a = .ok b := by
  cases x with
  | error e => exact ⟨nofun, nofun⟩
  | ok a => exact ⟨fun h => ⟨a, rfl, h⟩, fun ⟨_, rfl, h⟩ => h⟩

/-- What is made of a result succeeds when there is a result. -/
theorem map_eq_ok_iff {f : α → β} : x.map f = .ok b ↔ ∃ a, x = .ok a ∧ f a = b := by
  cases x with
  | error e => exact ⟨nofun, nofun⟩
  | ok a => exact ⟨fun h => ⟨a, rfl, Except.ok.inj h⟩, fun ⟨_, rfl, h⟩ => congrArg _ h⟩

/-- One computation after another fails when one of them does. -/
theorem bind_eq_error_iff {f : α → Except ε β} {e : ε} :
    (x >>= f) = .error e ↔ x = .error e ∨ ∃ a, x = .ok a ∧ f a = .error e := by
  cases x with
  | error e' => exact ⟨fun h => .inl (congrArg _ (Except.error.inj h)), fun h =>
      h.elim (fun h => congrArg _ (Except.error.inj h)) nofun⟩
  | ok a => exact ⟨fun h => .inr ⟨a, rfl, h⟩, fun h => h.elim nofun fun ⟨_, rfl, h⟩ => h⟩

/-- What is made of a result fails when there is no result. -/
theorem map_eq_error_iff {f : α → β} {e : ε} : x.map f = .error e ↔ x = .error e := by
  cases x with
  | error e' => exact ⟨fun h => congrArg _ (Except.error.inj h), fun h =>
      congrArg _ (Except.error.inj h)⟩
  | ok a => exact ⟨nofun, nofun⟩

/-- What computations made of the members of a list were made of one of them. -/
theorem exists_of_mem_of_mapM_eq_ok {f : α → Except ε β} {as : List α} {bs : List β}
    (h : as.mapM f = .ok bs) (hb : b ∈ bs) : ∃ a ∈ as, f a = .ok b := by
  induction as generalizing bs with
  | nil =>
    cases h
    cases hb
  | cons a rest ih =>
    rw [List.mapM_cons] at h
    obtain ⟨first, hfirst, h⟩ := bind_eq_ok_iff.1 h
    obtain ⟨later, hlater, h⟩ := bind_eq_ok_iff.1 h
    cases h
    rcases List.mem_cons.1 hb with rfl | hb
    · exact ⟨a, List.mem_cons_self, hfirst⟩
    · obtain ⟨a', ha', hmade⟩ := ih hlater hb
      exact ⟨a', List.mem_cons_of_mem _ ha', hmade⟩

/-- What is evaluated of a result is there when the computation succeeds. -/
theorem toOption_map_eq_some_iff {f : α → β} :
    x.toOption.map f = some b ↔ ∃ a, x = .ok a ∧ f a = b := by
  cases x with
  | error e => exact ⟨nofun, nofun⟩
  | ok a => exact ⟨fun h => ⟨a, rfl, Option.some.inj h⟩, fun ⟨_, rfl, h⟩ => congrArg some h⟩

/-- A computation on a result that may be missing has a result when both parts succeed. -/
theorem toOption_bind_eq_some_iff {f : α → Option β} :
    x.toOption.bind f = some b ↔ ∃ a, x = .ok a ∧ f a = some b := by
  cases x with
  | error e => exact ⟨nofun, nofun⟩
  | ok a => exact ⟨fun h => ⟨a, rfl, h⟩, fun ⟨_, rfl, h⟩ => h⟩

end

/-- Number of frames a timer queue can count, `2 ^ 64`: the first due frame it cannot express. -/
abbrev timerCapacity : Nat := 0x10000000000000000

/-- Number of values of the counters for fight frames and bodies, `2 ^ 32`. -/
abbrev counterCapacity : Nat := 0x100000000

/-- The largest frame within a routine, `2 ^ 32 - 1`; the counter stays there. -/
abbrev lastTime : Nat := 0xffffffff

end Barrage
