import Barrage.Fight.Basic

/-!
# What is told of a frame

Each phase of a frame has events of its own: what happened says in which phase it happened
(`EventData.phase`). A tick tells the events of all phases, sorted. The sort loses no event and adds
none (`Event.perm_sort`), and events that are in order already stay in their order, whatever stands
between them (`Event.filterMap_sort`). An event that is behind all others comes last
(`Event.exists_sort_concat`).
-/

namespace Barrage

/-- The phases of a frame that have events. -/
inductive Phase where
  | timers
  /-- The player meets enemies and their bullets. -/
  | playerHits
  /-- Bullets of the player meet enemies. -/
  | enemyHits
  | player
  | arrivals
  | enemies
  /-- The frame is counted. -/
  | count
  deriving DecidableEq

/-- The phases in the order of a frame. -/
def Phase.all : List Phase :=
  [.timers, .playerHits, .enemyHits, .player, .arrivals, .enemies, .count]

/-- The phase in which something happens. -/
def EventData.phase : EventData → Phase
  | invincibilityEnded => .timers
  | playerHit _ => .playerHits
  | enemyHit _ _ => .enemyHits
  | specialExecuted _ => .player
  | enemySpawned _ _ => .arrivals
  | routineChanged _ _ => .enemies
  | enemyExhausted _ => .enemies
  | gameOver _ => .count

/-- All events of some reports, in the order in which they were told. -/
def told (reports : List TickReport) : List Event := reports.flatMap (·.events)

/-- The last report tells its events behind all others. -/
theorem told_concat (reports : List TickReport) (report : TickReport) :
    told (reports ++ [report]) = told reports ++ report.events := by
  rw [told, List.flatMap_append, List.flatMap_singleton, told]

/-- A tick on which nothing happens tells nothing. -/
theorem told_quiet (reports : List TickReport) (pause ended : Bool) :
    told (reports ++ [⟨[], pause, ended⟩]) = told reports := by
  rw [told_concat, List.append_nil]

namespace Event

/-- Something happened in a phase of a frame. -/
def At (frame : Nat) (p : Phase) (e : Event) : Prop := e = .on frame e.data ∧ e.data.phase = p

/-- An event that is made on a frame is one of that frame and of the phase of its data. -/
theorem at_on {frame : Nat} {p : Phase} {data : EventData} (h : data.phase = p) :
    (on frame data).At frame p := ⟨rfl, h⟩

/-- An event of a frame bears the number of the frame. -/
theorem At.frame_eq {frame : Nat} {p : Phase} {e : Event} (h : e.At frame p) :
    e.frame = frame := by
  rw [h.1]
  rfl

/-- The frame and the lives that are left, when the player was hit. -/
def playerHit? (e : Event) : Option (Nat × Int) :=
  match e.data with
  | .playerHit lives => some (e.frame, lives)
  | _ => none

/-- The frame, when a window ended. -/
def windowEnd? (e : Event) : Option Nat :=
  match e.data with
  | .invincibilityEnded => some e.frame
  | _ => none

/-- The frame, when the special was used. -/
def special? (e : Event) : Option Nat :=
  match e.data with
  | .specialExecuted _ => some e.frame
  | _ => none

/-- The enemy and the damage, when one was hit. -/
def enemyHit? (e : Event) : Option (BodyId × Nat) :=
  match e.data with
  | .enemyHit body damage => some (body, damage)
  | _ => none

/-- The enemy, when one was exhausted. -/
def exhausted? (e : Event) : Option BodyId :=
  match e.data with
  | .enemyExhausted body => some body
  | _ => none

/-- The frame and the number of frames that were played, when the fight was over. -/
def gameOver? (e : Event) : Option (Nat × Nat) :=
  match e.data with
  | .gameOver frames => some (e.frame, frames)
  | _ => none

/-- The arrival of an enemy. -/
structure Spawn where
  frame : Nat
  body : BodyId
  image : String
  deriving DecidableEq

/-- The arrival, when an enemy came. -/
def spawn? (e : Event) : Option Spawn :=
  match e.data with
  | .enemySpawned body image => some ⟨e.frame, body, image⟩
  | _ => none

/-- A hit of the player is told in the phase of the hits of the player. -/
theorem phase_of_playerHit? (e : Event) (h : e.playerHit?.isSome) : e.data.phase = .playerHits := by
  unfold playerHit? at h
  split at h
  · next hdata => rw [hdata]; rfl
  · cases h

/-- The end of a window is told in the phase of the timers. -/
theorem phase_of_windowEnd? (e : Event) (h : e.windowEnd?.isSome) : e.data.phase = .timers := by
  unfold windowEnd? at h
  split at h
  · next hdata => rw [hdata]; rfl
  · cases h

/-- A special is told in the phase of the player. -/
theorem phase_of_special? (e : Event) (h : e.special?.isSome) : e.data.phase = .player := by
  unfold special? at h
  split at h
  · next hdata => rw [hdata]; rfl
  · cases h

/-- A hit of an enemy is told in the phase of the hits of enemies. -/
theorem phase_of_enemyHit? (e : Event) (h : e.enemyHit?.isSome) : e.data.phase = .enemyHits := by
  unfold enemyHit? at h
  split at h
  · next hdata => rw [hdata]; rfl
  · cases h

/-- An exhausted enemy is told in the phase of the enemies. -/
theorem phase_of_exhausted? (e : Event) (h : e.exhausted?.isSome) : e.data.phase = .enemies := by
  unfold exhausted? at h
  split at h
  · next hdata => rw [hdata]; rfl
  · cases h

/-- The end of the fight is told when the frame is counted. -/
theorem phase_of_gameOver? (e : Event) (h : e.gameOver?.isSome) : e.data.phase = .count := by
  unfold gameOver? at h
  split at h
  · next hdata => rw [hdata]; rfl
  · cases h

/-- An arrival is told in the phase of the arrivals. -/
theorem phase_of_spawn? (e : Event) (h : e.spawn?.isSome) : e.data.phase = .arrivals := by
  unfold spawn? at h
  split at h
  · next hdata => rw [hdata]; rfl
  · cases h

/-! ## The order -/

/-- An event is not behind another one if its frame is earlier, or the frame is the same and its
rank there is not larger. -/
theorem isLE_cmp {a b : Event} :
    (cmp a b).isLE ↔ a.frame < b.frame ∨ a.frame = b.frame ∧
      (a.priority.rank < b.priority.rank ∨ a.priority.rank = b.priority.rank ∧
        subjectRank a.subject ≤ subjectRank b.subject) := by
  rw [cmp, Ordering.isLE_then_iff_or, Ordering.isLE_then_iff_or]
  simp only [Nat.compare_eq_lt, Nat.compare_eq_eq, Nat.isLE_compare]

/-- The order of events is reflexive. -/
theorem isLE_cmp_refl (a : Event) : (cmp a a).isLE := by
  rw [isLE_cmp]
  omega

/-- The order of events is transitive. -/
theorem isLE_cmp_trans (a b c : Event) (hab : (cmp a b).isLE) (hbc : (cmp b c).isLE) :
    (cmp a c).isLE := by
  rw [isLE_cmp] at *
  omega

/-- The order of events is total. -/
theorem isLE_cmp_total (a b : Event) : ((cmp a b).isLE || (cmp b a).isLE) = true := by
  rw [Bool.or_eq_true, isLE_cmp, isLE_cmp]
  omega

/-! ## The sort -/

section
variable {events : List Event}

/-- The sort neither loses events nor adds some. -/
theorem perm_sort (events : List Event) : (sort events).Perm events := List.mergeSort_perm _ _

/-- To sort events neither loses nor adds any. -/
theorem mem_sort {e : Event} : e ∈ sort events ↔ e ∈ events := (perm_sort events).mem_iff

/-- Sorted events are in order. -/
theorem pairwise_sort (events : List Event) :
    (sort events).Pairwise fun a b => (cmp a b).isLE :=
  List.pairwise_mergeSort isLE_cmp_trans isLE_cmp_total events

/-- Events that are in order already stay in their order. -/
theorem filter_sort {p : Event → Bool}
    (h : (events.filter p).Pairwise fun a b => (cmp a b).isLE) :
    (sort events).filter p = events.filter p := by
  have hsub : (events.filter p).Sublist (sort events) :=
    List.sublist_mergeSort isLE_cmp_trans isLE_cmp_total h List.filter_sublist
  have hsub := hsub.filter p
  rw [List.filter_filter] at hsub
  simp only [Bool.and_self] at hsub
  exact (hsub.eq_of_length ((perm_sort events).filter p).length_eq.symm).symm

/-- What is read off some events does not depend on the others. -/
theorem filterMap_filter_isSome {β : Type} (read : Event → Option β) (events : List Event) :
    (events.filter fun e => (read e).isSome).filterMap read = events.filterMap read := by
  rw [List.filterMap_filter]
  refine congrArg (List.filterMap · events) (funext fun e => ?_)
  cases read e <;> rfl

/-- What is read off events that are in order already is read off the sorted events in the same
order. -/
theorem filterMap_sort {β : Type} {read : Event → Option β}
    (h : (events.filter fun e => (read e).isSome).Pairwise fun a b => (cmp a b).isLE) :
    (sort events).filterMap read = events.filterMap read := by
  rw [← filterMap_filter_isSome, filter_sort h, filterMap_filter_isSome]

/-- An event of a later frame than all others comes last. -/
theorem exists_sort_concat {last : Event} (h : ∀ e ∈ events, e.frame < last.frame) :
    ∃ before, sort (events ++ [last]) = before ++ [last] ∧ before.Perm events := by
  have hperm := perm_sort (events ++ [last])
  have hlast : last ∈ sort (events ++ [last]) := mem_sort.2 (by simp)
  rcases List.eq_nil_or_concat (sort (events ++ [last])) with hnil | ⟨before, e, hsort⟩
  · rw [hnil] at hlast
    cases hlast
  · rw [List.concat_eq_append] at hsort
    have hsorted := pairwise_sort (events ++ [last])
    rw [hsort] at hlast hsorted hperm
    -- whatever stands at the end is not before the last event
    have he : e = last := by
      rcases List.mem_append.1 (hperm.subset (List.mem_append_right _ List.mem_cons_self))
        with he | he
      · rcases List.mem_append.1 hlast with hin | hin
        · have hle := (List.pairwise_append.1 hsorted).2.2 last hin e List.mem_cons_self
          have hlt := h e he
          rw [isLE_cmp] at hle
          omega
        · exact (List.mem_singleton.1 hin).symm
      · exact List.mem_singleton.1 he
    subst he
    exact ⟨before, hsort, (List.perm_append_right_iff _).1 hperm⟩

end

/-- When each phase has its own events, events of one phase are found there only. -/
theorem filter_phases {events : Phase → List Event} {p : Phase} {q : Event → Bool}
    (hevents : ∀ p, ∀ e ∈ events p, e.data.phase = p) (hq : ∀ e, q e → e.data.phase = p) :
    (Phase.all.flatMap events).filter q = (events p).filter q := by
  have hother : ∀ p', p' ≠ p → (events p').filter q = [] := by
    intro p' hne
    rw [List.filter_eq_nil_iff]
    intro e he hin
    exact hne ((hevents p' e he).symm.trans (hq e hin))
  rw [List.filter_flatMap]
  cases p <;> simp [Phase.all, hother]

end Event

end Barrage
