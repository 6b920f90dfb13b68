import Mathlib.Data.Prod.Lex
import Mathlib.Order.WithBot
import Barrage.Proofs.Fight.Stages

/-!
# Events are told in order

The order of events is that of their ranks (`Event.isLE_cmp_iff_rank`), which are compared entry by
entry: the frame, the priority of the kind, and the subject, no subject coming first. Events of one
rank need not be equal, so a sorted list leaves their order open. A tick does not: it tells what
happened in its phases, all of it and nothing else, and what is of one rank as it happened
(`Event.StableSort`).

Nothing is kept for a later tick. All events of a frame carry its number, and the end of the fight
carries the next one, behind which nothing is told any more. So what a whole run tells is in order
as well (`Fight.chronicle_orderTold`).
-/

namespace Barrage

/-- Different priorities have different ranks. -/
theorem Priority.rank_inj {p q : Priority} : p.rank = q.rank ↔ p = q := by
  cases p <;> cases q <;> simp [rank]

namespace Event

/-! ## The order -/

/-- Ranks are compared entry by entry. -/
abbrev Rank := ℕ ×ₗ ℕ ×ₗ WithBot ℕ

/-- The place of a subject, where none is below all bodies. -/
def subjectPlace : Option BodyId → WithBot ℕ
  | none => ⊥
  | some id => .some id

/-- The rank of an event: its frame, the priority of its kind, and its subject, if there is one. -/
def rank (e : Event) : Rank :=
  toLex (e.frame, toLex (e.priority.rank, subjectPlace e.subject))

/-- Subjects are ranked like their places, with no subject below all bodies. -/
theorem subjectRank_le_iff {s t : Option BodyId} :
    subjectRank s ≤ subjectRank t ↔ subjectPlace s ≤ subjectPlace t := by
  cases s with
  | none => simp [subjectRank, subjectPlace]
  | some a =>
    cases t with
    | none => simp [subjectRank, subjectPlace]
    | some b => simp [subjectRank, subjectPlace]

/-- Different subjects have different ranks. -/
theorem subjectRank_inj {s t : Option BodyId} : subjectRank s = subjectRank t ↔ s = t := by
  cases s <;> cases t <;> simp [subjectRank]

/-- The order of events is the order of their ranks. -/
theorem isLE_cmp_iff_rank {a b : Event} : (cmp a b).isLE ↔ a.rank ≤ b.rank := by
  rw [isLE_cmp, rank, rank, Prod.Lex.toLex_le_toLex, Prod.Lex.toLex_le_toLex, subjectRank_le_iff]

/-- Reversed arguments compare the other way. -/
theorem cmp_swap (a b : Event) : cmp b a = (cmp a b).swap := by
  rw [cmp, cmp, Ordering.swap_then, Ordering.swap_then, Nat.compare_swap, Nat.compare_swap,
    Nat.compare_swap]

/-- Events compare as equal when they are of one rank. -/
theorem cmp_eq_iff {a b : Event} : cmp a b = .eq ↔ sameRank a b = true := by
  simp only [cmp, sameRank, Ordering.then_eq_eq, Nat.compare_eq_eq, Priority.rank_inj,
    subjectRank_inj, Bool.and_eq_true, beq_iff_eq, and_assoc]

/-- The order is a total preorder, by which events are of one place when they are of one rank. -/
structure OrderLaws : Prop where
  isLE_iff : ∀ a b, (cmp a b).isLE ↔ a.rank ≤ b.rank
  trans : ∀ a b c, (cmp a b).isLE → (cmp b c).isLE → (cmp a c).isLE
  total : ∀ a b, (cmp a b).isLE ∨ (cmp b a).isLE
  swap : ∀ a b, cmp b a = (cmp a b).swap
  eq_iff : ∀ a b, cmp a b = .eq ↔ sameRank a b = true

/-- The comparison of events is a total order of their frames, priorities and subjects. -/
theorem orderLaws : OrderLaws where
  isLE_iff _ _ := isLE_cmp_iff_rank
  trans := isLE_cmp_trans
  total a b := Bool.or_eq_true _ _ ▸ isLE_cmp_total a b
  swap := cmp_swap
  eq_iff _ _ := cmp_eq_iff

/-! ## The stable sort -/

/-- What is told of what happened: the same events, in order, and those of one rank as they
happened. -/
structure StableSort (happened told : List Event) : Prop where
  perm : told.Perm happened
  sorted : told.Pairwise fun a b => (cmp a b).isLE
  stable : ∀ e, told.filter (sameRank e) = happened.filter (sameRank e)

/-- Events of one rank are in order, wherever they stand. -/
theorem pairwise_filter_sameRank (events : List Event) (e : Event) :
    (events.filter (sameRank e)).Pairwise fun a b => (cmp a b).isLE := by
  rw [List.pairwise_iff_forall_sublist]
  intro a b hab
  have ha : sameRank e a = true := (List.mem_filter.1 (hab.subset List.mem_cons_self)).2
  have hb : sameRank e b = true :=
    (List.mem_filter.1 (hab.subset (List.mem_cons_of_mem _ List.mem_cons_self))).2
  have hae : cmp a e = .eq := by
    rw [cmp_swap e a, cmp_eq_iff.2 ha]
    rfl
  refine isLE_cmp_trans a e b ?_ ?_
  · rw [hae]
    rfl
  · rw [cmp_eq_iff.2 hb]
    rfl

/-- To sort events is to sort them stably. -/
theorem stableSort_sort (events : List Event) : StableSort events (sort events) where
  perm := perm_sort events
  sorted := pairwise_sort events
  stable e := filter_sort (pairwise_filter_sameRank events e)

/-! ## The number of an event -/

/-- The number that an event of a frame carries: the end of the fight belongs to the next frame. -/
def numberOn (frame : Nat) : EventData → Nat
  | .gameOver _ => frame + 1
  | _ => frame

/-- The end of the fight bears the number of the frame to come, and every other event that of the
current one. -/
theorem numberOn_eq (frame : Nat) (data : EventData) :
    numberOn frame data = if data.phase = .count then frame + 1 else frame := by
  cases data <;> rfl

end Event

namespace Stages

/-! ## What a frame tells -/

variable {K : Type} [Scalar K] {f g : Fight K} {keys : ActionSet} {events : List Event}

/-- All that happens on a frame carries its number, and the end of the fight the next one. -/
theorem eq_on (s : Stages f keys g events) {e : Event} (he : e ∈ events) :
    e = .on (Event.numberOn f.frame e.data) e.data := by
  rw [s.events_eq] at he
  obtain ⟨p, -, hp⟩ := List.mem_flatMap.1 he
  obtain ⟨hon, hphase⟩ := s.happened_at p e hp
  rw [Event.numberOn_eq, hphase]
  exact hon

/-- So nothing that a frame tells comes before the frame, ... -/
theorem frame_le (s : Stages f keys g events) {e : Event} (he : e ∈ events) :
    f.frame ≤ e.frame := by
  have hframe : e.frame = Event.numberOn f.frame e.data := congrArg Event.frame (s.eq_on he)
  rw [hframe, Event.numberOn_eq]
  split <;> omega

/-- ... and nothing comes behind it, when the fight goes on. -/
theorem frame_eq_of_goes (s : Stages f keys g events) (hgoes : g.ended = false) {e : Event}
    (he : e ∈ events) : e.frame = f.frame := by
  rw [s.events_eq] at he
  obtain ⟨p, -, hp⟩ := List.mem_flatMap.1 he
  have hat := s.happened_at p e hp
  by_cases hcount : p = .count
  · -- the count tells of the end of the fight only
    subst hcount
    obtain ⟨hg, hcounted⟩ := s.counted_fst
    have hended : (s.moved.ended || s.moved.status.isOver) = false :=
      (congrArg Fight.ended hg :).symm.trans hgoes
    rw [hcounted, if_neg (by simp [(Bool.or_eq_false_iff.1 hended).2])] at hp
    cases hp
  · rw [if_neg hcount] at hat
    exact hat.frame_eq

end Stages

namespace Fight

variable {K : Type} [Scalar K] {f g : Fight K} {reports : List TickReport}

/-! ## What a run tells -/

/-- All that was told is in order, and as long as the fight goes on it is of earlier frames. -/
structure OrderTold (f : Fight K) (reports : List TickReport) : Prop where
  sorted : (told reports).Pairwise fun a b => (Event.cmp a b).isLE
  earlier : f.ended = false → ∀ e ∈ told reports, e.frame < f.frame

/-- A frame keeps what was told in order: its events come behind those of earlier frames. -/
theorem OrderTold.frame {keys : ActionSet} {events : List Event} (h : OrderTold f reports)
    (hended : f.ended = false) (s : Stages f keys g events) :
    OrderTold g (reports ++ [⟨Event.sort events, false, g.ended⟩]) := by
  constructor
  · rw [told_concat]
    refine List.pairwise_append.2 ⟨h.sorted, Event.pairwise_sort events, fun a ha b hb => ?_⟩
    have hfirst := h.earlier hended a ha
    have hlater := s.frame_le (Event.mem_sort.1 hb)
    exact Event.isLE_cmp.2 (.inl (by omega))
  · intro hgoes e he
    rw [told_concat] at he
    rw [s.frame_eq]
    rcases List.mem_append.1 he with he | he
    · exact Nat.lt_succ_of_lt (h.earlier hended e he)
    · rw [s.frame_eq_of_goes hgoes (Event.mem_sort.1 he)]
      exact Nat.lt_succ_self _

/-- Every tick tells its events in order, behind those of the ticks before. -/
theorem chronicle_orderTold :
    Chronicle fun (f : Fight K) reports => OrderTold f reports where
  withKeys _ h := ⟨h.sorted, h.earlier⟩
  ended hended h := by
    refine ⟨(told_quiet _ _ _).symm ▸ h.sorted, fun hgoes => ?_⟩
    rw [hended] at hgoes
    cases hgoes
  pause _ h := ⟨(told_quiet _ _ _).symm ▸ h.sorted, (told_quiet _ _ _).symm ▸ h.earlier⟩
  frame hended s h := h.frame hended s

/-- What holds of a fight, of its reports so far, and of the next one. -/
structure OrderKept (g : Fight K) (reports : List TickReport) : Prop where
  /-- All that the ticks told, one after the other, is in order. -/
  sorted : (told reports).Pairwise fun a b => (Event.cmp a b).isLE
  /-- Nothing is told on a tick that is not simulated. -/
  quiet : ∀ {raw : ActionSet} {g' : Fight K} {report : TickReport}, g.tick raw = .ok (g', report) →
    g.ended = true ∨ report.pauseRequested = true → report.events = []
  /-- A simulated tick tells what happened in its phases, phase by phase, in a stable sort. -/
  told_of_happened : ∀ {raw : ActionSet} {g' : Fight K} {report : TickReport},
    g.tick raw = .ok (g', report) → g.ended = false → report.pauseRequested = false →
    ∃ events,
      ∃ s : Stages { g with keys := g.keys.update raw } (g.keys.update raw).active g' events,
        Event.StableSort (Phase.all.flatMap s.happened) report.events
  /-- It all carries the number of the frame, but for the end of the fight. -/
  numbered : ∀ {raw : ActionSet} {g' : Fight K} {report : TickReport},
    g.tick raw = .ok (g', report) → ∀ e ∈ report.events,
      e = .on (Event.numberOn g.frame e.data) e.data

/-- In every run of a fight, each tick tells what happened on its frame in the order of events, and
so does the run. -/
theorem run_ordered {assets : Assets K} {settings : Settings K}
    (hstart : start assets settings = .ok f) {calls : List Call}
    (hrun : f.run calls = .ok (g, reports)) : Event.OrderLaws ∧ OrderKept g reports := by
  obtain ⟨player, sizes, entries, arrivals, -, -, -, -, rfl⟩ := start_eq_ok hstart
  have htold := chronicle_orderTold.run_start hrun ⟨.nil, fun _ => nofun⟩
  refine ⟨Event.orderLaws, htold.sorted, ?_, ?_, ?_⟩
  · intro raw g' report htick hstill
    rcases tick_cases htick with ⟨-, -, rfl⟩ | ⟨-, -, -, rfl⟩ | ⟨hgoes, -, events, -, rfl⟩
    · rfl
    · rfl
    · simp [hgoes] at hstill
  · intro raw g' report htick hgoes hpause
    rcases tick_cases htick with ⟨hended, -, -⟩ | ⟨-, -, -, rfl⟩ | ⟨-, -, events, hsim, rfl⟩
    · simp [hended] at hgoes
    · cases hpause
    · obtain ⟨s⟩ := simulate_stages hsim
      exact ⟨events, s, s.events_eq ▸ Event.stableSort_sort events⟩
  · intro raw g' report htick e he
    rcases tick_cases htick with ⟨-, -, rfl⟩ | ⟨-, -, -, rfl⟩ | ⟨-, -, events, hsim, rfl⟩
    · cases he
    · cases he
    · obtain ⟨s⟩ := simulate_stages hsim
      exact s.eq_on (Event.mem_sort.1 he)

end Fight

/-- The duel with a pause in it: two of its ticks are simulated, and the fight is over. -/
theorem Duel.run_ordered_fire : ∃ f g reports, Fight.start assets settings = .ok f ∧
    f.run [.tick (.ofList [.fire]), .tick (.ofList [.pause]), .tick .empty] = .ok (g, reports) ∧
    (g.frame, g.ended, reports.map (·.pauseRequested)) = (2, true, [false, true, false]) ∧
    Event.OrderLaws ∧ Fight.OrderKept g reports := by
  have hrun : ((Fight.start assets settings).toOption.bind fun f =>
      (f.run [.tick (.ofList [.fire]), .tick (.ofList [.pause]), .tick .empty]).toOption.map
        fun r => (r.1.frame, r.1.ended, r.2.map (·.pauseRequested))) =
      some (2, true, [false, true, false]) := by
    decide +kernel
  obtain ⟨f, hstart, hrun⟩ := toOption_bind_eq_some_iff.1 hrun
  obtain ⟨⟨g, reports⟩, hrun, hend⟩ := toOption_map_eq_some_iff.1 hrun
  exact ⟨f, g, reports, hstart, hrun, hend, Fight.run_ordered hstart hrun⟩

end Barrage
