import Barrage.Proofs.Fight.Arrivals

/-!
# The life of an enemy

What a fight tells of one enemy is a life of its own (`Lifecycle`): the enemy comes, it is hit and
moves to further routines, and at most once, at the end, it is exhausted. The tick sorts the events
of a frame, but what it tells of one body it tells in the order in which it happened
(`Stages.story_sort`).

`Cast` says who plays: the enemies that have come, in the order of the timeline, each of them either
in the fight, in a role that its life so far has led to, or gone, with a life that is over. A frame
keeps this phase by phase (`Stages.cast`): hits leave the roles as they are, arrivals add roles, and
the enemies' own turns move some roles on and end others. `Fight.run_lifecycles` says what this
comes to over a whole run.
-/

namespace Barrage

variable {K : Type}

/-! ## Stories -/

/-- What is told of a body. -/
def story (id : BodyId) (events : List Event) : List EventData :=
  (events.filter (·.subject == some id)).map (·.data)

/-- What is told later of a body stands behind what was told before. -/
theorem story_append (id : BodyId) (events later : List Event) :
    story id (events ++ later) = story id events ++ story id later := by
  rw [story, List.filter_append, List.map_append]
  rfl

/-- Events about other bodies tell nothing of a body. -/
theorem story_eq_nil {id : BodyId} {events : List Event}
    (h : ∀ e ∈ events, e.subject ≠ some id) : story id events = [] := by
  rw [story, List.map_eq_nil_iff, List.filter_eq_nil_iff]
  exact fun e he hid => h e he (eq_of_beq hid)

/-- Events about one body are its story. -/
theorem story_eq_map {id : BodyId} {events : List Event}
    (h : ∀ e ∈ events, e.subject = some id) : story id events = events.map (·.data) := by
  rw [story, List.filter_eq_self.2 fun e he => beq_iff_eq.2 (h e he)]

/-- When each of several things tells of a body of its own, the story of a body is what its thing
tells. -/
theorem story_flatMap {α : Type} {body : α → BodyId} {tell : α → List Event} {all : List α}
    (htell : ∀ a, ∀ e ∈ tell a, e.subject = some (body a)) (hnodup : (all.map body).Nodup) :
    (∀ a ∈ all, story (body a) (all.flatMap tell) = (tell a).map (·.data)) ∧
      ∀ id ∉ all.map body, story id (all.flatMap tell) = [] := by
  have hnone : ∀ {id} {rest : List α}, id ∉ rest.map body → story id (rest.flatMap tell) = [] := by
    intro id rest hid
    refine story_eq_nil fun e he hsubject => ?_
    obtain ⟨a, ha, he⟩ := List.mem_flatMap.1 he
    rw [htell a e he] at hsubject
    exact hid (Option.some.inj hsubject ▸ List.mem_map_of_mem ha)
  refine ⟨?_, fun id => hnone⟩
  induction all with
  | nil => exact nofun
  | cons first rest ih =>
    rw [List.map_cons, List.nodup_cons] at hnodup
    intro a ha
    rw [List.flatMap_cons, story_append]
    rcases List.mem_cons.1 ha with rfl | ha
    · rw [hnone hnodup.1, List.append_nil, story_eq_map (htell a)]
    · have hother : body first ≠ body a := fun heq => hnodup.1 (heq ▸ List.mem_map_of_mem ha)
      rw [story_eq_nil fun e he hsubject => hother
        (Option.some.inj ((htell first e he).symm.trans hsubject)), List.nil_append]
      exact ih hnodup.2 a ha

/-- If each of some bodies has one event, that event is its story. -/
theorem story_map {α : Type} (body : α → BodyId) (data : α → EventData) {all : List α}
    (hdata : ∀ a, (data a).subject = some (body a)) (hnodup : (all.map body).Nodup) (frame : Nat) :
    (∀ a ∈ all, story (body a) (all.map fun a => .on frame (data a)) = [data a]) ∧
      ∀ id ∉ all.map body, story id (all.map fun a => .on frame (data a)) = [] := by
  rw [List.map_eq_flatMap (f := fun a => Event.on frame (data a))]
  exact story_flatMap (fun a e he => List.mem_singleton.1 he ▸ hdata a) hnodup

/-- The enemies that were exhausted. -/
def exhausted (events : List Event) : List BodyId := events.filterMap Event.exhausted?

/-! ## Lives -/

/-- The name of the routine, when an enemy moved to one. -/
def EventData.routine? : EventData → Option String
  | routineChanged _ name => some name
  | _ => none

/-- The role at the first routine. -/
def Role.atStart (r : Role) : Role := { r with cursor := 0 }

/-- The life that has led an enemy to a role: it came, then it was hit and moved to further
routines, and last it was exhausted, if it has left. -/
structure Lifecycle (r : Role) (left : Bool) (story : List EventData) : Prop where
  exists_course : ∃ course,
    story = .enemySpawned r.body r.image ::
      (course ++ if left then [.enemyExhausted r.body] else []) ∧
    ∀ d ∈ course, (∃ damage, d = .enemyHit r.body damage) ∨ ∃ name, d = .routineChanged r.body name
  /-- There were as many changes as the role says, ... -/
  length_changes : (story.filterMap EventData.routine?).length = r.cursor
  /-- ... and each of them named the routine to which it led. -/
  changes_eq : ∀ k name, (story.filterMap EventData.routine?)[k]? = some name →
    r.names[k + 1]? = some name

namespace Lifecycle

variable {r : Role} {before : List EventData}

/-- The life of an enemy begins when it comes. -/
theorem spawned (h : r.cursor = 0) : Lifecycle r false [.enemySpawned r.body r.image] :=
  ⟨⟨[], rfl, nofun⟩, h.symm, nofun⟩

/-- Hits leave the role as it is. -/
theorem hit (h : Lifecycle r false before) {hits : List EventData}
    (hhits : ∀ d ∈ hits, ∃ damage, d = .enemyHit r.body damage) :
    Lifecycle r false (before ++ hits) := by
  obtain ⟨⟨course, hbefore, hcourse⟩, hlength, hnames⟩ := h
  have hsame : (before ++ hits).filterMap EventData.routine? =
      before.filterMap EventData.routine? := by
    have hnone : hits.filterMap EventData.routine? = [] := by
      refine List.filterMap_eq_nil_iff.2 fun d hd => ?_
      obtain ⟨damage, rfl⟩ := hhits d hd
      rfl
    rw [List.filterMap_append, hnone, List.append_nil]
  refine ⟨⟨course ++ hits, ?_, ?_⟩, hsame ▸ hlength, hsame ▸ hnames⟩
  · rw [hbefore, if_neg Bool.false_ne_true, List.append_nil, List.append_nil, List.cons_append]
  · intro d hd
    exact (List.mem_append.1 hd).elim (hcourse d) fun hd => .inl (hhits d hd)

/-- A change moves the role on to its next routine, which it names. -/
theorem change (h : Lifecycle r false before) {name : String}
    (hname : r.names[r.cursor + 1]? = some name) :
    Lifecycle { r with cursor := r.cursor + 1 } false
      (before ++ [.routineChanged r.body name]) := by
  obtain ⟨⟨course, hbefore, hcourse⟩, hlength, hnames⟩ := h
  have hmore : (before ++ [EventData.routineChanged r.body name]).filterMap EventData.routine? =
      before.filterMap EventData.routine? ++ [name] := List.filterMap_append
  refine ⟨⟨course ++ [.routineChanged r.body name], ?_, ?_⟩, ?_, ?_⟩
  · rw [hbefore, if_neg Bool.false_ne_true, List.append_nil, List.append_nil, List.cons_append]
  · intro d hd
    rcases List.mem_append.1 hd with hd | hd
    · exact hcourse d hd
    · exact .inr ⟨name, List.mem_singleton.1 hd⟩
  · rw [hmore, List.length_append, hlength, List.length_singleton]
  · intro k routine hk
    rw [hmore] at hk
    rcases Nat.lt_trichotomy k (before.filterMap EventData.routine?).length with hlt | rfl | hlt
    · rw [List.getElem?_append_left hlt] at hk
      exact hnames k routine hk
    · rw [List.getElem?_concat_length] at hk
      rw [hlength, ← Option.some.inj hk]
      exact hname
    · have hlong := (List.getElem?_eq_some_iff.1 hk).1
      rw [List.length_append, List.length_singleton] at hlong
      exact absurd hlong (Nat.not_lt.2 hlt)

/-- The life of an enemy ends when it is exhausted. -/
theorem exhaust (h : Lifecycle r false before) :
    Lifecycle r true (before ++ [.enemyExhausted r.body]) := by
  obtain ⟨⟨course, hbefore, hcourse⟩, hlength, hnames⟩ := h
  have hsame : (before ++ [EventData.enemyExhausted r.body]).filterMap EventData.routine? =
      before.filterMap EventData.routine? := by
    rw [List.filterMap_append]
    exact List.append_nil _
  refine ⟨⟨course, ?_, hcourse⟩, hsame ▸ hlength, hsame ▸ hnames⟩
  rw [hbefore, if_neg Bool.false_ne_true, List.append_nil, if_pos rfl, List.cons_append]

end Lifecycle

/-! ## Casts -/

section
variable [Scalar K]

/-- Who plays: the enemies on a bill, in order, with the roles that are filled and what was told of
each body. -/
structure Cast (assets : Assets K) (bill : List (Arrival × BodyId)) (roles : List Role)
    (tale : BodyId → List EventData) : Prop where
  ascending : (bill.map Prod.snd).Pairwise (· < ·)
  /-- Those that are in the fight are some of them, in their order. -/
  sublist : (roles.map (·.body)).Sublist (bill.map Prod.snd)
  /-- Each of them has had a life in the role of its sheet. It fills its role, or it has left. -/
  lifecycle : ∀ p ∈ bill, ∃ r : Role, r.atStart = p.1.sheet.role assets p.2 ∧
    (r ∈ roles ∧ Lifecycle r false (tale p.2) ∨
      p.2 ∉ roles.map (·.body) ∧ Lifecycle r true (tale p.2))
  /-- Nothing is told of any other body. -/
  untold : ∀ id ∉ bill.map Prod.snd, tale id = []

namespace Cast

variable {assets : Assets K} {bill : List (Arrival × BodyId)} {roles roles' : List Role}
  {tale tale' : BodyId → List EventData}

/-- No two roles have the same body. -/
theorem nodup (h : Cast assets bill roles tale) : (roles.map (·.body)).Nodup :=
  (h.ascending.imp Nat.ne_of_lt).sublist h.sublist

/-- A role that is filled has had a life that goes on. -/
theorem active (h : Cast assets bill roles tale) {r : Role} (hr : r ∈ roles) :
    Lifecycle r false (tale r.body) := by
  have hbody := List.mem_map_of_mem (f := (·.body)) hr
  obtain ⟨p, hp, hbilled⟩ := List.mem_map.1 (h.sublist.subset hbody)
  obtain ⟨r', hstart, ⟨hr', hlife⟩ | ⟨hgone, -⟩⟩ := h.lifecycle p hp
  · have hbody' : r'.body = r.body := (congrArg Role.body hstart).trans hbilled
    obtain rfl := List.inj_on_of_nodup_map h.nodup hr' hr hbody'
    rwa [hbilled] at hlife
  · exact absurd (hbilled ▸ hbody) hgone

/-- The cast after those that play have acted: some have moved on in their roles, and others have
left. -/
theorem act (h : Cast assets bill roles tale)
    (hsublist : (roles'.map (·.body)).Sublist (roles.map (·.body)))
    (hquiet : ∀ id ∉ roles.map (·.body), tale' id = tale id)
    (hact : ∀ r ∈ roles, Lifecycle r false (tale r.body) → ∃ r' : Role, r'.atStart = r.atStart ∧
      (r' ∈ roles' ∧ Lifecycle r' false (tale' r.body) ∨
        r.body ∉ roles'.map (·.body) ∧ Lifecycle r' true (tale' r.body))) :
    Cast assets bill roles' tale' := by
  refine ⟨h.ascending, hsublist.trans h.sublist, ?_, ?_⟩
  · intro p hp
    obtain ⟨r, hstart, ⟨hr, hlife⟩ | ⟨hgone, hlife⟩⟩ := h.lifecycle p hp
    · have hbody : r.body = p.2 := congrArg Role.body hstart
      rw [← hbody] at hlife ⊢
      obtain ⟨r', hstart', hlife'⟩ := hact r hr hlife
      rw [hbody]
      refine ⟨r', hstart'.trans hstart, ?_⟩
      rwa [hbody] at hlife'
    · refine ⟨r, hstart, .inr ⟨fun hin => hgone (hsublist.subset hin), ?_⟩⟩
      rw [hquiet p.2 hgone]
      exact hlife
  · intro id hid
    rw [hquiet id fun hin => hid (h.sublist.subset hin), h.untold id hid]

/-- The cast after others have joined it, with larger numbers than all before. -/
theorem join (h : Cast assets bill roles tale) {n : Nat} (hlt : ∀ p ∈ bill, p.2 < n)
    (coming : List Arrival) (frame : Nat) :
    Cast assets (bill ++ coming.zipIdx n)
      (roles ++ (coming.zipIdx n).map fun a => a.1.sheet.role assets a.2)
      fun id => tale id ++ story id ((coming.zipIdx n).map fun a =>
        .on frame (.enemySpawned a.2 a.1.sheet.image)) := by
  have hbodies : ((coming.zipIdx n).map fun a => a.1.sheet.role assets a.2).map (·.body) =
      (coming.zipIdx n).map Prod.snd := by
    rw [List.map_map]
    rfl
  have hascending : ((coming.zipIdx n).map Prod.snd).Pairwise (· < ·) := by
    rw [List.zipIdx_map_snd]
    exact List.pairwise_lt_range'
  have hnew : ∀ id ∈ (coming.zipIdx n).map Prod.snd, n ≤ id := by
    intro id hid
    rw [List.zipIdx_map_snd] at hid
    exact (List.mem_range'_1.1 hid).1
  have hold : ∀ id ∈ bill.map Prod.snd, id < n := by
    intro id hid
    obtain ⟨p, hp, rfl⟩ := List.mem_map.1 hid
    exact hlt p hp
  -- each of them tells that it has come, and nothing else
  obtain ⟨htold, hquiet⟩ := story_map Prod.snd
    (fun a : Arrival × BodyId => .enemySpawned a.2 a.1.sheet.image) (fun _ => rfl)
    (hascending.imp Nat.ne_of_lt) frame
  refine ⟨?_, ?_, ?_, ?_⟩
  · rw [List.map_append, List.pairwise_append]
    exact ⟨h.ascending, hascending, fun a ha b hb => Nat.lt_of_lt_of_le (hold a ha) (hnew b hb)⟩
  · rw [List.map_append, List.map_append, hbodies]
    exact h.sublist.append_right _
  · intro p hp
    rcases List.mem_append.1 hp with hp | hp
    · have hother : p.2 ∉ (coming.zipIdx n).map Prod.snd := fun hin =>
        Nat.not_lt.2 (hnew p.2 hin) (hlt p hp)
      obtain ⟨r, hstart, hlife⟩ := h.lifecycle p hp
      rw [hquiet p.2 hother, List.append_nil, List.map_append, hbodies, List.mem_append]
      refine ⟨r, hstart, hlife.imp (fun hactive => ?_) fun hgone => ?_⟩
      · exact ⟨List.mem_append_left _ hactive.1, hactive.2⟩
      · exact ⟨fun hin => hin.elim hgone.1 hother, hgone.2⟩
    · have hin := List.mem_map_of_mem (f := Prod.snd) hp
      have hfresh : p.2 ∉ bill.map Prod.snd := fun hbilled =>
        Nat.not_lt.2 (hnew p.2 hin) (hold p.2 hbilled)
      rw [h.untold p.2 hfresh, htold p hp, List.nil_append]
      exact ⟨_, rfl, .inl ⟨List.mem_append_right _ (List.mem_map_of_mem hp), .spawned rfl⟩⟩
  · intro id hid
    rw [List.map_append, List.mem_append, not_or] at hid
    rw [h.untold id hid.1, hquiet id hid.2, List.append_nil]

end Cast

/-! ## Casts over a frame -/

namespace Fight

omit [Scalar K] in
/-- Bullets hit enemies that play. -/
theorem hitEnemies_told (f : Fight K) (pairs : List (BodyId × BodyId)) :
    ∀ e ∈ (f.hitEnemies pairs).2, ∃ r ∈ f.roles, ∃ damage,
      e = .on f.frame (.enemyHit r.body damage) := by
  induction pairs generalizing f with
  | nil => exact nofun
  | cons pair rest ih =>
    have hlater := ih (f.hitEnemyBy pair.1 pair.2).1
    rw [f.roles_hitEnemyBy] at hlater
    rw [hitEnemies_cons]
    obtain ⟨-, hnone⟩ | ⟨-, i, target, amount, htarget, hbody, -, hhit⟩ :=
      f.hitEnemyBy_cases pair.1 pair.2
    · rw [hnone] at hlater ⊢
      exact hlater
    · rw [hhit] at hlater ⊢
      refine List.forall_mem_cons.2 ⟨⟨target.role, ?_, amount, hbody ▸ rfl⟩, hlater⟩
      exact List.mem_map_of_mem (List.mem_of_getElem? htarget)

/-- What the enemies' turns tell of each of them: the routine to which it moves, if it does, and its
end, if it finds none. -/
theorem story_enemyPhase (f : Fight K) (hnodup : (f.enemies.map (·.body)).Nodup) :
    (∀ e ∈ f.enemies, story e.body f.enemyPhase.2 = (e.changeEvents f.frame).map (·.data) ++
      if e.isDone then [.enemyExhausted e.body] else []) ∧
    ∀ id ∉ f.enemies.map (·.body), story id f.enemyPhase.2 = [] := by
  have hchange : ∀ e : Enemy K, ∀ event ∈ e.changeEvents f.frame, event.subject = some e.body := by
    intro e event he
    obtain ⟨name, rfl⟩ := Enemy.eq_of_mem_changeEvents he
    rfl
  have hsublist := (List.filter_sublist (p := Enemy.isDone) (l := f.enemies)).map (·.body)
  obtain ⟨hmoves, hstill⟩ := story_flatMap hchange hnodup
  obtain ⟨hends, hgoing⟩ := story_map (·.body) (fun e : Enemy K => .enemyExhausted e.body)
    (fun _ => rfl) (hnodup.sublist hsublist) f.frame
  rw [(enemyPhase_turns hnodup).2]
  refine ⟨fun e he => ?_, fun id hid => ?_⟩
  · rw [story_append, hmoves e he]
    split
    · next hdone => rw [hends e (List.mem_filter.2 ⟨he, hdone⟩)]
    · next hdone => rw [hgoing e.body (mt (Enemy.body_mem_filter_iff hnodup he _).1 hdone)]
  · rw [story_append, hstill id hid, hgoing id fun hin => hid (hsublist.subset hin),
      List.append_nil]

end Fight

namespace Stages

variable {f g : Fight K} {keys : ActionSet} {events : List Event} {assets : Assets K}
  {arrivals : List Arrival} {bill : List (Arrival × BodyId)} {tale : BodyId → List EventData}

/-- Neither timers nor hits of the player change a role. -/
theorem roles_hit (s : Stages f keys g events) : s.hit.roles = f.roles := by
  obtain ⟨energy, htimed, -⟩ := s.timed_fst
  obtain ⟨invincible, status, timers, hhit⟩ := s.hit_fst
  rw [hhit, htimed]
  rfl

/-- The stage of the hits goes through the overlapping pairs. -/
theorem struck_eq_hitEnemies (s : Stages f keys g events) :
    s.hit.hitEnemies (s.hit.world.overlapPairs playerBullets enemyGroup) =
      (s.struck, s.happened .enemyHits) := s.struck_eq

/-- Hits of enemies change no role. -/
theorem roles_struck (s : Stages f keys g events) : s.struck.roles = f.roles := by
  have h := s.hit.roles_hitEnemies (s.hit.world.overlapPairs playerBullets enemyGroup)
  rwa [s.struck_eq_hitEnemies, s.roles_hit] at h

/-- What the player does changes no role. -/
theorem roles_acted (s : Stages f keys g events) : s.acted.roles = f.roles := by
  obtain ⟨⟨weapon, energy, world, log, hacted⟩, -⟩ := s.struck.playerPhase_eq keys
  have hacted := (congrArg Prod.fst s.acted_eq).symm.trans hacted
  rw [← s.roles_struck, show s.acted = _ from hacted]
  rfl

/-- After the enemies have moved no role changes. -/
theorem roles_moved (s : Stages f keys g events) : g.roles = s.moved.roles :=
  (congrArg Fight.roles s.counted_fst.1 :)

/-- Three phases tell of bodies, and the hits among what they tell rank first. -/
theorem subject_happened (s : Stages f keys g events) {p : Phase} {e : Event}
    (he : e ∈ s.happened p) {id : BodyId} (hsubject : e.subject = some id) :
    p ∈ [.enemyHits, .arrivals, .enemies] ∧ e.frame = f.frame ∧
      e.priority.rank = if p = .enemyHits then 1 else 3 := by
  obtain ⟨heq, hphase⟩ := s.happened_at p e he
  rw [heq] at hsubject ⊢
  cases hdata : e.data <;> rw [hdata] at hphase hsubject <;> cases hsubject <;> subst hphase
  · exact ⟨by simp [EventData.phase], rfl, rfl⟩
  · exact ⟨by simp [EventData.phase], rfl, rfl⟩
  · exact ⟨by simp [EventData.phase], rfl, rfl⟩
  · exact ⟨by simp [EventData.phase], rfl, rfl⟩

/-- What a frame tells of a body, it tells in the order in which it happened. -/
theorem story_sort (s : Stages f keys g events) (id : BodyId) :
    story id (Event.sort events) = story id (s.happened .enemyHits) ++
      (story id (s.happened .arrivals) ++ story id (s.happened .enemies)) := by
  let about (p : Phase) : List Event := (s.happened p).filter (·.subject == some id)
  have hquiet : ∀ p ∉ [Phase.enemyHits, .arrivals, .enemies], about p = [] := by
    intro p hp
    refine List.filter_eq_nil_iff.2 fun e he hsubject => ?_
    exact hp (s.subject_happened he (eq_of_beq hsubject)).1
  have hfilter : events.filter (·.subject == some id) =
      about .enemyHits ++ (about .arrivals ++ about .enemies) := by
    rw [s.events_eq, List.filter_flatMap]
    show Phase.all.flatMap about = _
    simp only [Phase.all, List.flatMap_cons, List.flatMap_nil, List.append_nil]
    rw [hquiet .timers (by decide), hquiet .playerHits (by decide), hquiet .player (by decide),
      hquiet .count (by decide), List.append_nil]
    rfl
  have hle : ∀ {p q a b}, (q = .enemyHits → p = .enemyHits) → a ∈ about p → b ∈ about q →
      (Event.cmp a b).isLE := by
    intro p q a b horder ha hb
    obtain ⟨ha, hsubject⟩ := List.mem_filter.1 ha
    obtain ⟨hb, hsubject'⟩ := List.mem_filter.1 hb
    obtain ⟨-, hframe, hrank⟩ := s.subject_happened ha (eq_of_beq hsubject)
    obtain ⟨-, hframe', hrank'⟩ := s.subject_happened hb (eq_of_beq hsubject')
    have hranks : a.priority.rank ≤ b.priority.rank := by
      rw [hrank, hrank']
      split
      · split <;> decide
      · next hp => exact Nat.le_of_eq (if_neg fun hq => hp (horder hq)).symm
    rw [Event.isLE_cmp, hframe, hframe', eq_of_beq hsubject, eq_of_beq hsubject']
    exact .inr ⟨rfl, (Nat.lt_or_eq_of_le hranks).imp_right fun heq => ⟨heq, Nat.le_refl _⟩⟩
  have hlate : ∀ {e}, e ∈ about .arrivals ++ about .enemies → ∃ p ≠ .enemyHits, e ∈ about p := by
    intro e he
    rcases List.mem_append.1 he with he | he
    · exact ⟨.arrivals, by decide, he⟩
    · exact ⟨.enemies, by decide, he⟩
  have hsorted : (events.filter (·.subject == some id)).Pairwise
      fun a b => (Event.cmp a b).isLE := by
    rw [hfilter, List.pairwise_append]
    refine ⟨?_, ?_, fun a ha b hb => ?_⟩
    · exact List.pairwise_of_forall_mem_list fun a ha b hb => hle (fun h => h) ha hb
    · refine List.pairwise_of_forall_mem_list fun a ha b hb => ?_
      obtain ⟨p, -, ha⟩ := hlate ha
      obtain ⟨q, hq, hb⟩ := hlate hb
      exact hle (absurd · hq) ha hb
    · obtain ⟨q, hq, hb⟩ := hlate hb
      exact hle (absurd · hq) ha hb
  rw [story, Event.filter_sort hsorted, hfilter, List.map_append, List.map_append]
  rfl

/-- Hits keep the cast. -/
theorem cast_struck (s : Stages f keys g events) (h : Cast assets bill f.roles tale) :
    Cast assets bill s.acted.roles fun id => tale id ++ story id (s.happened .enemyHits) := by
  have htold := s.hit.hitEnemies_told (s.hit.world.overlapPairs playerBullets enemyGroup)
  rw [s.struck_eq_hitEnemies, s.roles_hit] at htold
  rw [s.roles_acted]
  refine h.act (.refl _) (fun id hid => ?_) fun r hr hlife => ⟨r, rfl, .inl ⟨hr, hlife.hit ?_⟩⟩
  · rw [story_eq_nil, List.append_nil]
    intro e he hsubject
    obtain ⟨r, hr, damage, rfl⟩ := htold e he
    exact hid (Option.some.inj hsubject ▸ List.mem_map_of_mem hr)
  · intro d hd
    obtain ⟨e, he, rfl⟩ := List.mem_map.1 hd
    obtain ⟨he, hsubject⟩ := List.mem_filter.1 he
    obtain ⟨r', -, damage, rfl⟩ := htold e he
    exact ⟨damage, congrArg (EventData.enemyHit · damage) (Option.some.inj (eq_of_beq hsubject))⟩

/-- The enemies that are not done stay. -/
theorem bodies_moved (s : Stages f keys g events)
    (hnodup : (s.joined.enemies.map (·.body)).Nodup) :
    g.enemyBodies = (s.joined.enemies.filter fun e => !e.isDone).map (·.body) := by
  obtain ⟨hturns, -⟩ := Fight.enemyPhase_turns hnodup
  rw [s.moved_eq] at hturns
  rw [← Fight.map_body_roles, s.roles_moved, Fight.map_body_roles]
  exact Fight.map_body_turns hturns

/-- The turns of the enemies keep the cast. -/
theorem cast_moved (s : Stages f keys g events) (h : Cast assets bill s.joined.roles tale) :
    Cast assets bill g.roles fun id => tale id ++ story id (s.happened .enemies) := by
  have hbodies : s.joined.roles.map (·.body) = s.joined.enemies.map (·.body) :=
    s.joined.map_body_roles
  have hnodup : (s.joined.enemies.map (·.body)).Nodup := hbodies ▸ h.nodup
  obtain ⟨hturns, -⟩ := Fight.enemyPhase_turns hnodup
  obtain ⟨htold, hquiet⟩ := s.joined.story_enemyPhase hnodup
  rw [s.moved_eq] at hturns htold hquiet
  have hstay := g.map_body_roles.trans (s.bodies_moved hnodup)
  refine h.act ?_ (fun id hid => ?_) fun r hr hlife => ?_
  · rw [hstay, hbodies]
    exact List.filter_sublist.map _
  · rw [hquiet id (hbodies ▸ hid), List.append_nil]
  · obtain ⟨e, he, rfl⟩ := List.mem_map.1 hr
    rw [show e.role.body = e.body from rfl, htold e he]
    cases hdone : e.isDone with
    | true =>
      rw [Enemy.changeEvents, Enemy.goesOn_of_isDone hdone]
      refine ⟨e.role, rfl, .inr ⟨?_, hlife.exhaust⟩⟩
      rw [hstay, Enemy.body_mem_filter_iff hnodup he, hdone]
      exact Bool.false_ne_true
    | false =>
      have hin : e ∈ s.joined.enemies.filter fun e => !e.isDone :=
        List.mem_filter.2 ⟨he, by rw [hdone]; rfl⟩
      obtain ⟨e', he', hturn⟩ := Fight.exists_turn_of_mem hturns hin
      have hrole : e'.role ∈ g.roles := s.roles_moved ▸ List.mem_map_of_mem he'
      rw [if_neg Bool.false_ne_true, List.append_nil, Enemy.changeEvents]
      refine ⟨e'.role, ?_, .inl ⟨hrole, ?_⟩⟩
      · rw [hturn.role_eq]
        rfl
      · rw [hturn.role_eq]
        cases hgoes : e.goesOn with
        | false =>
          rw [if_neg Bool.false_ne_true, if_neg Bool.false_ne_true, List.map_nil, List.append_nil]
          exact hlife
        | true =>
          obtain ⟨name, hname⟩ := Enemy.exists_next_of_goesOn hgoes
          rw [if_pos rfl, if_pos rfl, hname]
          exact hlife.change hname

/-- A frame keeps the cast, which the enemies join that come on it. -/
theorem cast (s : Stages f keys g events) (hprepared : f.Prepared assets arrivals)
    (hlt : ∀ p ∈ bill, p.2 < f.world.nextBody) (h : Cast assets bill f.roles tale) :
    Cast assets
      (bill ++ (arrivals.filter (·.time == f.frame)).zipIdx s.acted.world.nextBody)
      g.roles fun id => tale id ++ story id (Event.sort events) := by
  obtain ⟨hcome, hroles, -⟩ := s.joined_of_prepared hprepared
  have hnext := s.kept_acted (Fight.keptByPhases_nextBody f.world.nextBody) (Nat.le_refl _)
  have hjoined := (s.cast_struck h).join (fun p hp => Nat.lt_of_lt_of_le (hlt p hp) hnext)
    (arrivals.filter (·.time == f.frame)) f.frame
  rw [← hcome, ← hroles] at hjoined
  have hmoved := s.cast_moved hjoined
  simp only [List.append_assoc, ← s.story_sort] at hmoved
  exact hmoved

/-- A frame tells of the end of the enemies that find no routine any more. -/
theorem perm_exhausted (s : Stages f keys g events)
    (hnodup : (s.joined.enemies.map (·.body)).Nodup) :
    (exhausted (Event.sort events)).Perm ((s.joined.enemies.filter Enemy.isDone).map (·.body)) := by
  have hperm := s.perm_filterMap_sort Event.phase_of_exhausted?
  obtain ⟨-, htold⟩ := Fight.enemyPhase_turns hnodup
  rw [s.moved_eq] at htold
  have hchanges : (s.joined.enemies.flatMap (Enemy.changeEvents s.joined.frame)).filterMap
      Event.exhausted? = [] := by
    refine List.filterMap_eq_nil_iff.2 fun event he => ?_
    obtain ⟨e, -, he⟩ := List.mem_flatMap.1 he
    obtain ⟨name, rfl⟩ := Enemy.eq_of_mem_changeEvents he
    rfl
  rw [show s.happened .enemies = _ from htold, List.filterMap_append, hchanges, List.filterMap_map,
    List.nil_append] at hperm
  refine hperm.trans (.of_eq ?_)
  rw [← List.filterMap_eq_map]
  rfl

/-- The enemies whose end a frame tells of are those that played, or have come on the frame, and do
not play afterwards. -/
theorem mem_exhausted_iff (s : Stages f keys g events) (hprepared : f.Prepared assets arrivals)
    (hnodup : (s.joined.enemies.map (·.body)).Nodup) {id : BodyId} :
    id ∈ exhausted (Event.sort events) ↔
      (id ∈ f.enemyBodies ∨ id ∈ (spawns (Event.sort events)).map (·.body)) ∧
        id ∉ g.enemyBodies := by
  have hjoined : s.joined.enemies.map (·.body) =
      f.enemyBodies ++ (spawns (Event.sort events)).map (·.body) := by
    have hroles := congrArg (List.map Role.body) (s.joined_of_prepared hprepared).2.1
    rw [s.roles_acted, List.map_append, Fight.map_body_roles, Fight.map_body_roles,
      List.map_map] at hroles
    rw [s.spawns_eq hprepared, List.map_map]
    exact hroles
  rw [← List.mem_append, ← hjoined, (s.perm_exhausted hnodup).mem_iff, s.bodies_moved hnodup]
  have hiff : ∀ e ∈ s.joined.enemies,
      (e.body ∈ (s.joined.enemies.filter Enemy.isDone).map (·.body) ↔
        e.body ∉ (s.joined.enemies.filter fun e => !e.isDone).map (·.body)) := by
    intro e he
    rw [Enemy.body_mem_filter_iff hnodup he, Enemy.body_mem_filter_iff hnodup he, Bool.not_eq_true',
      Bool.not_eq_false]
  constructor
  · intro hin
    have hplays := (List.filter_sublist.map _).subset hin
    obtain ⟨e, he, rfl⟩ := List.mem_map.1 hplays
    exact ⟨hplays, (hiff e he).1 hin⟩
  · rintro ⟨hplays, hgone⟩
    obtain ⟨e, he, rfl⟩ := List.mem_map.1 hplays
    exact (hiff e he).2 hgone

/-- The bodies of the enemies whose end a frame tells of are gone. -/
theorem not_mem_bodies_of_exhausted (s : Stages f keys g events)
    (hnodup : (s.joined.enemies.map (·.body)).Nodup) {id : BodyId}
    (hid : id ∈ exhausted (Event.sort events)) : id ∉ g.world.bodies := by
  rw [(s.perm_exhausted hnodup).mem_iff] at hid
  obtain ⟨-, hfinished, -⟩ :=
    s.joined.updateEnemies_turns s.joined.world s.joined.rng s.joined.enemies
  have hmoved : s.joined.enemyPhase.1 = s.moved := congrArg Prod.fst s.moved_eq
  rw [(congrArg Fight.world s.counted_fst.1 :), World.sweep, World.sweep,
    World.mem_bodies_foldl_destroy, World.mem_bodies_foldl_destroy, ← hmoved, Fight.enemyPhase]
  dsimp only
  rw [hfinished, World.mem_bodies_foldl_destroy]
  exact fun h => h.2.2.1 hid

end Stages

/-! ## Lives over a run -/

namespace Fight

/-- The enemies of the timeline that have come, frame by frame. -/
def arrived (f : Fight K) : List Arrival :=
  (List.range f.frame).flatMap fun time => f.arrivals.filter (·.time == time)

/-- What every call keeps of a fight and of what was told of its enemies. -/
structure CastTold (assets : Assets K) (arrivals : List Arrival) (f : Fight K)
    (reports : List TickReport) : Prop where
  prepared : f.Prepared assets arrivals
  exists_bill : ∃ bill : List (Arrival × BodyId), bill.map Prod.fst = f.arrived ∧
    (∀ p ∈ bill, p.2 < f.world.nextBody) ∧
    Cast assets bill f.roles fun id => story id (told reports)

/-- Every tick keeps the cast, and tells of it what it does. -/
theorem chronicle_castTold (assets : Assets K) (arrivals : List Arrival) :
    Chronicle (CastTold assets arrivals) where
  withKeys keys h :=
    ⟨(keptByPhases_prepared assets arrivals).withKeys keys h.prepared, h.exists_bill⟩
  ended {f reports} _ h := ⟨h.prepared, (told_quiet reports false true).symm ▸ h.exists_bill⟩
  pause {f reports} _ h := ⟨h.prepared, (told_quiet reports true false).symm ▸ h.exists_bill⟩
  frame {f g reports keys events} _ s h := by
    obtain ⟨bill, hbill, hlt, hcast⟩ := h.exists_bill
    have hprepared := s.kept (keptByPhases_prepared assets arrivals) h.prepared
    have hacted := s.kept_acted (keptByPhases_nextBody f.world.nextBody) (Nat.le_refl _)
    obtain ⟨-, -, hnext⟩ := s.joined_of_prepared h.prepared
    have hkept := s.kept_of_joined (keptByPhases_nextBody _) (Nat.le_of_eq hnext.symm)
    refine ⟨hprepared, bill ++ (arrivals.filter (·.time == f.frame)).zipIdx s.acted.world.nextBody,
      ?_, ?_, ?_⟩
    · rw [List.map_append, hbill, List.zipIdx_map_fst, arrived, arrived, s.frame_eq,
        List.range_succ, List.flatMap_append, List.flatMap_singleton, hprepared.arrivals_eq,
        h.prepared.arrivals_eq]
    · intro p hp
      rcases List.mem_append.1 hp with hp | hp
      · exact Nat.lt_of_lt_of_le (hlt p hp) (s.kept (keptByPhases_nextBody _) (Nat.le_refl _))
      · have hin := List.mem_map_of_mem (f := Prod.snd) hp
        rw [List.zipIdx_map_snd, List.mem_range'_1] at hin
        exact Nat.lt_of_lt_of_le hin.2 hkept
    · have hcast := s.cast h.prepared hlt hcast
      simp only [← story_append] at hcast
      rw [told_concat]
      exact hcast

/-- What holds of a fight, of its reports so far, and of the next one. -/
structure LifecyclesKept (assets : Assets K) (g : Fight K) (reports : List TickReport) : Prop where
  /-- The enemies that have come make a cast: each of them has had a life of its own, which is over
  when the enemy is not in the fight any more. -/
  exists_bill : ∃ bill : List (Arrival × BodyId), bill.map Prod.fst = g.arrived ∧
    Cast assets bill g.roles fun id => story id (told reports)
  /-- The life of an enemy in the fight has led to its current routine. -/
  active : ∀ e ∈ g.enemies, Lifecycle e.role false (story e.body (told reports))
  /-- An enemy is exhausted in the tick in which it leaves the fight, ... -/
  leaves : ∀ {raw : ActionSet} {g' : Fight K} {report : TickReport},
    g.tick raw = .ok (g', report) → ∀ id, id ∈ exhausted report.events ↔
      (id ∈ g.enemyBodies ∨ id ∈ (spawns report.events).map (·.body)) ∧ id ∉ g'.enemyBodies
  /-- ... and in which its body leaves the world. -/
  body_leaves : ∀ {raw : ActionSet} {g' : Fight K} {report : TickReport},
    g.tick raw = .ok (g', report) → ∀ id, id ∈ exhausted report.events ↔
      (id ∈ g.enemyBodies ∨ id ∈ (spawns report.events).map (·.body)) ∧ id ∉ g'.world.bodies

/-- Nobody plays when a fight is set up. -/
theorem castTold_of_start {assets : Assets K} {settings : Settings K} {player : PlayerSheet K}
    {sizes : SizeTable K} {entries : List LevelEntry} {arrivals : List Arrival}
    (harrivals : Level.arrivals? assets entries = .ok arrivals) :
    CastTold assets arrivals (ofLevel assets settings ⟨player, sizes, arrivals⟩) [] :=
  ⟨prepared_of_start harrivals, [], rfl, nofun, .nil, .refl _, nofun, fun _ _ => rfl⟩

/-- In every run, what is told of an enemy is a life of its own: it comes, it is hit and moves to
its next routines one after the other, and it is exhausted when it leaves. -/
theorem run_lifecycles {f g : Fight K} {assets : Assets K} {settings : Settings K}
    (hstart : start assets settings = .ok f) {calls : List Call} {reports : List TickReport}
    (hrun : f.run calls = .ok (g, reports)) : LifecyclesKept assets g reports := by
  have hstaffed := keptByPhases_staffed.run hrun (staffed_of_start hstart)
  obtain ⟨player, sizes, entries, arrivals, -, -, hlevel, harrivals, rfl⟩ := start_eq_ok hstart
  obtain ⟨hprepared, bill, hbill, hlt, hcast⟩ :=
    (chronicle_castTold assets arrivals).run_start hrun (castTold_of_start harrivals)
  have hleaves : ∀ {raw g' report}, g.tick raw = .ok (g', report) → ∀ id,
      (id ∈ exhausted report.events ↔
        (id ∈ g.enemyBodies ∨ id ∈ (spawns report.events).map (·.body)) ∧ id ∉ g'.enemyBodies) ∧
      (id ∈ exhausted report.events → id ∉ g'.world.bodies) := by
    intro raw g' report htick id
    have hquiet : id ∈ exhausted [] ↔
        (id ∈ g.enemyBodies ∨ id ∈ (spawns []).map (·.body)) ∧ id ∉ g.enemyBodies :=
      ⟨nofun, fun h => absurd (h.1.resolve_right nofun) h.2⟩
    rcases tick_cases htick with ⟨-, rfl, rfl⟩ | ⟨-, -, rfl, rfl⟩ | ⟨-, -, events, hsim, rfl⟩
    · exact ⟨hquiet, nofun⟩
    · exact ⟨hquiet, nofun⟩
    · obtain ⟨s⟩ := simulate_stages hsim
      have hready := (keptByPhases_prepared assets arrivals).withKeys (g.keys.update raw) hprepared
      have hnodup := (s.kept_joined keptByPhases_staffed hstaffed).intact.nodup_enemyBodies
      exact ⟨s.mem_exhausted_iff hready hnodup, s.not_mem_bodies_of_exhausted hnodup⟩
  refine ⟨⟨bill, hbill, hcast⟩, ?_, fun htick id => (hleaves htick id).1, fun htick id => ?_⟩
  · exact fun e he => hcast.active (List.mem_map_of_mem he)
  · obtain ⟨hiff, hgone⟩ := hleaves htick id
    refine ⟨fun hin => ⟨(hiff.1 hin).1, hgone hin⟩, fun ⟨hplays, hdead⟩ => hiff.2 ⟨hplays, ?_⟩⟩
    exact fun hin =>
      hdead ((keptByPhases_staffed.tick htick hstaffed).intact.enemies_mem_bodies id hin)

end Fight

end

/-- In the duel the only enemy comes on the first frame and has left after the second one. -/
theorem Duel.run_lifecycles_inputs : ∃ f g reports, Fight.start assets settings = .ok f ∧
    f.run (inputs.map .tick) = .ok (g, reports) ∧
    (g.frame, g.enemyBodies, g.arrived.map (·.sheet.image)) = (2, [], ["rival"]) ∧
    Fight.LifecyclesKept assets g reports := by
  have hrun : ((Fight.start assets settings).toOption.bind fun f =>
      (f.run (inputs.map .tick)).toOption.map fun r =>
        (r.1.frame, r.1.enemyBodies, r.1.arrived.map (·.sheet.image))) =
      some (2, [], ["rival"]) := by
    decide +kernel
  obtain ⟨f, hstart, hrun⟩ := toOption_bind_eq_some_iff.1 hrun
  obtain ⟨⟨g, reports⟩, hrun, hend⟩ := toOption_map_eq_some_iff.1 hrun
  exact ⟨f, g, reports, hstart, hrun, hend, Fight.run_lifecycles hstart hrun⟩

end Barrage
