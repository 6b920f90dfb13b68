import Barrage.Format.Routine
import Barrage.Number.Binary64
import Barrage.Routine.Basic

/-!
# Descriptors of other kinds

A routine may hold descriptors of kinds that the library does not know. Each of them is read as the
unknown one, whatever it holds beside its kind (`MoveScript.ofJson?_of_otherKind`,
`PatternScript.ofJson?_of_otherKind`), and it is passed over with a warning when the routine is
built.

`Merged` says that a list holds the members of two others, each in their order. It is carried along
from the JSON lists to the scripts that are read from them (`Merged.mapM`) and to the warnings
(`Merged.flatMap`), and building a routine does not see what is passed over (`Merged.foldl_eq`). So
descriptors of other kinds, put anywhere among those of a routine, leave the routine as it is
(`RoutineScript.ofJson?_padded`).
-/

namespace Barrage

/-! ## Merged lists -/

section
variable {α β : Type}

/-- The third list holds the members of the first and of the second one, each in their order. -/
inductive Merged : List α → List α → List α → Prop where
  | nil : Merged [] [] []
  | left (a : α) {as bs cs : List α} : Merged as bs cs → Merged (a :: as) bs (a :: cs)
  | right (b : α) {as bs cs : List α} : Merged as bs cs → Merged as (b :: bs) (b :: cs)

namespace Merged

variable {as bs cs : List α}

/-- Members of the first list may stand in front. -/
theorem append_left (h : Merged as bs cs) (front : List α) :
    Merged (front ++ as) bs (front ++ cs) := by
  induction front with
  | nil => exact h
  | cons a front ih => exact ih.left a

/-- Members of the second list may stand in front. -/
theorem append_right (h : Merged as bs cs) (front : List α) :
    Merged as (front ++ bs) (front ++ cs) := by
  induction front with
  | nil => exact h
  | cons b front ih => exact ih.right b

/-- Lists that are merged may be put behind each other. -/
theorem append {as' bs' cs' : List α} (h : Merged as bs cs) (h' : Merged as' bs' cs') :
    Merged (as ++ as') (bs ++ bs') (cs ++ cs') := by
  induction h with
  | nil => exact h'
  | left a _ ih => exact ih.left a
  | right b _ ih => exact ih.right b

/-- What is made of the members is merged in the same way. -/
theorem flatMap (h : Merged as bs cs) (f : α → List β) :
    Merged (as.flatMap f) (bs.flatMap f) (cs.flatMap f) := by
  induction h with
  | nil => exact .nil
  | left a _ ih => exact ih.append_left (f a)
  | right b _ ih => exact ih.append_right (f b)

/-- What is read of the members is merged in the same way, if all of it can be read. -/
theorem mapM (h : Merged as bs cs) {f : α → Option β} {xs ys : List β}
    (hxs : as.mapM f = some xs) (hys : bs.mapM f = some ys) :
    ∃ zs, cs.mapM f = some zs ∧ Merged xs ys zs := by
  induction h generalizing xs ys with
  | nil =>
    cases hxs
    cases hys
    exact ⟨[], rfl, .nil⟩
  | left a _ ih =>
    rw [List.mapM_cons] at hxs ⊢
    obtain ⟨x, hx, hxs⟩ := Option.bind_eq_some_iff.1 hxs
    obtain ⟨rest, hrest, hxs⟩ := Option.bind_eq_some_iff.1 hxs
    cases hxs
    obtain ⟨zs, hzs, hmerged⟩ := ih hrest hys
    rw [hx, hzs]
    exact ⟨x :: zs, rfl, hmerged.left x⟩
  | right b _ ih =>
    rw [List.mapM_cons] at hys ⊢
    obtain ⟨y, hy, hys⟩ := Option.bind_eq_some_iff.1 hys
    obtain ⟨rest, hrest, hys⟩ := Option.bind_eq_some_iff.1 hys
    cases hys
    obtain ⟨zs, hzs, hmerged⟩ := ih hxs hrest
    rw [hy, hzs]
    exact ⟨y :: zs, rfl, hmerged.right y⟩

/-- Without members of the first list the third one is the second one. -/
theorem eq_of_nil (h : Merged [] bs cs) : cs = bs := by
  generalize hnil : ([] : List α) = as at h
  induction h with
  | nil => rfl
  | left a _ _ => cases hnil
  | right b _ ih => rw [ih hnil]

/-- Members without effect may be left out. -/
theorem foldl_eq (h : Merged as bs cs) {f : β → α → β} (hf : ∀ b ∈ bs, ∀ s, f s b = s) (s : β) :
    cs.foldl f s = as.foldl f s := by
  induction h generalizing s with
  | nil => rfl
  | left a _ ih => exact ih hf (f s a)
  | right b _ ih =>
    rw [List.foldl_cons, hf b List.mem_cons_self s]
    exact ih (fun b' hb' => hf b' (List.mem_cons_of_mem b hb')) s

end Merged

/-- What is made of the members is one thing many times over, if it is the same for each of them. -/
theorem mapM_eq_replicate {as : List α} {f : α → Option β} {b : β} (h : ∀ a ∈ as, f a = some b) :
    as.mapM f = some (List.replicate as.length b) := by
  induction as with
  | nil => rfl
  | cons a rest ih =>
    rw [List.mapM_cons, h a List.mem_cons_self, ih fun a' ha' => h a' (List.mem_cons_of_mem a ha')]
    rfl

/-- Equal members of which one thing is made give this thing as often. -/
theorem flatMap_replicate {a : α} {b : β} {f : α → List β} (h : f a = [b]) (n : Nat) :
    (List.replicate n a).flatMap f = List.replicate n b := by
  induction n with
  | zero => rfl
  | succ n ih => rw [List.replicate_succ, List.flatMap_cons, ih, h, List.replicate_succ]; rfl

end

variable {K : Type}

/-! ## Descriptors -/

/-- An object whose kind is none of the given ones. It may hold anything beside its kind. -/
def Json.OfOtherKind (kinds : List String) (j : Json K) : Prop :=
  ∃ members kind, j = .obj members ∧ lookup? members "type" = some (.str kind) ∧ kind ∉ kinds

/-- An object of another kind has a kind that is none of the given ones. -/
theorem Json.OfOtherKind.tagged? {kinds : List String} {j : Json K} (h : j.OfOtherKind kinds) :
    ∃ kind members, j.tagged? = some (kind, .named members) ∧ kind ∉ kinds := by
  obtain ⟨members, kind, rfl, hkind, hother⟩ := h
  refine ⟨kind, members, ?_, hother⟩
  rw [Json.tagged?, hkind]
  rfl

/-- The kinds of moves. -/
def MoveScript.kinds : List String := ["Fixed", "Randomized", "Stop"]

/-- The kinds of patterns. -/
def PatternScript.kinds : List String := ["ShotArray", "ShotRow", "ShotCircle", "ShotTwister"]

variable [Scalar K]

/-- A move of another kind is read as the unknown one. -/
theorem MoveScript.ofJson?_of_otherKind {j : Json K} (h : j.OfOtherKind kinds) :
    ofJson? j = some .unknown := by
  obtain ⟨kind, members, htagged, hother⟩ := h.tagged?
  simp only [kinds, List.mem_cons, List.not_mem_nil, or_false, not_or] at hother
  rw [ofJson?, htagged, Option.bind_eq_bind, Option.bind_some]
  split
  · next heq => exact absurd (congrArg Prod.fst heq) hother.1
  · next heq => exact absurd (congrArg Prod.fst heq) hother.2.1
  · next heq => exact absurd (congrArg Prod.fst heq) hother.2.2
  · next heq =>
    cases heq
    rfl

/-- A pattern of another kind is read as the unknown one. -/
theorem PatternScript.ofJson?_of_otherKind {j : Json K} (h : j.OfOtherKind kinds) :
    ofJson? j = some .unknown := by
  obtain ⟨kind, members, htagged, hother⟩ := h.tagged?
  simp only [kinds, List.mem_cons, List.not_mem_nil, or_false, not_or] at hother
  rw [ofJson?, htagged, Option.bind_eq_bind, Option.bind_some]
  split
  · next heq => exact absurd (congrArg Prod.fst heq) hother.1
  · next heq => exact absurd (congrArg Prod.fst heq) hother.2.1
  · next heq => exact absurd (congrArg Prod.fst heq) hother.2.2.1
  · next heq => exact absurd (congrArg Prod.fst heq) hother.2.2.2
  · next heq =>
    cases heq
    rfl

/-- An unknown move leaves a routine as it is. -/
theorem Routine.addMove_unknown (r : Routine K) : r.addMove .unknown = r := rfl

/-- So does an unknown pattern. -/
theorem Routine.addPattern_unknown (r : Routine K) : r.addPattern .unknown = r := rfl

/-! ## Routines -/

section
omit [Scalar K]

/-- The descriptors of a field. A field that is left out holds none. -/
def descriptors? : Option (Json K) → Option (List (Json K))
  | none => some []
  | some (.arr items) => some items
  | some _ => none

/-- The second field holds the descriptors of the first one and others, each in their order. -/
def Pads (others : List (Json K)) (field field' : Option (Json K)) : Prop :=
  ∃ items items', descriptors? field = some items ∧ descriptors? field' = some items' ∧
    Merged items others items'

/-- The second value is the routine of the first one, its fields by name or in order, with other
moves and patterns put into its lists. -/
inductive Padded (moves patterns : List (Json K)) : Json K → Json K → Prop where
  | named {members members' : List (String × Json K)}
      (hmoves : Pads moves (Json.lookup? members "moves") (Json.lookup? members' "moves"))
      (hpatterns : Pads patterns (Json.lookup? members "shots") (Json.lookup? members' "shots"))
      (hsame : ∀ key, key ≠ "moves" → key ≠ "shots" →
        Json.lookup? members' key = Json.lookup? members key) :
      Padded moves patterns (.obj members) (.obj members')
  | positional {items items' : List (Json K)}
      (hmoves : Pads moves items[4]? items'[4]?)
      (hpatterns : Pads patterns items[5]? items'[5]?)
      (hsame : ∀ i, i ≠ 4 → i ≠ 5 → items'[i]? = items[i]?) :
      Padded moves patterns (.arr items) (.arr items')

/-- A list of descriptors is read member by member. -/
theorem list?_of_descriptors? {α : Type} {f : Json.Fields K} {index : Nat} {name : String}
    {items : List (Json K)} (h : descriptors? (f.get? index name) = some items)
    (read : Json K → Option α) :
    f.withDefault index name [] (Json.list? read) = items.mapM read := by
  unfold Json.Fields.withDefault
  cases hfield : f.get? index name with
  | none =>
    rw [hfield] at h
    cases h
    rfl
  | some j =>
    rw [hfield] at h
    cases j with
    | arr listed =>
      cases h
      rfl
    | _ => cases h

/-- What is read of a field that was padded with descriptors that are read as the unknown one. -/
theorem Pads.withDefault {α : Type} {others : List (Json K)} {f f' : Json.Fields K} {index : Nat}
    {name : String} (h : Pads others (f.get? index name) (f'.get? index name))
    {read : Json K → Option α} {unknown : α} (hothers : ∀ j ∈ others, read j = some unknown)
    {as : List α} (has : f.withDefault index name [] (Json.list? read) = some as) :
    ∃ as', f'.withDefault index name [] (Json.list? read) = some as' ∧
      Merged as (List.replicate others.length unknown) as' := by
  obtain ⟨items, items', hitems, hitems', hmerged⟩ := h
  rw [list?_of_descriptors? hitems] at has
  rw [list?_of_descriptors? hitems']
  exact hmerged.mapM has (mapM_eq_replicate hothers)

/-- A padded routine has the same fields but for its two lists. -/
theorem Padded.record? {moves patterns : List (Json K)} {j j' : Json K}
    (h : Padded moves patterns j j') {f : Json.Fields K} (hf : j.record? 6 = some f) :
    ∃ f', j'.record? 6 = some f' ∧
      Pads moves (f.get? 4 "moves") (f'.get? 4 "moves") ∧
      Pads patterns (f.get? 5 "shots") (f'.get? 5 "shots") ∧
      ∀ index name, index < 4 → name ≠ "moves" → name ≠ "shots" →
        f'.get? index name = f.get? index name := by
  cases h with
  | named hmoves hpatterns hsame =>
    cases hf
    exact ⟨_, rfl, hmoves, hpatterns, fun _ name _ => hsame name⟩
  | @positional items items' hmoves hpatterns hsame =>
    rw [Json.record?, Json.Fields.atMost?] at hf
    split at hf
    · next hlength =>
      cases hf
      have hlength' : items'.length ≤ 6 := by
        rw [← List.getElem?_eq_none_iff, hsame 6 (by decide) (by decide)]
        exact List.getElem?_eq_none hlength
      refine ⟨.positional items', if_pos hlength', hmoves, hpatterns, fun index _ hlt _ _ => ?_⟩
      exact hsame index (by omega) (by omega)
    · cases hf

end

namespace RoutineScript

/-- A routine is read field by field. -/
theorem ofJson?_eq_some_iff {j : Json K} {s : RoutineScript K} : ofJson? j = some s ↔
    ∃ f, j.record? 6 = some f ∧ f.required 0 "name" Json.str? = some s.name ∧
      f.withDefault 1 "loops" false Json.bool? = some s.loops ∧
      f.required 2 "duration" Json.nat32? = some s.duration ∧
      f.withDefault 3 "hp" none (Json.option? Json.nat32?) = some s.hitPoints ∧
      f.withDefault 4 "moves" [] (Json.list? MoveScript.ofJson?) = some s.moves ∧
      f.withDefault 5 "shots" [] (Json.list? PatternScript.ofJson?) = some s.patterns := by
  constructor
  · intro h
    obtain ⟨f, hf, h⟩ := Option.bind_eq_some_iff.1 h
    obtain ⟨name, hname, h⟩ := Option.bind_eq_some_iff.1 h
    obtain ⟨loops, hloops, h⟩ := Option.bind_eq_some_iff.1 h
    obtain ⟨duration, hduration, h⟩ := Option.bind_eq_some_iff.1 h
    obtain ⟨hitPoints, hpoints, h⟩ := Option.bind_eq_some_iff.1 h
    obtain ⟨moves, hmoves, h⟩ := Option.bind_eq_some_iff.1 h
    obtain ⟨patterns, hpatterns, h⟩ := Option.bind_eq_some_iff.1 h
    cases h
    exact ⟨f, hf, hname, hloops, hduration, hpoints, hmoves, hpatterns⟩
  · rintro ⟨f, hf, hname, hloops, hduration, hpoints, hmoves, hpatterns⟩
    rw [ofJson?, hf]
    simp only [Option.bind_eq_bind, Option.bind_some, hname, hloops, hduration, hpoints, hmoves,
      hpatterns]
    rfl

/-- Descriptors of other kinds change nothing about a routine. With any of them put into its lists,
it can be read, it is built in the same way, and each of them gives one warning more. -/
theorem ofJson?_padded {j j' : Json K} {moves patterns : List (Json K)}
    (h : Padded moves patterns j j') (hmoves : ∀ m ∈ moves, m.OfOtherKind MoveScript.kinds)
    (hpatterns : ∀ p ∈ patterns, p.OfOtherKind PatternScript.kinds) {s : RoutineScript K}
    (hs : ofJson? j = some s) :
    ∃ s', ofJson? j' = some s' ∧ Routine.ofScript s' = Routine.ofScript s ∧
      Merged s.warnings
        (List.replicate moves.length (.unknownMove s.name) ++
          List.replicate patterns.length (.unknownPattern s.name)) s'.warnings := by
  obtain ⟨f, hf, hname, hloops, hduration, hpoints, hlisted, hfired⟩ := ofJson?_eq_some_iff.1 hs
  obtain ⟨f', hf', hpads, hpads', hsame⟩ := h.record? hf
  obtain ⟨listed, hlisted', hmerged⟩ :=
    hpads.withDefault (fun m hm => MoveScript.ofJson?_of_otherKind (hmoves m hm)) hlisted
  obtain ⟨fired, hfired', hmerged'⟩ :=
    hpads'.withDefault (fun p hp => PatternScript.ofJson?_of_otherKind (hpatterns p hp)) hfired
  refine ⟨{ s with moves := listed, patterns := fired }, ?_, ?_, ?_⟩
  · refine ofJson?_eq_some_iff.2 ⟨f', hf', ?_, ?_, ?_, ?_, hlisted', hfired'⟩
    · rw [Json.Fields.required_congr (hsame 0 "name" (by decide) (by decide) (by decide)), hname]
    · rw [Json.Fields.withDefault_congr (hsame 1 "loops" (by decide) (by decide) (by decide)),
        hloops]
    · rw [Json.Fields.required_congr (hsame 2 "duration" (by decide) (by decide) (by decide)),
        hduration]
    · rw [Json.Fields.withDefault_congr (hsame 3 "hp" (by decide) (by decide) (by decide)),
        hpoints]
  · rw [Routine.ofScript, Routine.ofScript, hmerged'.foldl_eq, hmerged.foldl_eq]
    · intro m hm r
      rw [List.eq_of_mem_replicate hm, Routine.addMove_unknown]
    · intro p hp r
      rw [List.eq_of_mem_replicate hp, Routine.addPattern_unknown]
  · have hwarned := (hmerged.flatMap (MoveScript.warnings s.name)).append
      (hmerged'.flatMap (PatternScript.warnings s.name))
    have hmove : MoveScript.warnings s.name (.unknown : MoveScript K) = [.unknownMove s.name] := rfl
    have hpattern : PatternScript.warnings s.name (.unknown : PatternScript K) =
        [.unknownPattern s.name] := rfl
    rwa [flatMap_replicate hmove, flatMap_replicate hpattern] at hwarned

end RoutineScript

/-! ## A routine from elsewhere -/

namespace Foreign

/-- A halt. -/
def halt (time : Int) : Json Binary64 :=
  .obj [("type", .str "Stop"), ("times", .arr [.int time])]

/-- A move without its times, and one whose times are a text. -/
def moves : List (Json Binary64) :=
  [.obj [("type", .str "Teleport")], .obj [("times", .str "soon"), ("type", .str "Unknown")]]

/-- A pattern that holds `null` for its count. -/
def patterns : List (Json Binary64) := [.obj [("type", .str "ShotSpiral"), ("nr_shots", .null)]]

/-- The members of a routine with two halts and without patterns. -/
def watch : List (String × Json Binary64) :=
  [("name", .str "watch"), ("duration", .int 9), ("moves", .arr [halt 0, halt 4])]

/-- The same routine with the other moves around its halts, and with the other pattern. -/
def padded : List (String × Json Binary64) :=
  [("name", .str "watch"), ("shots", .arr patterns), ("duration", .int 9),
    ("moves", .arr (moves.take 1 ++ [halt 0, halt 4] ++ moves.drop 1))]

/-- The second form of the routine is the first one with the other moves and patterns put in. -/
theorem padded_watch : Padded moves patterns (.obj watch) (.obj padded) := by
  refine .named ⟨_, _, rfl, rfl, ?_⟩ ⟨_, _, rfl, rfl, ?_⟩ fun key hmoves hpatterns => ?_
  · exact .right _ (.left _ (.left _ (.right _ .nil)))
  · exact .right _ .nil
  · by_cases hname : "name" = key
    · rw [watch, padded, ← hname, Json.lookup?_cons_self, Json.lookup?_cons_self]
    · rw [watch, padded, Json.lookup?_cons_of_ne hname, Json.lookup?_cons_of_ne hname,
        Json.lookup?_cons_of_ne hpatterns.symm]
      by_cases hduration : "duration" = key
      · rw [← hduration, Json.lookup?_cons_self, Json.lookup?_cons_self]
      · rw [Json.lookup?_cons_of_ne hduration, Json.lookup?_cons_of_ne hduration,
          Json.lookup?_cons_of_ne hmoves.symm, Json.lookup?_cons_of_ne hmoves.symm]

/-- The routine is built as before, with three warnings. -/
theorem ofJson?_padded_watch :
    (Padded moves patterns (.obj watch) (.obj padded) ∧
      (∀ m ∈ moves, m.OfOtherKind MoveScript.kinds) ∧
      (∀ p ∈ patterns, p.OfOtherKind PatternScript.kinds) ∧
      RoutineScript.ofJson? (.obj watch) = some
        ⟨"watch", false, 9, none, [.stop [0], .stop [4]], []⟩) ∧
    ∃ s, RoutineScript.ofJson? (.obj padded) = some s ∧
      Routine.ofScript s =
        Routine.ofScript ⟨"watch", false, 9, none, [.stop [0], .stop [4]], []⟩ ∧
      s.warnings = [.unknownMove "watch", .unknownMove "watch", .unknownPattern "watch"] := by
  have hmoves : ∀ m ∈ moves, m.OfOtherKind MoveScript.kinds := by
    intro m hm
    rcases List.mem_cons.1 hm with rfl | hm
    · exact ⟨_, _, rfl, rfl, by decide⟩
    · obtain rfl := List.mem_singleton.1 hm
      exact ⟨_, _, rfl, rfl, by decide⟩
  have hpatterns : ∀ p ∈ patterns, p.OfOtherKind PatternScript.kinds := by
    intro p hp
    obtain rfl := List.mem_singleton.1 hp
    exact ⟨_, _, rfl, rfl, by decide⟩
  have hread : RoutineScript.ofJson? (.obj watch) = some
      ⟨"watch", false, 9, none, [.stop [0], .stop [4]], []⟩ := rfl
  obtain ⟨s, hs, hbuilt, hwarned⟩ :=
    RoutineScript.ofJson?_padded padded_watch hmoves hpatterns hread
  refine ⟨⟨padded_watch, hmoves, hpatterns, hread⟩, s, hs, hbuilt, ?_⟩
  exact hwarned.eq_of_nil

end Foreign

end Barrage
