import Mathlib.Data.List.Induction
import Barrage.Actor.Player
import Barrage.Proofs.World.Handles

/-!
# The cadence of a weapon

A player is updated frame after frame, each time with some keys and in some world (`Player.Turn`).
The weapon counts down to its next volley, and the count tells no more than how long ago the last
volley was: it is at most `k` when none of the last `fireRate - k` turns has fired
(`Player.cooldown_le_iff`). So a turn fires when the key is held and none of the last `fireRate`
turns has fired, whatever the keys were (`Player.cadenceLaw_take`).

The world of a turn is one that operations have made (`World.Made`), and it is one again after the
turn. The new bodies of a volley are the shots of the weapon in their order.
-/

namespace Barrage

variable {K : Type} [Scalar K]

/-! ## Worlds in use -/

namespace World

/-- A world that operations have made of an empty one. -/
def Made (w : World K) : Prop := ∃ bounds ops, w = (empty bounds).applyAll ops

section
variable {w : World K}

/-- The tables of a world that operations have made agree. -/
theorem Made.sound (h : w.Made) : w.Sound := by
  obtain ⟨bounds, ops, rfl⟩ := h
  exact (follows_applyAll _ ops).sound (sound_empty bounds)

/-- Operations on such a world make such a world. -/
theorem Made.applyAll (h : w.Made) (ops : List (Op K)) : (w.applyAll ops).Made := by
  obtain ⟨bounds, before, rfl⟩ := h
  exact ⟨bounds, before ++ ops, (applyAll_append _ before ops).symm⟩

/-- To fire a volley is to fire its shots one after the other. -/
theorem applyAll_spawnShot (w : World K) (shots : List (Shot K)) (source : BodyId) (group : GroupId)
    (sizeOf : String → Size K) :
    w.applyAll (shots.map fun shot => .spawnShot shot source group (sizeOf shot.image)) =
      (w.spawnShots shots source group sizeOf).2 := by
  induction shots generalizing w with
  | nil => rfl
  | cons shot rest ih =>
    rw [List.map_cons, World.applyAll, List.foldl_cons, apply, spawnShots]
    cases w.spawnShot shot source group (sizeOf shot.image) with
    | none => exact ih w
    | some fired => exact ih fired.2

end

end World

/-! ## Turns -/

namespace Player

/-- What a player finds when it is updated: the keys, a world with a group for its shots, their
sizes, and whether a window without harm is running by then. -/
structure Turn (K : Type) where
  keys : ActionSet
  world : World K
  group : GroupId
  sizeOf : String → Size K
  invincible : Bool

/-- The update, with the number of shots fired. -/
def take (p : Player K) (t : Turn K) : Nat × Player K × World K :=
  { p with invincible := t.invincible }.update t.keys t.world t.group t.sizeOf

/-- The player after some turns. -/
def after (p : Player K) (past : List (Turn K)) : Player K :=
  past.foldl (fun p t => (p.take t).2.1) p

/-- Whether a turn fires a volley. -/
def fires (p : Player K) (t : Turn K) : Bool := t.keys.has .fire && p.weapon.cooldown == 0

/-- None of the last `count` of some turns has fired. -/
def Silent (p : Player K) (past : List (Turn K)) (count : Nat) : Prop :=
  ∀ before u between, past = before ++ u :: between → between.length < count →
    (p.after before).fires u = false

section
variable {p : Player K} {past later : List (Turn K)} {t : Turn K} {count : Nat}

/-- Without turns a player is as it was. -/
@[simp] theorem after_nil : p.after [] = p := rfl

/-- Turns are taken one after the other. -/
@[simp] theorem after_append : p.after (past ++ later) = (p.after past).after later :=
  List.foldl_append

/-- The first turn is taken before the others. -/
@[simp] theorem after_cons : p.after (t :: later) = (p.take t).2.1.after later := rfl

/-- The last turn is taken after the others. -/
theorem after_concat : p.after (past ++ [t]) = ((p.after past).take t).2.1 := by simp

/-- None of no turns has fired. -/
theorem silent_zero : p.Silent past 0 := nofun

/-- Where there was no turn, none has fired. -/
theorem silent_nil : p.Silent [] count := by
  intro before u between hsplit
  simp at hsplit

/-- The last turns have not fired if the last one has not and those before it have not. -/
theorem silent_concat : p.Silent (past ++ [t]) (count + 1) ↔
    (p.after past).fires t = false ∧ p.Silent past count := by
  constructor
  · intro h
    refine ⟨h past t [] rfl (Nat.succ_pos count), fun before u between hsplit hlt => ?_⟩
    refine h before u (between ++ [t]) (by simp [hsplit]) ?_
    simpa using hlt
  · rintro ⟨hlast, hsilent⟩ before u between hsplit hlt
    rcases List.eq_nil_or_concat between with rfl | ⟨between, v, rfl⟩
    · obtain ⟨rfl, ⟨rfl⟩⟩ := List.append_inj' hsplit rfl
      exact hlast
    · rw [List.concat_eq_append, ← List.cons_append, ← List.append_assoc] at hsplit
      obtain ⟨rfl, -⟩ := List.append_inj' hsplit rfl
      refine hsilent before u between rfl ?_
      simpa using hlt

/-! ## The count -/

/-- A turn gives as many shots as it has fired. -/
theorem take_fst (p : Player K) (t : Turn K) : (p.take t).1 =
    if p.fires t then
      ((t.world.setVelocity p.body (p.velocity t.keys)).spawnShots p.weapon.shots p.body t.group
        t.sizeOf).1.length
    else 0 := by
  rw [take, update, fire, fires]
  split <;> rfl

/-- A turn changes nothing of a player but the count of the weapon and the window. -/
theorem take_player (p : Player K) (t : Turn K) : (p.take t).2.1 =
    { p with
      weapon := { p.weapon with
        cooldown := if p.fires t then p.weapon.fireRate else p.weapon.cooldown - 1 }
      invincible := t.invincible } := by
  rw [take, update, fire, fires]
  split <;> rfl

/-- Nor of the world but the velocity of the player, unless it fires. -/
theorem take_world (p : Player K) (t : Turn K) : (p.take t).2.2 =
    ((t.world.setVelocity p.body (p.velocity t.keys)).spawnShots
      (if p.fires t then p.weapon.shots else []) p.body t.group t.sizeOf).2 := by
  rw [take, update, fire, fires]
  split <;> rfl

/-- Whatever happens, the weapon stays the same but for its count. -/
theorem after_eq (p : Player K) (past : List (Turn K)) : ∃ cooldown invincible, p.after past =
    { p with weapon := { p.weapon with cooldown }, invincible } := by
  induction past using List.reverseRecOn with
  | nil => exact ⟨_, _, rfl⟩
  | append_singleton past t ih =>
    obtain ⟨cooldown, invincible, heq⟩ := ih
    rw [after_concat, take_player, heq]
    exact ⟨_, _, rfl⟩

/-- The count of the weapon tells how long ago the last volley was. -/
theorem cooldown_le_iff (hready : p.weapon.cooldown = 0) (past : List (Turn K)) (k : Nat) :
    (p.after past).weapon.cooldown ≤ k ↔ p.Silent past (p.weapon.fireRate - k) := by
  induction past using List.reverseRecOn generalizing k with
  | nil => simp [hready, silent_nil]
  | append_singleton past t ih =>
    obtain ⟨cooldown, invincible, heq⟩ := p.after_eq past
    have hrate : (p.after past).weapon.fireRate = p.weapon.fireRate := by rw [heq]
    rw [after_concat, take_player]
    rcases Nat.lt_or_ge k p.weapon.fireRate with hlt | hge
    · -- the turn is one of those that must not have fired
      have hcount : p.weapon.fireRate - k = p.weapon.fireRate - (k + 1) + 1 := by omega
      rw [hcount, silent_concat, ← ih]
      cases (p.after past).fires t with
      | true => simpa [hrate] using hlt
      | false => simp
    · -- no turn is, and the count is never above the rate
      have hle : (p.after past).weapon.cooldown ≤ p.weapon.fireRate := by
        rw [ih, Nat.sub_self]
        exact silent_zero
      rw [Nat.sub_eq_zero_of_le hge]
      refine iff_of_true ?_ silent_zero
      dsimp only
      split <;> omega

/-- A turn fires when the key is held and none of the last turns has fired. -/
theorem fires_after_iff (hready : p.weapon.cooldown = 0) (past : List (Turn K)) (t : Turn K) :
    (p.after past).fires t = true ↔
      t.keys.has .fire = true ∧ p.Silent past p.weapon.fireRate := by
  rw [fires, Bool.and_eq_true, beq_iff_eq, ← Nat.le_zero, cooldown_le_iff hready, Nat.sub_zero]

/-- As long as the rate is not used up, no turn after a volley fires. -/
theorem silent_of_fires (hready : p.weapon.cooldown = 0) {before between : List (Turn K)}
    (hfires : (p.after before).fires t = true) (hle : between.length ≤ p.weapon.fireRate) :
    p.Silent (before ++ t :: between) between.length := by
  induction between using List.reverseRecOn with
  | nil => exact silent_zero
  | append_singleton between v ih =>
    rw [List.length_append, List.length_singleton] at hle ⊢
    rw [← List.cons_append, ← List.append_assoc, silent_concat]
    refine ⟨Bool.eq_false_iff.2 fun hagain => ?_, ih (Nat.le_of_succ_le hle)⟩
    have hsilent := ((fires_after_iff hready _ v).1 hagain).2 before t between rfl hle
    exact Bool.false_ne_true (hsilent.symm.trans hfires)

end

/-! ## The world of a turn -/

section
variable {p : Player K} {t : Turn K}

/-- A turn that fires fires the weapon from the place of the player. -/
theorem spawns_take (hmade : t.world.Made) {source : Body K}
    (hsource : t.world.bodies[p.body]? = some source) :
    (p.take t).1 = (if p.fires t then p.weapon.shots.length else 0) ∧
    (t.world.setVelocity p.body (p.velocity t.keys)).Spawns
      (if p.fires t then p.weapon.shots else []) { source with velocity := p.velocity t.keys }
      t.group t.sizeOf (p.take t).2.2 := by
  have hlt : p.body < t.world.nextBody := hmade.sound.lt_nextBody
    (Std.ExtTreeMap.mem_iff_isSome_getElem?.2 (Option.isSome_of_eq_some hsource))
  have hsteered : (t.world.setVelocity p.body (p.velocity t.keys)).bodies[p.body]? =
      some { source with velocity := p.velocity t.keys } := by
    rw [World.setVelocity, World.bodies_modify, if_pos rfl, hsource, Option.map_some]
  obtain ⟨hids, hspawns⟩ := World.spawns_spawnShots hsteered hlt
    (if p.fires t then p.weapon.shots else []) t.group t.sizeOf
  rw [take_fst, take_world]
  refine ⟨?_, hspawns⟩
  split
  · next h =>
    rw [h] at hids
    exact (congrArg List.length hids).trans List.length_range'
  · rfl

/-- The shots of a turn, if there are some, stand behind the other members of their group. -/
theorem gains_take (hmade : t.world.Made) (hlive : p.body ∈ t.world.bodies)
    (hgroup : t.group < t.world.groups.length) :
    t.world.Gains t.group (if p.fires t then p.weapon.shots.length else 0) (p.take t).2.2 := by
  obtain ⟨source, hsource⟩ :=
    Option.isSome_iff_exists.1 (Std.ExtTreeMap.mem_iff_isSome_getElem?.1 hlive)
  have hhosts := (hmade.applyAll [.setVelocity p.body (p.velocity t.keys)]).sound.hosts
    (List.getElem?_eq_getElem hgroup)
  have hgains := (spawns_take hmade hsource).2.gains hhosts
  rw [apply_ite List.length, List.length_nil] at hgains
  exact hgains.of_bodies t.world.mem_bodies_modify

/-- A turn leaves a world that operations have made. -/
theorem made_take (hmade : t.world.Made) : (p.take t).2.2.Made := by
  rw [take_world, ← World.applyAll_spawnShot]
  exact (hmade.applyAll [.setVelocity p.body (p.velocity t.keys)]).applyAll _

/-- The new bodies of a turn that fires are the shots of the weapon. -/
theorem shots_take (hmade : t.world.Made) (hfires : p.fires t = true) {source : Body K}
    (hsource : t.world.bodies[p.body]? = some source) :
    (p.take t).1 = p.weapon.shots.length ∧
    ∀ i shot, p.weapon.shots[i]? = some shot →
      ∃ new, (p.take t).2.2.bodies[t.world.nextBody + i]? = some new ∧
        World.IsShotOf shot source (t.sizeOf shot.image) new := by
  obtain ⟨hcount, hspawns⟩ := spawns_take hmade hsource
  rw [if_pos hfires] at hcount hspawns
  refine ⟨hcount, fun i shot hi => ?_⟩
  obtain ⟨new, hnew, hshape, -⟩ := hspawns.new i shot hi
  exact ⟨new, hnew, hshape.of_velocity⟩

end

/-- What is known of a turn of a player after some turns. -/
structure CadenceLaw (p : Player K) (past : List (Turn K)) (t : Turn K) : Prop where
  /-- It fires when the key is held and none of the last `fireRate` turns has fired. -/
  fires_iff : (p.after past).fires t = true ↔ t.keys.has .fire = true ∧
    ∀ before u between, past = before ++ u :: between → between.length < p.weapon.fireRate →
      (p.after before).fires u = false
  /-- Then each shot of the weapon becomes a new body, in their order. -/
  volley : (p.after past).fires t = true →
    ((p.after past).take t).1 = p.weapon.shots.length ∧
    t.world.Gains t.group p.weapon.shots.length ((p.after past).take t).2.2 ∧
    ∀ source, t.world.bodies[p.body]? = some source → ∀ i shot, p.weapon.shots[i]? = some shot →
      ∃ new, ((p.after past).take t).2.2.bodies[t.world.nextBody + i]? = some new ∧
        World.IsShotOf shot source (t.sizeOf shot.image) new
  /-- Otherwise the player is steered, and nothing else happens in the world. -/
  idle : (p.after past).fires t = false → ((p.after past).take t).1 = 0 ∧
    ((p.after past).take t).2.2 = t.world.setVelocity p.body (p.velocity t.keys)
  /-- Between two volleys there are `fireRate` turns or more. -/
  apart : ∀ before u between, past = before ++ u :: between → (p.after before).fires u = true →
    (p.after past).fires t = true → p.weapon.fireRate ≤ between.length
  /-- After `fireRate` turns without a volley a key that is held fires the next one. -/
  earliest : ∀ before u between, past = before ++ u :: between →
    (p.after before).fires u = true → between.length = p.weapon.fireRate →
    (p.after past).fires t = t.keys.has .fire
  /-- A key that is held too early leaves no trace. -/
  dropped : (p.after past).fires t = false → ∀ later,
    p.after (past ++ { t with keys := t.keys.erase .fire } :: later) = p.after (past ++ t :: later)
  /-- The world that is left is one for the next turn. -/
  goes_on : ((p.after past).take t).2.2.Made ∧ p.body ∈ ((p.after past).take t).2.2.bodies ∧
    t.group < ((p.after past).take t).2.2.groups.length

/-- Every turn in a world with the body of the player and a group for its shots keeps to the law, if
the weapon was ready at first. -/
theorem cadenceLaw_take {p : Player K} (hready : p.weapon.cooldown = 0) (past : List (Turn K))
    {t : Turn K} (hmade : t.world.Made) (hlive : p.body ∈ t.world.bodies)
    (hgroup : t.group < t.world.groups.length) : CadenceLaw p past t := by
  obtain ⟨cooldown, invincible, heq⟩ := p.after_eq past
  have hbody : (p.after past).body = p.body := by rw [heq]
  have hshots : (p.after past).weapon.shots = p.weapon.shots := by rw [heq]
  have hlive' : (p.after past).body ∈ t.world.bodies := hbody ▸ hlive
  have hgains := gains_take hmade hlive' hgroup
  refine ⟨fires_after_iff hready past t, fun hfires => ?_, fun hidle => ?_, ?_, ?_, ?_, ?_⟩
  · obtain ⟨source, hsource⟩ :=
      Option.isSome_iff_exists.1 (Std.ExtTreeMap.mem_iff_isSome_getElem?.1 hlive')
    have htaken := shots_take hmade hfires hsource
    rw [if_pos hfires, hshots] at hgains
    rw [hshots] at htaken
    refine ⟨htaken.1, hgains, fun source' hsource' => ?_⟩
    rw [← hbody, hsource] at hsource'
    cases hsource'
    exact htaken.2
  · rw [take_fst, take_world, hidle, heq]
    exact ⟨rfl, rfl⟩
  · intro before u between hsplit hfirst hagain
    refine Nat.le_of_not_lt fun hlt => ?_
    have hsilent := ((fires_after_iff hready past t).1 hagain).2 before u between hsplit hlt
    exact Bool.false_ne_true (hsilent.symm.trans hfirst)
  · rintro before u between rfl hfirst hlength
    have hsilent := silent_of_fires hready hfirst (Nat.le_of_eq hlength)
    rw [Bool.eq_iff_iff, fires_after_iff hready, ← hlength]
    exact and_iff_left hsilent
  · intro hidle later
    have herased : (p.after past).fires { t with keys := t.keys.erase .fire } = false := by
      simp [fires]
    simp only [after_append, after_cons, take_player, hidle, herased]
  · obtain ⟨source, hsource⟩ :=
      Option.isSome_iff_exists.1 (Std.ExtTreeMap.mem_iff_isSome_getElem?.1 hlive')
    refine ⟨made_take hmade, hbody ▸ hgains.mem_bodies_iff.2 (.inl hlive'), ?_⟩
    exact Nat.lt_of_lt_of_eq hgroup (spawns_take hmade hsource).2.length_groups.symm

/-! ## A key that is held all the time -/

/-- A player that can fire two shots on every third frame. -/
def sentry : Player Binary64 where
  folder := "sentry"
  body := 0
  weapon := ⟨2, [⟨"left", .zero, .left, none, .components 0 0⟩,
    ⟨"right", .zero, .right, some 3, .components 0 0⟩], 0⟩
  speeds := ⟨0, 0⟩
  window := 0
  invincible := false

/-- A world with a group and the body of the player. -/
def post : World Binary64 :=
  (World.empty (.ofCorner 0 0 0 0)).applyAll [.createGroup ⟨.zero, .zero⟩,
    .create playerSprite .zero ⟨0, 0⟩]

/-- A turn in which the key is held. -/
def held : Turn Binary64 := ⟨.single .fire, post, 0, fun _ => ⟨0, 0⟩, false⟩

/-- Such turns fire, and then two of them do not. -/
theorem cadenceLaw_held :
    (sentry.weapon.cooldown = 0 ∧ held.world.Made ∧ sentry.body ∈ held.world.bodies ∧
      held.group < held.world.groups.length) ∧
    [[], [held], [held, held], [held, held, held]].map
      (fun past => (sentry.after past).fires held) = [true, false, false, true] ∧
    CadenceLaw sentry [held, held, held] held := by
  have hmade : held.world.Made := ⟨_, _, rfl⟩
  have hlive : sentry.body ∈ held.world.bodies := by decide +kernel
  have hgroup : held.group < held.world.groups.length := by decide
  exact ⟨⟨rfl, hmade, hlive, hgroup⟩, by decide +kernel,
    cadenceLaw_take rfl [held, held, held] hmade hlive hgroup⟩

end Player

end Barrage
