import Barrage.Fight.Fingerprint
import Barrage.Proofs.Digest.Encoding
import Barrage.Proofs.Fight.Bounds
import Barrage.Proofs.Fight.Integrity

/-!
# What a fingerprint stands for

The bytes that are hashed for a fight are those of its print (`FightPrint`): what they tell of the
fight, with numbers by their bit patterns. A print can be told from its bytes
(`FightPrint.delimited`) if its numbers fit their width, and if no body and no routine is missing,
since nothing marks the places of those that are.

In a fight that a run can come to, nothing is missing and all numbers fit (`Fight.fits_print`), so
the bytes are equal only for fights of equal prints (`Fight.run_encoding`). What is hashed does not
confuse two fights; only the hash itself could.
-/

namespace Barrage

open Encoding

/-! ## Prints -/

/-- The bytes of two bit patterns. -/
def Encoding.patterns (bits : UInt64 × UInt64) : List UInt8 :=
  word64 bits.1.toNat ++ word64 bits.2.toNat

/-- What is told of the player's body: the bit patterns of its vectors. -/
@[ext]
structure BodyPrint where
  position : UInt64 × UInt64
  velocity : UInt64 × UInt64
  deriving DecidableEq

/-- What is told of an enemy's body. -/
@[ext]
structure EnemyBodyPrint extends BodyPrint where
  acceleration : UInt64 × UInt64
  deriving DecidableEq

/-- What is told of a routine in progress. -/
@[ext]
structure RoutinePrint where
  name : String
  time : Nat
  /-- Hit points left, or zero if it has none. -/
  hitPoints : Nat
  deriving DecidableEq

/-- What is told of an enemy. -/
@[ext]
structure EnemyPrint where
  body : BodyId
  image : String
  /-- Its body, if it is live. -/
  motion : Option EnemyBodyPrint
  /-- The place of its current routine. -/
  cursor : Nat
  /-- The current routine, if there is one. -/
  routine : Option RoutinePrint
  deriving DecidableEq

/-- What is told of a fight. -/
@[ext]
structure FightPrint where
  frame : Nat
  seed : Nat
  /-- The state of the random numbers. -/
  words : UInt64 × UInt64
  lives : Int
  energy : Nat
  /-- The player's body, if it is live. -/
  player : Option BodyPrint
  invincible : Bool
  cooldown : Nat
  /-- The enemies, in order. -/
  enemies : List EnemyPrint
  /-- Numbers of the player's and of the enemies' bullets. -/
  bulletCounts : Nat × Nat
  deriving DecidableEq

/-- The bytes of a body. -/
def BodyPrint.encoding (p : BodyPrint) : List UInt8 := patterns p.position ++ patterns p.velocity

/-- The bytes of an enemy's body. -/
def EnemyBodyPrint.encoding (p : EnemyBodyPrint) : List UInt8 :=
  p.toBodyPrint.encoding ++ patterns p.acceleration

/-- The bytes of a routine. -/
def RoutinePrint.encoding (p : RoutinePrint) : List UInt8 :=
  text p.name ++ word32 p.time ++ word32 p.hitPoints

/-- The bytes of an enemy. -/
def EnemyPrint.encoding (p : EnemyPrint) : List UInt8 :=
  word32 p.body ++ text p.image ++ (p.motion.map EnemyBodyPrint.encoding).getD [] ++
    word32 p.cursor ++ (p.routine.map RoutinePrint.encoding).getD []

/-- The bytes of a fight. -/
def FightPrint.encoding (p : FightPrint) : List UInt8 :=
  fightHeader p.frame p.seed ++ (patterns p.words ++ int32 p.lives ++ word32 p.energy ++
    (p.player.map BodyPrint.encoding).getD [] ++ flag p.invincible ++ word32 p.cooldown ++
    word32 p.enemies.length ++ p.enemies.flatMap EnemyPrint.encoding ++
    word32 p.bulletCounts.1 ++ word32 p.bulletCounts.2)

/-! ## Prints that can be told from their bytes -/

/-- The numbers of a routine fit, and its name can be written. -/
structure RoutinePrint.Fits (p : RoutinePrint) : Prop where
  name_lt : p.name.utf8ByteSize < 0x100000000
  time_lt : p.time < 0x100000000
  hitPoints_lt : p.hitPoints < 0x100000000

/-- Nothing is missing of an enemy, and its numbers fit. -/
structure EnemyPrint.Fits (p : EnemyPrint) : Prop where
  body_lt : p.body < 0x100000000
  image_lt : p.image.utf8ByteSize < 0x100000000
  motion : ∃ m, p.motion = some m
  cursor_lt : p.cursor < 0x100000000
  routine : ∃ r, p.routine = some r ∧ r.Fits

/-- Nothing is missing of a fight, and its numbers fit. -/
structure FightPrint.Fits (p : FightPrint) : Prop where
  frame_lt : p.frame < 0x100000000
  seed_lt : p.seed < 0x10000000000000000
  lives_mem : -0x80000000 ≤ p.lives ∧ p.lives < 0x80000000
  energy_lt : p.energy < 0x100000000
  player : ∃ b, p.player = some b
  cooldown_lt : p.cooldown < 0x100000000
  length_lt : p.enemies.length < 0x100000000
  enemies : ∀ e ∈ p.enemies, e.Fits
  playerBullets_lt : p.bulletCounts.1 < 0x100000000
  enemyBullets_lt : p.bulletCounts.2 < 0x100000000

/-- Vectors can be told from the bit patterns of their components. -/
theorem Encoding.delimited_patterns : Delimited patterns fun _ => True where
  split _ _ h :=
    (delimited_uint64.prod delimited_uint64).split ⟨trivial, trivial⟩ ⟨trivial, trivial⟩ h

/-- The print of a body can be told from its bytes. -/
theorem BodyPrint.delimited : Delimited encoding fun _ => True where
  split {p q _ _} _ _ h := by
    rw [encoding, encoding, List.append_assoc, List.append_assoc] at h
    obtain ⟨hposition, h⟩ := delimited_patterns.split trivial trivial h
    obtain ⟨hvelocity, hrest⟩ := delimited_patterns.split trivial trivial h
    exact ⟨BodyPrint.ext hposition hvelocity, hrest⟩

/-- The print of an enemy's body can be told from its bytes. -/
theorem EnemyBodyPrint.delimited : Delimited encoding fun _ => True where
  split {p q _ _} _ _ h := by
    rw [encoding, encoding, List.append_assoc, List.append_assoc] at h
    obtain ⟨hbody, h⟩ := BodyPrint.delimited.split trivial trivial h
    obtain ⟨hacceleration, hrest⟩ := delimited_patterns.split trivial trivial h
    rw [BodyPrint.ext_iff] at hbody
    exact ⟨EnemyBodyPrint.ext hbody.1 hbody.2 hacceleration, hrest⟩

/-- The print of a routine whose numbers fit can be told from its bytes. -/
theorem RoutinePrint.delimited : Delimited encoding RoutinePrint.Fits where
  split {p q _ _} hp hq h := by
    simp only [encoding, List.append_assoc] at h
    obtain ⟨hname, h⟩ := delimited_text.split hp.name_lt hq.name_lt h
    obtain ⟨htime, h⟩ := delimited_word32.split hp.time_lt hq.time_lt h
    obtain ⟨hpoints, hrest⟩ := delimited_word32.split hp.hitPoints_lt hq.hitPoints_lt h
    exact ⟨RoutinePrint.ext hname htime hpoints, hrest⟩

/-- The print of an enemy whose numbers fit can be told from its bytes. -/
theorem EnemyPrint.delimited : Delimited encoding EnemyPrint.Fits where
  split {p q _ _} hp hq h := by
    have hthere : ∀ {r : EnemyPrint}, r.Fits → ∃ m, r.motion = some m ∧ True := fun hr =>
      hr.motion.imp fun _ hm => ⟨hm, trivial⟩
    simp only [encoding, List.append_assoc] at h
    obtain ⟨hbody, h⟩ := delimited_word32.split hp.body_lt hq.body_lt h
    obtain ⟨himage, h⟩ := delimited_text.split hp.image_lt hq.image_lt h
    obtain ⟨hmotion, h⟩ := EnemyBodyPrint.delimited.option.split (hthere hp) (hthere hq) h
    obtain ⟨hcursor, h⟩ := delimited_word32.split hp.cursor_lt hq.cursor_lt h
    obtain ⟨hroutine, hrest⟩ := RoutinePrint.delimited.option.split hp.routine hq.routine h
    exact ⟨EnemyPrint.ext hbody himage hmotion hcursor hroutine, hrest⟩

/-- The number of the enemies stands in front of them, and that of the bullets behind. -/
theorem FightPrint.delimited : Delimited encoding FightPrint.Fits where
  split {p q _ _} hp hq h := by
    have hthere : ∀ {r : FightPrint}, r.Fits → ∃ b, r.player = some b ∧ True := fun hr =>
      hr.player.imp fun _ hb => ⟨hb, trivial⟩
    simp only [encoding, fightHeader, List.append_assoc] at h
    have h := List.append_cancel_left h
    obtain ⟨hframe, h⟩ := delimited_word32.split hp.frame_lt hq.frame_lt h
    obtain ⟨hseed, h⟩ := delimited_word64.split hp.seed_lt hq.seed_lt h
    obtain ⟨hwords, h⟩ := delimited_patterns.split trivial trivial h
    obtain ⟨hlives, h⟩ := delimited_int32.split hp.lives_mem hq.lives_mem h
    obtain ⟨henergy, h⟩ := delimited_word32.split hp.energy_lt hq.energy_lt h
    obtain ⟨hplayer, h⟩ := BodyPrint.delimited.option.split (hthere hp) (hthere hq) h
    obtain ⟨hinvincible, h⟩ := delimited_flag.split trivial trivial h
    obtain ⟨hcooldown, h⟩ := delimited_word32.split hp.cooldown_lt hq.cooldown_lt h
    obtain ⟨hlength, h⟩ := delimited_word32.split hp.length_lt hq.length_lt h
    obtain ⟨henemies, h⟩ := EnemyPrint.delimited.list_split hp.enemies hq.enemies hlength h
    obtain ⟨hfirst, h⟩ := delimited_word32.split hp.playerBullets_lt hq.playerBullets_lt h
    obtain ⟨hsecond, hrest⟩ := delimited_word32.split hp.enemyBullets_lt hq.enemyBullets_lt h
    exact ⟨FightPrint.ext hframe hseed hwords hlives henergy hplayer hinvincible hcooldown henemies
      (Prod.ext hfirst hsecond), hrest⟩

/-! ## The print of a fight -/

section
variable {K : Type} [Scalar K]

/-- The bit patterns of a vector. -/
def Vec.bits (v : Vec K) : UInt64 × UInt64 := (Scalar.bits v.x, Scalar.bits v.y)

/-- The print of a body. -/
def Body.print (b : Body K) : BodyPrint := ⟨b.position.bits, b.velocity.bits⟩

/-- The print of a routine in progress. -/
def Routine.print (r : Routine K) : RoutinePrint :=
  ⟨r.name, r.time, (r.hitPoints.map HitPoints.current).getD 0⟩

omit [Scalar K] in
/-- The print of a routine whose numbers fit. -/
theorem Routine.fits_print {r : Routine K} (h : r.Fits)
    (hname : r.name.utf8ByteSize < 0x100000000) : r.print.Fits := by
  refine ⟨hname, h.time_lt, ?_⟩
  rw [print]
  cases hpoints : r.hitPoints with
  | none => exact Nat.zero_lt_succ _
  | some hp => exact h.current_lt hp hpoints

/-- The print of an enemy in a world. -/
def Enemy.print (w : World K) (e : Enemy K) : EnemyPrint where
  body := e.body
  image := e.image
  motion := w.bodies[e.body]?.map fun b => ⟨b.print, b.acceleration.bits⟩
  cursor := e.sequence.cursor
  routine := e.sequence.current?.map Routine.print

end

variable {K : Type}

/-- The texts of an enemy, and the place of its routine, can be written. -/
structure Enemy.Writable (e : Enemy K) : Prop where
  image_lt : e.image.utf8ByteSize < 0x100000000
  cursor_lt : e.sequence.cursor < 0x100000000
  name_lt : ∀ r ∈ e.sequence.current?, r.name.utf8ByteSize < 0x100000000

instance (e : Enemy K) : Decidable e.Writable :=
  decidable_of_iff (e.image.utf8ByteSize < 0x100000000 ∧ e.sequence.cursor < 0x100000000 ∧
      ∀ r ∈ e.sequence.current?, r.name.utf8ByteSize < 0x100000000)
    ⟨fun h => ⟨h.1, h.2.1, h.2.2⟩, fun h => ⟨h.image_lt, h.cursor_lt, h.name_lt⟩⟩

namespace Fight

/-- The seed of a fight can be written, and so can its enemies. -/
structure Writable (f : Fight K) : Prop where
  seed_lt : f.settings.seed < 0x10000000000000000
  enemies : ∀ e ∈ f.enemies, e.Writable

instance (f : Fight K) : Decidable f.Writable :=
  decidable_of_iff (f.settings.seed < 0x10000000000000000 ∧ ∀ e ∈ f.enemies, e.Writable)
    ⟨fun h => ⟨h.1, h.2⟩, fun h => ⟨h.seed_lt, h.enemies⟩⟩

variable [Scalar K]

/-- The print of a fight. -/
def print (f : Fight K) : FightPrint where
  frame := f.frame
  seed := f.settings.seed
  words := (f.rng.s0, f.rng.s1)
  lives := f.status.lives
  energy := f.status.energy
  player := f.world.bodies[f.player.body]?.map Body.print
  invincible := f.player.invincible
  cooldown := f.player.weapon.cooldown
  enemies := f.enemies.map (Enemy.print f.world)
  bulletCounts := f.bulletCounts

/-- The bytes of a fight are those of its print. -/
theorem encoding_print (f : Fight K) : f.print.encoding = f.encoding := by
  have henemy : ∀ e : Enemy K, (e.print f.world).encoding = e.encoding f.world := by
    intro e
    rw [EnemyPrint.encoding, Enemy.print, Option.map_map, Option.map_map]
    rfl
  rw [FightPrint.encoding, print, Option.map_map, List.length_map, List.flatMap_map]
  simp only [henemy]
  rfl

variable {f g g' : Fight K}

/-- Nothing is missing from the print of an enemy in a fight, and its numbers fit. -/
theorem fits_enemyPrint (hstaffed : f.Staffed) (hbounded : f.Bounded) (hsettled : f.Settled)
    (hwritable : f.Writable) {e : Enemy K} (he : e ∈ f.enemies) : (e.print f.world).Fits := by
  have hlive : e.body ∈ f.world.bodies :=
    World.Staffed.enemy_mem_bodies hstaffed (List.mem_map_of_mem he)
  have hlt := (World.Staffed.enrolled hstaffed).lt_nextBody hlive
  obtain ⟨r, hr⟩ := hsettled.exists_current e he
  have hfits := hbounded.enemies e he r (List.mem_of_getElem? hr)
  refine ⟨Nat.lt_trans hlt hsettled.nextBody_lt, (hwritable.enemies e he).image_lt, ?_,
    (hwritable.enemies e he).cursor_lt, r.print, ?_,
    Routine.fits_print hfits ((hwritable.enemies e he).name_lt r hr)⟩
  · obtain ⟨b, hb⟩ := Option.isSome_iff_exists.1 (Std.ExtTreeMap.mem_iff_isSome_getElem?.1 hlive)
    rw [Enemy.print, hb]
    exact ⟨_, rfl⟩
  · rw [Enemy.print, hr]
    rfl

/-- Nothing is missing from the print of a fight, and its numbers fit. -/
theorem fits_print (hstaffed : f.Staffed) (hbounded : f.Bounded) (hsettled : f.Settled)
    (hwritable : f.Writable) : f.print.Fits := by
  have hcount : ∀ group, (f.world.members group).length < 0x100000000 := fun group =>
    Nat.lt_of_le_of_lt ((World.Staffed.enrolled hstaffed).length_members_le group)
      hsettled.nextBody_lt
  have hlives := hbounded.status.lives_nonneg
  refine ⟨hsettled.frame_lt, hwritable.seed_lt, ⟨Int.le_trans (by decide) hlives,
    hbounded.status.lives_lt⟩, ?_, ?_, hbounded.weapon.cooldown_lt, ?_, ?_, hcount _, hcount _⟩
  · exact Nat.lt_of_le_of_lt hbounded.status.energy_le hbounded.status.required_lt
  · obtain ⟨b, hb⟩ := Option.isSome_iff_exists.1 (Std.ExtTreeMap.mem_iff_isSome_getElem?.1
      (World.Staffed.player_mem_bodies hstaffed))
    rw [print, hb]
    exact ⟨_, rfl⟩
  · have henemies := hcount enemyGroup
    rwa [World.Staffed.members_enemies hstaffed, enemyBodies, List.length_map, ← List.length_map]
      at henemies
  · intro p hp
    obtain ⟨e, he, rfl⟩ := List.mem_map.1 hp
    exact fits_enemyPrint hstaffed hbounded hsettled hwritable he

/-- Nothing is missing from the print of a fight that a run can come to. -/
theorem fits_print_of_run {assets : Assets K} {settings : Settings K}
    (hstart : start assets settings = .ok f) {calls : List Call} {reports : List TickReport}
    (hrun : f.run calls = .ok (g, reports)) (hg : g.Writable) : g.print.Fits :=
  fits_print (keptByPhases_staffed.run hrun (staffed_of_start hstart))
    (keptByPhases_bounded.run hrun (bounded_of_start hstart))
    (chronicle_settled.run_start hrun (settled_of_start hstart)) hg

/-- Two fights that runs can come to, whatever they were set up from, give the same bytes if and
only if they have the same print. -/
theorem run_encoding {assets assets' : Assets K} {settings settings' : Settings K}
    {f f' : Fight K} (hstart : start assets settings = .ok f)
    (hstart' : start assets' settings' = .ok f') {calls calls' : List Call}
    {reports reports' : List TickReport} (hrun : f.run calls = .ok (g, reports))
    (hrun' : f'.run calls' = .ok (g', reports')) (hg : g.Writable) (hg' : g'.Writable) :
    g.encoding = g'.encoding ↔ g.print = g'.print := by
  have hfits := fits_print_of_run hstart hrun hg
  have hfits' := fits_print_of_run hstart' hrun' hg'
  rw [← encoding_print, ← encoding_print]
  constructor
  · intro h
    exact (FightPrint.delimited.split (a := []) (b := []) hfits hfits'
      (congrArg (· ++ []) h)).1
  · exact congrArg FightPrint.encoding

end Fight

/-- In the duel a pause leaves no trace in the bytes. -/
theorem Duel.run_encoding_pause : ∃ f g g' reports reports',
    Fight.start assets settings = .ok f ∧
    f.run [.tick (.ofList [.fire])] = .ok (g, reports) ∧
    f.run [.tick (.ofList [.fire]), .tick (.ofList [.fire, .pause]), .resume] =
      .ok (g', reports') ∧
    (g.Writable ∧ g'.Writable) ∧ (g.frame, g.enemyBodies, g.bulletCounts) = (1, [2], (1, 2)) ∧
    g.encoding = g'.encoding := by
  have hrun : ((Fight.start assets settings).toOption.bind fun f =>
      (f.run [.tick (.ofList [.fire])]).toOption.bind fun r =>
        (f.run [.tick (.ofList [.fire]), .tick (.ofList [.fire, .pause]), .resume]).toOption.map
          fun r' => (decide (r.1.Writable ∧ r'.1.Writable ∧ r.1.print = r'.1.print),
            (r.1.frame, r.1.enemyBodies, r.1.bulletCounts))) =
      some (true, (1, [2], (1, 2))) := by
    decide +kernel
  obtain ⟨f, hstart, hrun⟩ := toOption_bind_eq_some_iff.1 hrun
  obtain ⟨⟨g, reports⟩, hfirst, hrun⟩ := toOption_bind_eq_some_iff.1 hrun
  obtain ⟨⟨g', reports'⟩, hsecond, hsame⟩ := toOption_map_eq_some_iff.1 hrun
  rw [Prod.mk.injEq, decide_eq_true_eq] at hsame
  obtain ⟨⟨hg, hg', hprint⟩, hbodies⟩ := hsame
  exact ⟨f, g, g', reports, reports', hstart, hfirst, hsecond, ⟨hg, hg'⟩, hbodies,
    (Fight.run_encoding hstart hstart hfirst hsecond hg hg').2 hprint⟩

end Barrage
