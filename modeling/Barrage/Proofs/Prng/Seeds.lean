import Mathlib.Logic.Function.Iterate
import Barrage.Prng

/-!
# The states that seeds lead to

A step of the generator turns words, moves them and puts them on top of each other. Each of these
can be undone, so a step has an inverse (`Prng.back`), and different states stay different however
many steps are made. The state of two zero words is a step after itself and after no other state.

The words of a fresh state are mixed from the seed, and nothing is lost by that: a word can be told
from what it makes with itself moved right (`Prng.xor_shiftRight_injective`), and the factors have
inverses modulo `2 ^ 64`. Since only zero is mixed to zero, the words of a fresh state are not both
zero, and the state that stands in for two zero words is never needed (`Prng.seeded_eq`). So it
cannot be taken for the state of another seed.
-/

namespace Barrage.Prng

/-! ## Steps can be undone -/

/-- A word that is turned left shows at each place the bit that was `n` places before. -/
theorem getLsbD_rotateLeft {n : UInt64} (hpos : 0 < n.toNat) (hlt : n.toNat < 64) (w : UInt64)
    {i : Nat} (hi : i < 64) : (rotateLeft w n).toBitVec.getLsbD i =
      w.toBitVec.getLsbD ((i + (64 - n.toNat)) % 64) := by
  have hrest : (64 - n).toNat = 64 - n.toNat :=
    UInt64.toNat_sub_of_le _ _ (UInt64.le_iff_toNat_le.2 (Nat.le_of_lt hlt))
  have hmod : n.toNat % 64 = n.toNat := Nat.mod_eq_of_lt hlt
  have hrest_mod : (64 - n.toNat) % 64 = 64 - n.toNat := Nat.mod_eq_of_lt (by omega)
  have hsize : BitVec.toNat (64 : BitVec 64) = 64 := rfl
  simp only [rotateLeft, UInt64.toBitVec_or, UInt64.toBitVec_shiftLeft, UInt64.toBitVec_shiftRight,
    BitVec.getLsbD_or, BitVec.shiftLeft_eq', BitVec.ushiftRight_eq', BitVec.getLsbD_shiftLeft,
    BitVec.getLsbD_ushiftRight, BitVec.toNat_umod, UInt64.toNat_toBitVec, hrest, hsize, hmod,
    hrest_mod]
  by_cases h : i < n.toNat
  · -- the bit comes from the other end
    have hplace : (i + (64 - n.toNat)) % 64 = 64 - n.toNat + i := by omega
    simp [h, hplace]
  · have hplace : (i + (64 - n.toNat)) % 64 = i - n.toNat := by omega
    have hout : 64 ≤ 64 - n.toNat + i := by omega
    simp [h, hi, hplace, BitVec.getLsbD_of_ge _ _ hout]

/-- Turned left by some places and then by the rest of the places, a word is the same again. -/
theorem rotateLeft_rotateLeft {n m : UInt64} (hn : 0 < n.toNat) (hm : 0 < m.toNat)
    (h : n.toNat + m.toNat = 64) (w : UInt64) : rotateLeft (rotateLeft w n) m = w := by
  apply UInt64.eq_of_toBitVec_eq
  apply BitVec.eq_of_getLsbD_eq
  intro i hi
  have hplace : (i + (64 - m.toNat)) % 64 < 64 := Nat.mod_lt _ (by omega)
  rw [getLsbD_rotateLeft hm (by omega) _ hi, getLsbD_rotateLeft hn (by omega) _ hplace]
  congr 1
  omega

/-- A word that is put on top of another one twice is gone. -/
theorem xor_xor_self (v w : UInt64) : v ^^^ w ^^^ w = v := by
  rw [UInt64.xor_assoc, UInt64.xor_self, UInt64.xor_zero]

/-- The state one step before: what the step put on is taken off in turn. -/
def back (g : Prng) : Prng :=
  let t := rotateLeft g.s1 27
  let s0 := rotateLeft (g.s0 ^^^ (t <<< 16) ^^^ t) 40
  ⟨s0, t ^^^ s0⟩

/-- A step is undone. -/
theorem back_step (g : Prng) : g.step.back = g := by
  have hfirst : rotateLeft (rotateLeft g.s0 24) 40 = g.s0 :=
    rotateLeft_rotateLeft (by decide) (by decide) rfl _
  have hsecond : rotateLeft (rotateLeft (g.s1 ^^^ g.s0) 37) 27 = g.s1 ^^^ g.s0 :=
    rotateLeft_rotateLeft (by decide) (by decide) rfl _
  simp only [step, back, hsecond, xor_xor_self, hfirst]

/-- A step undoes the way back. -/
theorem step_back (g : Prng) : g.back.step = g := by
  have hfirst : ∀ w, rotateLeft (rotateLeft w 40) 24 = w :=
    rotateLeft_rotateLeft (by decide) (by decide) rfl
  have hsecond : ∀ w, rotateLeft (rotateLeft w 27) 37 = w :=
    rotateLeft_rotateLeft (by decide) (by decide) rfl
  simp only [step, back, xor_xor_self, hfirst, hsecond]

/-- Every state comes from exactly one state. -/
theorem bijective_step : Function.Bijective step :=
  Function.bijective_iff_has_inverse.2 ⟨back, back_step, step_back⟩

/-- Two zero words are a step after themselves. -/
theorem iterate_step_zero (n : Nat) : step^[n] ⟨0, 0⟩ = ⟨0, 0⟩ :=
  Function.iterate_fixed rfl n

/-! ## Seeds are told apart by their states -/

/-- A word that does not change when it is moved right is zero. -/
theorem eq_zero_of_shiftRight_eq {k w : UInt64} (hpos : 0 < k.toNat) (hlt : k.toNat < 64)
    (h : w >>> k = w) : w = 0 := by
  have hw := congrArg UInt64.toNat h
  rw [UInt64.toNat_shiftRight, Nat.mod_eq_of_lt hlt, Nat.shiftRight_eq_div_pow] at hw
  have htwo : 1 < 2 ^ k.toNat := Nat.one_lt_two_pow (Nat.ne_of_gt hpos)
  rcases Nat.div_eq_self.1 hw with hzero | hone
  · exact UInt64.toNat_inj.1 hzero
  · omega

/-- A word can be told from what it makes with itself moved right. -/
theorem xor_shiftRight_injective {k : UInt64} (hpos : 0 < k.toNat) (hlt : k.toNat < 64) :
    Function.Injective fun w : UInt64 => w ^^^ (w >>> k) := by
  intro v w h
  dsimp only at h
  -- where the words differ, they differ one move further left as well
  have hdiff : (v ^^^ w) >>> k = v ^^^ w := by
    have hzero := UInt64.xor_eq_zero_iff.2 h
    rw [← UInt64.xor_eq_zero_iff, UInt64.shiftRight_xor, ← hzero]
    ac_rfl
  exact UInt64.xor_eq_zero_iff.1 (eq_zero_of_shiftRight_eq hpos hlt hdiff)

/-- A word can be told from its product by a word that has an inverse. -/
theorem mul_right_injective_of_mul_eq_one {c inverse : UInt64} (h : c * inverse = 1) :
    Function.Injective fun w : UInt64 => w * c := by
  intro v w hvw
  have hback := congrArg (· * inverse) hvw
  simpa only [UInt64.mul_assoc, h, UInt64.mul_one] using hback

/-- Different words are mixed to different words. -/
theorem mix_injective : Function.Injective mix := by
  have hmove₁ := xor_shiftRight_injective (k := 30) (by decide) (by decide)
  have hmove₂ := xor_shiftRight_injective (k := 27) (by decide) (by decide)
  have hmove₃ := xor_shiftRight_injective (k := 31) (by decide) (by decide)
  have hfactor₁ : Function.Injective fun w : UInt64 => w * 0xBF58476D1CE4E5B9 :=
    mul_right_injective_of_mul_eq_one (show _ * 0x96DE1B173F119089 = 1 from rfl)
  have hfactor₂ : Function.Injective fun w : UInt64 => w * 0x94D049BB133111EB :=
    mul_right_injective_of_mul_eq_one (show _ * 0x319642B2D24D8EC3 = 1 from rfl)
  exact hmove₃.comp (hfactor₂.comp (hmove₂.comp (hfactor₁.comp hmove₁)))

/-- Zero alone is mixed to zero. -/
theorem mix_eq_zero_iff {w : UInt64} : mix w = 0 ↔ w = 0 :=
  mix_injective.eq_iff' rfl

/-- The words that are mixed from a seed are never both zero. -/
theorem seeded_eq (seed : UInt64) :
    seeded seed = ⟨mix (seed + gamma), mix (seed + gamma + gamma)⟩ := by
  refine if_neg ?_
  rintro ⟨hfirst, hsecond⟩
  rw [mix_eq_zero_iff] at hfirst hsecond
  rw [hfirst, UInt64.zero_add] at hsecond
  exact absurd hsecond (by decide)

/-- No seed gives the state that never moves. -/
theorem seeded_ne_zero (seed : UInt64) : seeded seed ≠ ⟨0, 0⟩ := by
  rw [seeded]
  split
  · decide
  · next hzero =>
    intro h
    injection h with hfirst hsecond
    exact hzero ⟨hfirst, hsecond⟩

/-- Different seeds give different states. -/
theorem seeded_injective : Function.Injective seeded := by
  intro seed other h
  rw [seeded_eq, seeded_eq] at h
  injection h with hfirst _
  exact (UInt64.add_left_inj gamma).1 (mix_injective hfirst)

/-- No step loses a state or leaves one out. Whatever the seed and however many steps are made from
it, the state is not the one that repeats itself for ever, and no other seed leads to it by as many
steps. -/
theorem iterate_step_seeded : Function.Bijective step ∧
    (∀ seed n, step^[n] (seeded seed) ≠ ⟨0, 0⟩) ∧
    ∀ seed other n, seed ≠ other → step^[n] (seeded seed) ≠ step^[n] (seeded other) := by
  have hiterate : ∀ n, Function.Injective step^[n] := bijective_step.injective.iterate
  refine ⟨bijective_step, ?_, ?_⟩
  · intro seed n hzero
    rw [← iterate_step_zero n] at hzero
    exact seeded_ne_zero seed (hiterate n hzero)
  · intro seed other n hne h
    exact hne (seeded_injective (hiterate n h))

/-- Of two seeds, each of which has a word that is mixed from zero. -/
theorem iterate_step_gamma :
    ((seeded (0 - gamma)).s0, (seeded (0 - gamma - gamma)).s1) = (0, 0) ∧
      0 - gamma ≠ 0 - gamma - gamma ∧
      step^[1000] (seeded (0 - gamma)) ≠ step^[1000] (seeded (0 - gamma - gamma)) := by
  have hne : 0 - gamma ≠ 0 - gamma - gamma := by decide
  exact ⟨by decide, hne, iterate_step_seeded.2.2 _ _ 1000 hne⟩

end Barrage.Prng
