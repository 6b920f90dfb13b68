import Mathlib.Algebra.Order.Ring.Int
import Barrage.Prng

/-!
# Integers drawn between two bounds

The generator takes the distance of the bounds, the remainder of its next word and their sum in
words of 64 bits, where each of the three may pass the end of the signed or of the unsigned numbers.
The sum comes out right all the same (`Prng.toInt_between`): it is the lower bound and the remainder
of the word by the number of integers between the bounds, which is one short where all words would
be needed. So the integer is one of them (`Prng.between_mem`).

Every word is the next one of some generator, so each integer between the bounds is drawn by one
(`Prng.exists_between_eq`). Where the number of integers is one short, the upper bound is the one
that no generator draws (`Prng.between_ne_of_full`).
-/

namespace Barrage.Prng

section
variable {lo hi : Int64}

/-- The value of a signed word, by the unsigned one with the same bits. -/
theorem toInt_eq_toNat (x : Int64) : x.toInt =
    if x.toUInt64.toNat < 2 ^ 63 then (x.toUInt64.toNat : Int) else x.toUInt64.toNat - 2 ^ 64 := by
  have hbits : x.toInt = if 2 * x.toUInt64.toNat < 2 ^ 64 then (x.toUInt64.toNat : Int)
      else x.toUInt64.toNat - (2 ^ 64 : Nat) := BitVec.toInt_eq_toNat_cond x.toBitVec
  rw [hbits]
  split <;> split <;> omega

/-- The difference of two bounds does not wrap. -/
theorem toNat_sub_toUInt64 (h : lo ≤ hi) :
    ((hi.toUInt64 - lo.toUInt64).toNat : Int) = hi.toInt - lo.toInt := by
  have hle : lo.toInt ≤ hi.toInt := Int64.le_iff_toInt_le.1 h
  have hlo := toInt_eq_toNat lo
  have hhi := toInt_eq_toNat hi
  have hlo_lt := lo.toUInt64.toNat_lt
  have hhi_lt := hi.toUInt64.toNat_lt
  rw [UInt64.toNat_sub]
  split at hlo <;> split at hhi <;> omega

/-- The number of integers between two bounds, but one less than all words at most. -/
theorem toNat_spanOf (h : lo ≤ hi) :
    (spanOf lo hi).toNat = min (hi.toInt - lo.toInt + 1).toNat (2 ^ 64 - 1) := by
  have hdistance := toNat_sub_toUInt64 h
  have hlt := (hi.toUInt64 - lo.toUInt64).toNat_lt
  rw [spanOf]
  split
  · next hfull =>
    rw [hfull] at hdistance ⊢
    have hnat : (0xFFFFFFFFFFFFFFFF : UInt64).toNat = 2 ^ 64 - 1 := rfl
    omega
  · next hnot =>
    have hless : (hi.toUInt64 - lo.toUInt64).toNat ≠ 2 ^ 64 - 1 := fun hnat =>
      hnot (UInt64.toNat_inj.1 hnat)
    rw [UInt64.toNat_add]
    have hone : (1 : UInt64).toNat = 1 := rfl
    omega

/-- Between two bounds there is an integer at least, however far they are apart. -/
theorem spanOf_ne_zero (lo hi : Int64) : spanOf lo hi ≠ 0 := by
  rw [spanOf]
  split
  · next hfull =>
    rw [hfull]
    decide
  · next hnot =>
    intro hzero
    have hless := congrArg (· - 1) hzero
    simp only [UInt64.add_sub_cancel] at hless
    exact hnot hless

/-- A sum that stays among the signed words does not wrap, though the second number may be too large
for one. -/
theorem toInt_add_toInt64 {n : UInt64} (h : lo.toInt + n.toNat < 2 ^ 63) :
    (lo + n.toInt64).toInt = lo.toInt + n.toNat := by
  have hn : n.toInt64.toInt = if n.toNat < 2 ^ 63 then (n.toNat : Int) else n.toNat - 2 ^ 64 := by
    rw [toInt_eq_toNat]
    rfl
  have hlo := lo.le_toInt
  have hlt := n.toNat_lt
  rw [Int64.toInt_add, hn, Int.bmod_def]
  split <;> split <;> omega

/-- Bounds that leave no choice draw no word. -/
theorem between_of_le (h : hi ≤ lo) (g : Prng) : g.between lo hi = (lo, g) := if_pos h

/-- The integer that a generator gives between two bounds. -/
theorem toInt_between (h : lo ≤ hi) (g : Prng) : (g.between lo hi).1.toInt =
    lo.toInt + (g.word.toNat % min (hi.toInt - lo.toInt + 1).toNat (2 ^ 64 - 1) : Nat) := by
  have hle : lo.toInt ≤ hi.toInt := Int64.le_iff_toInt_le.1 h
  rw [between]
  split
  · next hsame =>
    have hone : min (hi.toInt - lo.toInt + 1).toNat (2 ^ 64 - 1) = 1 := by
      rw [Int64.le_iff_toInt_le] at hsame
      omega
    rw [hone, Nat.mod_one]
    simp
  · next hless =>
    have hspan := toNat_spanOf h
    have hpos : 0 < (spanOf lo hi).toNat := by omega
    have hmod := Nat.mod_lt g.word.toNat hpos
    have hhi := hi.toInt_lt
    have hrest : (g.word % spanOf lo hi).toNat = g.word.toNat % (spanOf lo hi).toNat :=
      UInt64.toNat_mod ..
    dsimp only
    rw [toInt_add_toInt64, hrest, hspan]
    omega

/-- A number that is drawn lies between its bounds. -/
theorem between_mem (h : lo ≤ hi) (g : Prng) :
    lo.toInt ≤ (g.between lo hi).1.toInt ∧ (g.between lo hi).1.toInt ≤ hi.toInt := by
  have hle : lo.toInt ≤ hi.toInt := Int64.le_iff_toInt_le.1 h
  have hpos : 0 < min (hi.toInt - lo.toInt + 1).toNat (2 ^ 64 - 1) := by omega
  have hmod := Nat.mod_lt g.word.toNat hpos
  rw [toInt_between h]
  omega

/-- Any word is the next one of some generator, and of one that is not stuck. -/
theorem exists_word_eq (w : UInt64) : ∃ g : Prng, g ≠ ⟨0, 0⟩ ∧ g.word = w := by
  refine ⟨⟨w - 1, 1⟩, ?_, UInt64.sub_add_cancel w 1⟩
  intro h
  injection h with _ hone
  exact absurd hone (by decide)

/-- An integer between two bounds is drawn by a generator, unless all words would be needed. -/
theorem exists_between_eq (hlt : lo < hi) (hspan : hi.toInt - lo.toInt < 2 ^ 64 - 1) {v : Int64}
    (hlo : lo ≤ v) (hhi : v ≤ hi) : ∃ g : Prng, g ≠ ⟨0, 0⟩ ∧ (g.between lo hi).1 = v := by
  obtain ⟨g, hg, hword⟩ := exists_word_eq (v.toUInt64 - lo.toUInt64)
  refine ⟨g, hg, Int64.toInt_inj.1 ?_⟩
  have hoffset := toNat_sub_toUInt64 hlo
  rw [← hword] at hoffset
  have hv : v.toInt ≤ hi.toInt := Int64.le_iff_toInt_le.1 hhi
  rw [toInt_between (Int64.le_of_lt hlt), Nat.mod_eq_of_lt (by omega)]
  omega

/-- Where all words would be needed, the upper bound is never drawn. -/
theorem between_ne_of_full (hfull : hi.toInt - lo.toInt = 2 ^ 64 - 1) (g : Prng) :
    (g.between lo hi).1 ≠ hi := by
  intro h
  have hle : lo ≤ hi := Int64.le_iff_toInt_le.2 (by omega)
  have hvalue := toInt_between hle g
  have hspan : min (hi.toInt - lo.toInt + 1).toNat (2 ^ 64 - 1) = 2 ^ 64 - 1 := by omega
  rw [h, hspan] at hvalue
  have hmod := Nat.mod_lt g.word.toNat (by decide : 2 ^ 64 - 1 > 0)
  omega

end

/-- How integers are drawn between two bounds. -/
structure DrawLaw (lo hi : Int64) : Prop where
  /-- What is drawn lies between bounds that are in order. -/
  mem : lo ≤ hi → ∀ g : Prng, lo ≤ (g.between lo hi).1 ∧ (g.between lo hi).1 ≤ hi
  /-- It is the lower bound and a remainder of the next word, as integers that do not wrap. -/
  toInt_eq : lo ≤ hi → ∀ g : Prng, (g.between lo hi).1.toInt =
    lo.toInt + (g.word.toNat % min (hi.toInt - lo.toInt + 1).toNat (2 ^ 64 - 1) : Nat)
  /-- The next word is used up. -/
  moves : lo < hi → ∀ g : Prng, (g.between lo hi).2 = g.step
  /-- Bounds that leave no choice give the first of them and use up no word. -/
  still : hi ≤ lo → ∀ g : Prng, g.between lo hi = (lo, g)
  /-- The remainder is never one of a division by zero. -/
  span_ne_zero : spanOf lo hi ≠ 0
  /-- Unless all words would be needed, every integer between the bounds is drawn by a generator
  that is not stuck. -/
  reached : lo < hi → hi.toInt - lo.toInt < 2 ^ 64 - 1 → ∀ v, lo ≤ v → v ≤ hi →
    ∃ g : Prng, g ≠ ⟨0, 0⟩ ∧ (g.between lo hi).1 = v
  /-- Where they would be, the upper bound is not drawn. -/
  missed : hi.toInt - lo.toInt = 2 ^ 64 - 1 → ∀ g : Prng, (g.between lo hi).1 ≠ hi

/-- The integers that are drawn are those between the bounds, wherever among the signed words the
bounds are. -/
theorem drawLaw_between (lo hi : Int64) : DrawLaw lo hi where
  mem h g := by
    simp only [Int64.le_iff_toInt_le]
    exact between_mem h g
  toInt_eq h g := toInt_between h g
  moves h g := by
    rw [between, if_neg (Int64.not_le.2 h)]
  still h g := between_of_le h g
  span_ne_zero := spanOf_ne_zero lo hi
  reached hlt hspan v hlo hhi := exists_between_eq hlt hspan hlo hhi
  missed hfull g := between_ne_of_full hfull g

/-- The widest bounds between which every integer is drawn reach from one end of the signed words
almost to the other; with the last word between them too, that one is not. -/
theorem drawLaw_widest :
    let g : Prng := ⟨0xFFFFFFFFFFFFFFFD, 1⟩
    (g.between Int64.minValue (Int64.maxValue - 1)).1 = Int64.maxValue - 1 ∧
      (g.step.between Int64.maxValue Int64.minValue) = (Int64.maxValue, g.step) ∧
      (∃ g : Prng, g ≠ ⟨0, 0⟩ ∧
        (g.between Int64.minValue (Int64.maxValue - 1)).1 = Int64.maxValue - 1) ∧
      (g.between Int64.minValue Int64.maxValue).1 ≠ Int64.maxValue := by
  intro g
  refine ⟨by decide, (drawLaw_between _ _).still (by decide) _, ?_,
    (drawLaw_between _ _).missed (by decide) g⟩
  exact (drawLaw_between _ _).reached (by decide) (by decide) _ (by decide) (by decide)

end Barrage.Prng
