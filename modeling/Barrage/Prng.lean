/-!
# Random numbers that can be repeated

A generator of 64-bit words with two words of state. The state is set up from a seed by two rounds
of a mixing function and stepped by exclusive or, rotation and shift, so a fight that draws all its
random numbers here runs the same way again from the same seed. All arithmetic is modulo `2 ^ 64`.
-/

namespace Barrage

/-- State of the generator. -/
structure Prng where
  s0 : UInt64
  s1 : UInt64
  deriving DecidableEq

namespace Prng

/-- The odd constant that separates the mixed words of a seed. -/
def gamma : UInt64 := 0x9E3779B97F4A7C15

/-- Spreads the bits of a word over the whole word. -/
def mix (w : UInt64) : UInt64 :=
  let w := (w ^^^ (w >>> 30)) * 0xBF58476D1CE4E5B9
  let w := (w ^^^ (w >>> 27)) * 0x94D049BB133111EB
  w ^^^ (w >>> 31)

/-- A generator for a seed. The state of two zero words, which would repeat itself for ever, is
replaced. -/
def seeded (seed : UInt64) : Prng :=
  let s0 := mix (seed + gamma)
  let s1 := mix (seed + gamma + gamma)
  if s0 = 0 ∧ s1 = 0 then ⟨1, 1⟩ else ⟨s0, s1⟩

/-- A word turned left by `n` places. -/
def rotateLeft (w n : UInt64) : UInt64 := (w <<< n) ||| (w >>> (64 - n))

/-- The state after one step. -/
def step (g : Prng) : Prng :=
  let t := g.s1 ^^^ g.s0
  ⟨rotateLeft g.s0 24 ^^^ t ^^^ (t <<< 16), rotateLeft t 37⟩

/-- The word that a state stands for: the sum of its two words. -/
def word (g : Prng) : UInt64 := g.s0 + g.s1

/-- The next word and the state after it. -/
def next (g : Prng) : UInt64 × Prng := (g.word, g.step)

/-- How many integers lie between two bounds, both included, but at most `2 ^ 64 - 1`. -/
def spanOf (lo hi : Int64) : UInt64 :=
  let distance := hi.toUInt64 - lo.toUInt64
  if distance = 0xFFFFFFFFFFFFFFFF then distance else distance + 1

/-- An integer between two bounds, both included. Bounds that leave no choice draw no word. -/
def between (g : Prng) (lo hi : Int64) : Int64 × Prng :=
  if hi ≤ lo then (lo, g)
  else (lo + (g.word % spanOf lo hi).toInt64, g.step)

end Prng

end Barrage
