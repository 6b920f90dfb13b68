import Barrage.Number.Rounding
import Barrage.Number.Scalar

/-!
# Numerals

A numeral is a number as it is written: a sign, decimal digits with a point among them, and an
exponent. `Numeral.scaled?` reads one as a scalar. It gathers the digits in a word of sixty-four
bits, as far as they fit, and multiplies or divides the word by a power of ten. The word, the power
and the result are each rounded, so the scalar is close to the number written, and is that number
where the digits fit and the scalars compute exactly.
-/

namespace Barrage

/-- The value of a decimal digit. -/
def digitValue (c : Char) : Nat := c.toNat - '0'.toNat

/-- The number that a list of decimal digits stands for. -/
def digitsValue (digits : List Char) : Nat :=
  digits.foldl (fun n c => 10 * n + digitValue c) 0

/-- A number as it is written. -/
structure Numeral where
  /-- Whether a minus sign stands in front. -/
  negative : Bool
  /-- The digits in front of the point. -/
  whole : List Char
  /-- The digits behind the point, if there is one. -/
  places : Option (List Char)
  /-- The power of ten that the digits are multiplied by, if one is written. -/
  exponent : Option Int

namespace Numeral

/-- Whether a number is written without point and exponent. -/
def isWhole (n : Numeral) : Bool := n.places.isNone && n.exponent.isNone

/-- Numbers from this one on do not fit a word. -/
def wordCapacity : Nat := 0x10000000000000000

/-- Appends digits to a word up to the first one that does not fit, and counts those appended. -/
def gather (word : Nat) : List Char → Nat × Nat
  | [] => (word, 0)
  | c :: rest =>
    let longer := 10 * word + digitValue c
    if longer < wordCapacity then
      let (word, count) := gather longer rest
      (word, count + 1)
    else (word, 0)

section
variable {K : Type} [Scalar K]

/-- The exponent of the largest power of ten that is used as a factor. -/
def largestPower : Nat := 308

/-- A power of ten. -/
def powerOfTen (n : Nat) : K := Scalar.whole (tenTo n)

/-- A scalar divided by a power of ten, in as many steps as the largest power asks for. A zero is
divided no further. -/
def divided (x : K) (power : Nat) : K :=
  if power ≤ largestPower then x / powerOfTen power
  else if Scalar.same x 0 then x
  else divided (x / powerOfTen largestPower) (power - largestPower)
termination_by power
decreasing_by simp only [largestPower] at *; omega

/-- A scalar multiplied by a power of ten, if the result is finite. Only a zero is multiplied by
more than the largest power. -/
def multiplied? (x : K) (power : Nat) : Option K :=
  if power ≤ largestPower then
    let y := x * powerOfTen power
    if Scalar.isFinite y then some y else none
  else if Scalar.same x 0 then some x
  else none

/-- A numeral as a scalar, if it is in range. The digits in front of the point that the word has no
room for count as zeros, and those behind the point are left out. -/
def scaled? (n : Numeral) : Option K :=
  let (word, fitting) := gather 0 n.whole
  let (word, places) := gather word (n.places.getD [])
  let power : Int := n.exponent.getD 0 + (n.whole.length - fitting) - places
  let magnitude : Option K :=
    if 0 ≤ power then multiplied? (Scalar.whole word) power.toNat
    else some (divided (Scalar.whole word) (-power).toNat)
  magnitude.map fun x => if n.negative then -x else x

end

end Numeral

end Barrage
