import Barrage.Number.Numeral

/-!
# Binary64 scalars

The running simulation computes with IEEE 754 binary64 numbers, each kept as its bit pattern. The
processor's operations serve for arithmetic, roots and angles. What they do not tell apart is said
here: an operation without a result gives `Binary64.invalid`, and a NaN among the operands is the
result, sign and all.

What concerns exact values is done on the patterns in integer arithmetic: `magnitude?` gives the
value of a finite pattern as a mantissa and a power of two, and `nearest?` gives the pattern nearest
to a quotient of natural numbers, ties going to the even mantissa.
-/

namespace Barrage

/-- A binary64 number. -/
structure Binary64 where
  /-- Its pattern: the sign, eleven bits of exponent, and the fraction. -/
  bits : UInt64
  deriving DecidableEq

namespace Binary64

/-- The bit of the sign. -/
def signBit : UInt64 := 0x8000000000000000

/-- The pattern of infinity, the first one above all finite patterns. -/
def infinity : Nat := 0x7ff0000000000000

/-- The bit in front of the fraction. Patterns leave it out. -/
def leadingBit : Nat := 0x10000000000000

/-- Whether the sign bit is set. -/
def isNegative (x : Binary64) : Bool := x.bits &&& signBit != 0

/-- Whether a pattern stands for no number at all. -/
def isNaN (x : Binary64) : Bool := infinity < x.bits.toNat % signBit.toNat

/-- A number with the other sign. A NaN has a sign too. -/
def neg (x : Binary64) : Binary64 := ⟨x.bits ^^^ signBit⟩

/-- What an operation gives that has no result: a NaN with its sign bit set. -/
def invalid : Binary64 := ⟨0xfff8000000000000⟩

/-- The number for the processor. -/
def toFloat (x : Binary64) : Float := .ofBits x.bits

/-- The result of an operation of the processor. -/
def ofFloat (f : Float) : Binary64 := if f.isNaN then invalid else ⟨f.toBits⟩

/-- An operation on one number. -/
def apply (op : Float → Float) (x : Binary64) : Binary64 :=
  if x.isNaN then x else ofFloat (op x.toFloat)

/-- An operation on two numbers. Of two NaNs the first one is the result. -/
def apply₂ (op : Float → Float → Float) (x y : Binary64) : Binary64 :=
  if x.isNaN then x else if y.isNaN then y else ofFloat (op x.toFloat y.toFloat)

/-- The magnitude `m * 2 ^ q` of a finite number as the pair `(m, q)`. -/
def magnitude? (x : Binary64) : Option (Nat × Int) :=
  let field := (x.bits >>> 52).toNat % 2048
  let fraction := x.bits.toNat % leadingBit
  if field = 2047 then none
  else if field = 0 then some (fraction, -1074)
  else some (leadingBit + fraction, (field : Int) - 1075)

/-- `num * 2 ^ -shift / den` as a quotient of natural numbers. -/
def scaled (num den : Nat) (shift : Int) : Nat × Nat :=
  if 0 ≤ shift then (num, den <<< shift.toNat) else (num <<< (-shift).toNat, den)

/-- The exponent of the last mantissa bit in the pattern nearest to `num / den`: the mantissa has
53 bits, or fewer where the exponent would fall below the smallest one. -/
def lastBit (num den : Nat) : Int :=
  let guess : Int := (num.log2 : Int) - (den.log2 : Int)
  let (n, d) := scaled num den guess
  let exponent := if n < d then guess - 1 else guess
  max (exponent - 52) (-1074)

/-- The positive number nearest to `num / den`, unless that is infinity. The mantissa is added to
the exponent field, so a mantissa that rounds up to a power of two carries into it. -/
def nearest? (num den : Nat) : Option Binary64 :=
  if num = 0 then some ⟨0⟩ else
    let shift := lastBit num den
    let (n, d) := scaled num den shift
    let bits := divHalfEven n d + (shift + 1074).toNat * leadingBit
    if bits < infinity then some ⟨UInt64.ofNat bits⟩ else none

/-- The positive number nearest to `digits * 10 ^ exponent`. Values far outside the range are
answered without writing the power of ten down. -/
def nearestDecimal? (digits : Nat) (exponent : Int) : Option Binary64 :=
  if digits = 0 then some ⟨0⟩ else
    let top : Int := exponent + ((Nat.toDigits 10 digits).length : Int)
    if 310 < top then none
    else if top < -330 then some ⟨0⟩
    else if 0 ≤ exponent then nearest? (digits * tenTo exponent.toNat) 1
    else nearest? digits (tenTo (-exponent).toNat)

/-- The number nearest to what is written; a zero keeps its sign. -/
def ofNumeral? (n : Numeral) : Option Binary64 :=
  let places := n.places.getD []
  (nearestDecimal? (digitsValue (n.whole ++ places)) (n.exponent.getD 0 - places.length)).map
    fun x => if n.negative then x.neg else x

/-- The number nearest to a natural number. -/
def ofNat (n : Nat) : Binary64 :=
  if n < UInt64.size then ofFloat n.toUInt64.toFloat
  else (nearest? n 1).getD ⟨UInt64.ofNat infinity⟩

/-- The number nearest to an integer; zero is positive. -/
def ofInt (i : Int) : Binary64 := if i < 0 then (ofNat i.natAbs).neg else ofNat i.natAbs

/-- The largest integer that is not above a finite number. -/
def floor? (x : Binary64) : Option Int :=
  x.magnitude?.map fun (m, q) =>
    let value : Int := if x.isNegative then -(m : Int) else m
    let scale : Nat := 1 <<< q.natAbs
    if 0 ≤ q then value * scale else value / scale

end Binary64

instance Scalar.binary64 : Scalar Binary64 where
  zero := ⟨0⟩
  add := Binary64.apply₂ Float.add
  sub := Binary64.apply₂ Float.sub
  mul := Binary64.apply₂ Float.mul
  div := Binary64.apply₂ Float.div
  neg := Binary64.neg
  lt x y := x.toFloat < y.toFloat
  le x y := x.toFloat ≤ y.toFloat
  decLt x y := Float.decLt x.toFloat y.toFloat
  decLe x y := Float.decLe x.toFloat y.toFloat
  ofInt := Binary64.ofInt
  sqrt := Binary64.apply Float.sqrt
  sin := Binary64.apply Float.sin
  cos := Binary64.apply Float.cos
  pi := ⟨0x400921fb54442d18⟩
  floor? := Binary64.floor?
  isFinite x := x.toFloat.isFinite
  bits := Binary64.bits

end Barrage
