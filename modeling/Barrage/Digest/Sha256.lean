/-!
# SHA-256

The hash function of FIPS 180-4 on lists of bytes. A message is padded to whole blocks of sixty-four
bytes, and each block is mixed into eight words of state by sixty-four rounds.
-/

namespace Barrage.Sha256

/-- The eight words of state. -/
structure State where
  a : UInt32
  b : UInt32
  c : UInt32
  d : UInt32
  e : UInt32
  f : UInt32
  g : UInt32
  h : UInt32
  deriving DecidableEq

/-- The state before the first block. -/
def State.initial : State :=
  ⟨0x6a09e667, 0xbb67ae85, 0x3c6ef372, 0xa54ff53a, 0x510e527f, 0x9b05688c, 0x1f83d9ab, 0x5be0cd19⟩

/-- One constant for each round. -/
def roundConstants : List UInt32 :=
  [0x428a2f98, 0x71374491, 0xb5c0fbcf, 0xe9b5dba5, 0x3956c25b, 0x59f111f1, 0x923f82a4, 0xab1c5ed5,
   0xd807aa98, 0x12835b01, 0x243185be, 0x550c7dc3, 0x72be5d74, 0x80deb1fe, 0x9bdc06a7, 0xc19bf174,
   0xe49b69c1, 0xefbe4786, 0x0fc19dc6, 0x240ca1cc, 0x2de92c6f, 0x4a7484aa, 0x5cb0a9dc, 0x76f988da,
   0x983e5152, 0xa831c66d, 0xb00327c8, 0xbf597fc7, 0xc6e00bf3, 0xd5a79147, 0x06ca6351, 0x14292967,
   0x27b70a85, 0x2e1b2138, 0x4d2c6dfc, 0x53380d13, 0x650a7354, 0x766a0abb, 0x81c2c92e, 0x92722c85,
   0xa2bfe8a1, 0xa81a664b, 0xc24b8b70, 0xc76c51a3, 0xd192e819, 0xd6990624, 0xf40e3585, 0x106aa070,
   0x19a4c116, 0x1e376c08, 0x2748774c, 0x34b0bcb5, 0x391c0cb3, 0x4ed8aa4a, 0x5b9cca4f, 0x682e6ff3,
   0x748f82ee, 0x78a5636f, 0x84c87814, 0x8cc70208, 0x90befffa, 0xa4506ceb, 0xbef9a3f7, 0xc67178f2]

/-- A word turned right by `n` places. -/
def rotateRight (w n : UInt32) : UInt32 := (w >>> n) ||| (w <<< (32 - n))

/-- Big-endian word of four bytes. -/
def word (b0 b1 b2 b3 : UInt8) : UInt32 :=
  (b0.toUInt32 <<< 24) ||| (b1.toUInt32 <<< 16) ||| (b2.toUInt32 <<< 8) ||| b3.toUInt32

/-- The big-endian words of a list of bytes. -/
def words : List UInt8 → List UInt32
  | b0 :: b1 :: b2 :: b3 :: rest => word b0 b1 b2 b3 :: words rest
  | _ => []

/-- The big-endian bytes of a word. -/
def bytes (w : UInt32) : List UInt8 :=
  [(w >>> 24).toUInt8, (w >>> 16).toUInt8, (w >>> 8).toUInt8, w.toUInt8]

/-- The message word that follows sixteen earlier ones. -/
def nextWord (w : Array UInt32) : UInt32 :=
  let n := w.size
  let w15 := w.getD (n - 15) 0
  let w2 := w.getD (n - 2) 0
  let lower0 := rotateRight w15 7 ^^^ rotateRight w15 18 ^^^ (w15 >>> 3)
  let lower1 := rotateRight w2 17 ^^^ rotateRight w2 19 ^^^ (w2 >>> 10)
  w.getD (n - 16) 0 + lower0 + w.getD (n - 7) 0 + lower1

/-- The words of a block, extended by `count` more. -/
def extend : Nat → Array UInt32 → Array UInt32
  | 0, w => w
  | count + 1, w => extend count (w.push (nextWord w))

/-- One round with its constant and its message word. -/
def round (s : State) (k w : UInt32) : State :=
  let upper1 := rotateRight s.e 6 ^^^ rotateRight s.e 11 ^^^ rotateRight s.e 25
  let choice := (s.e &&& s.f) ^^^ (~~~s.e &&& s.g)
  let t1 := s.h + upper1 + choice + k + w
  let upper0 := rotateRight s.a 2 ^^^ rotateRight s.a 13 ^^^ rotateRight s.a 22
  let majority := (s.a &&& s.b) ^^^ (s.a &&& s.c) ^^^ (s.b &&& s.c)
  let t2 := upper0 + majority
  ⟨t1 + t2, s.a, s.b, s.c, s.d + t1, s.e, s.f, s.g⟩

/-- The state after a block: what the rounds make of it is added word by word. -/
def compress (s : State) (block : List UInt8) : State :=
  let schedule := extend 48 (words block).toArray
  let r := (roundConstants.zip schedule.toList).foldl (fun s kw => round s kw.1 kw.2) s
  ⟨s.a + r.a, s.b + r.b, s.c + r.c, s.d + r.d, s.e + r.e, s.f + r.f, s.g + r.g, s.h + r.h⟩

/-- The message with a one bit, zeros up to a multiple of sixty-four bytes, and its length in bits
as eight big-endian bytes at the end. -/
def padded (message : List UInt8) : List UInt8 :=
  let length := message.length
  let zeros := (119 - length % 64) % 64
  let bits := UInt64.ofNat (8 * length)
  message ++ [(0x80 : UInt8)] ++ List.replicate zeros (0 : UInt8) ++
    bytes (bits >>> 32).toUInt32 ++ bytes bits.toUInt32

/-- The state after `count` blocks. -/
def absorb : Nat → State → List UInt8 → State
  | 0, s, _ => s
  | count + 1, s, message => absorb count (compress s (message.take 64)) (message.drop 64)

/-- The thirty-two bytes of a message's hash. -/
def hash (message : List UInt8) : List UInt8 :=
  let whole := padded message
  let s := absorb (whole.length / 64) State.initial whole
  [s.a, s.b, s.c, s.d, s.e, s.f, s.g, s.h].flatMap bytes

end Barrage.Sha256
