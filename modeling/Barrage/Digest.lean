import Barrage.Digest.Sha256
import Barrage.Plane.Vec

/-!
# Fingerprints of simulation states

A fingerprint is the SHA-256 hash of a byte encoding. Words are written with the least significant
byte first, numbers by their bit patterns, and texts behind their length, so that two texts in a row
cannot be confused with two others. `Encoding` gathers these forms; what a fight encodes is said in
`Barrage.Fight.Fingerprint`.
-/

namespace Barrage

namespace Encoding

/-- The `count` least significant bytes of a number, the lowest first. -/
def littleEndian : (count : Nat) → Nat → List UInt8
  | 0, _ => []
  | count + 1, n => UInt8.ofNat (n % 256) :: littleEndian count (n / 256)

/-- One byte. -/
def word8 (n : Nat) : List UInt8 := littleEndian 1 n

/-- Four bytes. -/
def word32 (n : Nat) : List UInt8 := littleEndian 4 n

/-- Eight bytes. -/
def word64 (n : Nat) : List UInt8 := littleEndian 8 n

/-- Four bytes of a signed integer, in two's complement. -/
def int32 (i : Int) : List UInt8 := word32 (i % 0x100000000).toNat

/-- A truth value as one byte. -/
def flag (b : Bool) : List UInt8 := word8 b.toNat

/-- A number by its bit pattern. -/
def scalar {K : Type} [Scalar K] (x : K) : List UInt8 := word64 (Scalar.bits x).toNat

/-- The two components of a vector. -/
def vec {K : Type} [Scalar K] (v : Vec K) : List UInt8 := scalar v.x ++ scalar v.y

/-- The bytes of a text in UTF-8, behind their count. -/
def text (s : String) : List UInt8 := word32 s.utf8ByteSize ++ s.toUTF8.toList

/-- The bytes that separate fingerprints of fights from other uses of the hash. -/
def fightDomain : List UInt8 := "BULLET_HELL_FIGHT_V1".toUTF8.toList

/-- What every fingerprint of a fight begins with: the domain, the frame and the seed. -/
def fightHeader (frame seed : Nat) : List UInt8 := fightDomain ++ word32 frame ++ word64 seed

/-- A word takes as many bytes as it is written with. -/
@[simp] theorem length_littleEndian (count n : Nat) : (littleEndian count n).length = count := by
  induction count generalizing n with
  | zero => rfl
  | succ count ih => simp [littleEndian, ih]

end Encoding

/-- A digest in hexadecimal digits, two for each byte. -/
def hexText (bytes : List UInt8) : String :=
  String.ofList (bytes.flatMap fun b =>
    [Nat.digitChar (b.toNat / 16), Nat.digitChar (b.toNat % 16)])

end Barrage
