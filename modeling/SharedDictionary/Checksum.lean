import SharedDictionary.Bytes

/-!
# The 64-bit content checksum

The checksum a frame may end with is the low half of XXH64 with seed zero.  XXH64 consumes the bytes
in stripes of 32 that feed four independent lanes, then the rest in words of eight, four and one
byte, and finally mixes the sum so that every input bit reaches every output bit.

## Main definitions

* `Checksum.hash` — XXH64 of a byte string
* `Checksum.low` — the low 32 bits of the hash, as frames store it
-/

namespace SharedDictionary.Checksum

/-- The five odd constants of the hash. -/
def prime1 : UInt64 := 0x9E3779B185EBCA87

/-- The second constant. -/
def prime2 : UInt64 := 0xC2B2AE3D27D4EB4F

/-- The third constant. -/
def prime3 : UInt64 := 0x165667B19E3779F9

/-- The fourth constant. -/
def prime4 : UInt64 := 0x85EBCA77C2B2AE63

/-- The fifth constant. -/
def prime5 : UInt64 := 0x27D4EB2F165667C5

/-- Rotation to the left by `1 ≤ k ≤ 63` bits. -/
@[inline]
def rotate (x : UInt64) (k : UInt64) : UInt64 := (x <<< k) ||| (x >>> (64 - k))

/-- One lane's step on a word of input. -/
@[inline]
def round (lane word : UInt64) : UInt64 := rotate (lane + word * prime2) 31 * prime1

/-- The four lanes. -/
structure Lanes where
  a : UInt64
  b : UInt64
  c : UInt64
  d : UInt64

/-- The lanes before any input, for seed zero. -/
def Lanes.initial : Lanes := ⟨prime1 + prime2, prime2, 0, 0 - prime1⟩

/-- Feeds a number of whole stripes to the lanes. -/
def Lanes.absorb (bytes : ByteArray) (i : Nat) (lanes : Lanes) : (stripes : Nat) → Lanes
  | 0 => lanes
  | stripes + 1 =>
    Lanes.absorb bytes (i + 32)
      ⟨round lanes.a (word64At bytes i), round lanes.b (word64At bytes (i + 8)),
        round lanes.c (word64At bytes (i + 16)), round lanes.d (word64At bytes (i + 24))⟩
      stripes

/-- Merges one lane into the running hash. -/
@[inline]
def merge (hash lane : UInt64) : UInt64 := (hash ^^^ round 0 lane) * prime1 + prime4

/-- The four lanes folded into one word. -/
def Lanes.combine (lanes : Lanes) : UInt64 :=
  let sum := rotate lanes.a 1 + rotate lanes.b 7 + rotate lanes.c 12 + rotate lanes.d 18
  merge (merge (merge (merge sum lanes.a) lanes.b) lanes.c) lanes.d

/-- Feeds the words of eight bytes that follow the stripes. -/
def absorbWords (bytes : ByteArray) (i : Nat) (hash : UInt64) : (words : Nat) → UInt64
  | 0 => hash
  | words + 1 =>
    absorbWords bytes (i + 8)
      (rotate (hash ^^^ round 0 (word64At bytes i)) 27 * prime1 + prime4) words

/-- Feeds the last single bytes. -/
def absorbBytes (bytes : ByteArray) (i : Nat) (hash : UInt64) : (count : Nat) → UInt64
  | 0 => hash
  | count + 1 =>
    absorbBytes bytes (i + 1)
      (rotate (hash ^^^ (octetAt bytes i).toUInt64 * prime5) 11 * prime1) count

/-- Feeds what is left after the stripes: words of eight, at most one word of four, single bytes. -/
def absorbTail (bytes : ByteArray) (i count : Nat) (hash : UInt64) : UInt64 :=
  let afterWords := absorbWords bytes i hash (count / 8)
  let j := i + count / 8 * 8
  let rest := count % 8
  if 4 ≤ rest then
    let word := UInt64.ofNat (littleEndian bytes j 4)
    let hash := rotate (afterWords ^^^ word * prime1) 23 * prime2 + prime3
    absorbBytes bytes (j + 4) hash (rest - 4)
  else
    absorbBytes bytes j afterWords rest

/-- The final mixing. -/
def avalanche (hash : UInt64) : UInt64 :=
  let first := (hash ^^^ hash >>> 33) * prime2
  let second := (first ^^^ first >>> 29) * prime3
  second ^^^ second >>> 32

/-- XXH64 with seed zero of `count` bytes from position `start` on. -/
def hashRange (bytes : ByteArray) (start count : Nat) : UInt64 :=
  let stripes := count / 32
  let begun :=
    if 32 ≤ count then (Lanes.absorb bytes start Lanes.initial stripes).combine else prime5
  avalanche (absorbTail bytes (start + stripes * 32) (count % 32) (begun + UInt64.ofNat count))

/-- XXH64 with seed zero. -/
def hash (bytes : ByteArray) : UInt64 := hashRange bytes 0 bytes.size

/-- The low 32 bits of the hash of a range, the form a frame stores. -/
def low (bytes : ByteArray) (start count : Nat) : Nat :=
  (hashRange bytes start count).toNat % 2 ^ 32

end SharedDictionary.Checksum
