/-!
# Reading and writing byte strings

Positions are natural numbers and every read is total: a position past the end reads as zero.  The
formats in this library check lengths before they trust a value, so the zeros are only ever seen
where a format itself pads with zeros.

## Main definitions

* `byteAt`, `littleEndian`, `word64At` — the byte, the little-endian number and the 64-bit word at a
  position
* `pushLittleEndian` — the inverse of `littleEndian`
* `pushRun`, `pushRange`, `copyBack` — a run of one byte, a range of another byte string, and a copy
  of bytes that lie a fixed distance behind the end
* `commonLength` — how far two ranges agree
-/

-- Powers and sums of numbers are those of the core library, with and without the algebraic hierarchy
-- in scope.
attribute [instance (high), default_instance (high + 1)] instPowNat
attribute [instance (high)] Zero.ofOfNat0

namespace SharedDictionary

/-- The byte at a position, zero past the end. -/
@[inline]
def octetAt (bytes : ByteArray) (i : Nat) : UInt8 :=
  if h : i < bytes.size then bytes[i] else 0

/-- The byte at a position as a number, zero past the end. -/
@[inline]
def byteAt (bytes : ByteArray) (i : Nat) : Nat := (octetAt bytes i).toNat

theorem byteAt_lt (bytes : ByteArray) (i : Nat) : byteAt bytes i < 256 :=
  (octetAt bytes i).toNat_lt

/-- The number that `count` bytes from position `i` on denote, least significant byte first. -/
def littleEndian (bytes : ByteArray) (i : Nat) : (count : Nat) → Nat
  | 0 => 0
  | count + 1 => byteAt bytes i + 256 * littleEndian bytes (i + 1) count

@[simp] theorem littleEndian_zero (bytes : ByteArray) (i : Nat) : littleEndian bytes i 0 = 0 := rfl

theorem littleEndian_succ (bytes : ByteArray) (i count : Nat) :
    littleEndian bytes i (count + 1) = byteAt bytes i + 256 * littleEndian bytes (i + 1) count :=
  rfl

theorem littleEndian_lt (bytes : ByteArray) (i count : Nat) :
    littleEndian bytes i count < 256 ^ count := by
  induction count generalizing i with
  | zero => simp
  | succ count ih =>
    have hbyte := byteAt_lt bytes i
    have hrest := ih (i + 1)
    rw [littleEndian_succ, Nat.pow_succ]
    omega

/-- The 64-bit word at a position, least significant byte first. -/
def word64At (bytes : ByteArray) (i : Nat) : UInt64 :=
  (octetAt bytes i).toUInt64
    ||| (octetAt bytes (i + 1)).toUInt64 <<< 8
    ||| (octetAt bytes (i + 2)).toUInt64 <<< 16
    ||| (octetAt bytes (i + 3)).toUInt64 <<< 24
    ||| (octetAt bytes (i + 4)).toUInt64 <<< 32
    ||| (octetAt bytes (i + 5)).toUInt64 <<< 40
    ||| (octetAt bytes (i + 6)).toUInt64 <<< 48
    ||| (octetAt bytes (i + 7)).toUInt64 <<< 56

/-- Appends the low `count` bytes of a number, least significant first. -/
def pushLittleEndian (out : ByteArray) (value : Nat) : (count : Nat) → ByteArray
  | 0 => out
  | count + 1 => pushLittleEndian (out.push (UInt8.ofNat value)) (value / 256) count

@[simp] theorem pushLittleEndian_zero (out : ByteArray) (value : Nat) :
    pushLittleEndian out value 0 = out := rfl

theorem pushLittleEndian_succ (out : ByteArray) (value count : Nat) :
    pushLittleEndian out value (count + 1) =
      pushLittleEndian (out.push (UInt8.ofNat value)) (value / 256) count := rfl

@[simp] theorem size_pushLittleEndian (out : ByteArray) (value count : Nat) :
    (pushLittleEndian out value count).size = out.size + count := by
  induction count generalizing out value with
  | zero => rfl
  | succ count ih => rw [pushLittleEndian_succ, ih, ByteArray.size_push]; omega

/-- Appends one byte a number of times. -/
def pushRun (out : ByteArray) (octet : UInt8) : (count : Nat) → ByteArray
  | 0 => out
  | count + 1 => pushRun (out.push octet) octet count

@[simp] theorem size_pushRun (out : ByteArray) (octet : UInt8) (count : Nat) :
    (pushRun out octet count).size = out.size + count := by
  induction count generalizing out with
  | zero => rfl
  | succ count ih => rw [pushRun, ih, ByteArray.size_push]; omega

/-- Appends `count` bytes of `source` from position `start` on; the caller keeps the range inside
`source`. -/
def pushRange (out source : ByteArray) (start count : Nat) : ByteArray :=
  out ++ source.extract start (start + count)

/-- Appends `count` bytes, each a copy of the byte that lies `distance` behind the end at that
moment, so that a copy longer than its distance repeats what it has just written. -/
def copyBack (out : ByteArray) (distance : Nat) : (count : Nat) → ByteArray
  | 0 => out
  | count + 1 => copyBack (out.push (octetAt out (out.size - distance))) distance count

@[simp] theorem copyBack_zero (out : ByteArray) (distance : Nat) : copyBack out distance 0 = out :=
  rfl

theorem copyBack_succ (out : ByteArray) (distance count : Nat) :
    copyBack out distance (count + 1) =
      copyBack (out.push (octetAt out (out.size - distance))) distance count := rfl

@[simp] theorem size_copyBack (out : ByteArray) (distance count : Nat) :
    (copyBack out distance count).size = out.size + count := by
  induction count generalizing out with
  | zero => rfl
  | succ count ih => rw [copyBack_succ, ih, ByteArray.size_push]; omega

/-- Counts, from `known` on, how many of the next `limit` bytes at two positions agree. -/
def commonFrom (bytes : ByteArray) (i j : Nat) : (limit : Nat) → (known : Nat) → Nat
  | 0, known => known
  | limit + 1, known =>
    if octetAt bytes i = octetAt bytes j then commonFrom bytes (i + 1) (j + 1) limit (known + 1)
    else known

/-- How many of the next `limit` bytes at two positions agree. -/
def commonLength (bytes : ByteArray) (i j limit : Nat) : Nat := commonFrom bytes i j limit 0

theorem commonFrom_le (bytes : ByteArray) (i j limit known : Nat) :
    commonFrom bytes i j limit known ≤ known + limit := by
  induction limit generalizing i j known with
  | zero => simp [commonFrom]
  | succ limit ih =>
    have := ih (i + 1) (j + 1) (known + 1)
    rw [commonFrom]
    split <;> omega

theorem commonLength_le (bytes : ByteArray) (i j limit : Nat) :
    commonLength bytes i j limit ≤ limit := by
  simpa [commonLength] using commonFrom_le bytes i j limit 0

/-- The greatest `k` with `2 ^ k ≤ n`, zero for `n = 0`. -/
@[inline]
def highBit (n : Nat) : Nat := n.log2

end SharedDictionary
