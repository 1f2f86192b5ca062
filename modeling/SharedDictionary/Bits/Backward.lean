import SharedDictionary.Bytes

/-!
# Bit strings read from their end

Entropy-coded data is written forwards and read backwards.  The last byte carries a marker: its
highest set bit stands directly above the last bit written.  A reader is therefore a range of bytes
together with the number of bits that are still unread; bit `k` of the range is bit `k % 8` of its
byte `k / 8`, and the next `n` bits to read are the bits `left - n … left - 1`.

A damaged string can ask for more bits than are left.  Such a read has a defined value too, because
a decoder may notice the damage only later: it reads a fixed 64-bit word, the first eight bytes of
the range, cyclically.  The number of unread bits then becomes negative, and a reader that ended
properly is one with exactly none left.

## Main definitions

* `Backward` — the reader
* `Backward.open?` — a reader at the marker of a range
* `Backward.peek`, `Backward.read`, `Backward.readLate` — the two ways to read, which differ only
  past the end
* `Backward.ended` — all bits read, and no more than that
-/

namespace SharedDictionary.Bits

/-- A range of bytes of which `left` bits are unread; negative once more was read than there was. -/
structure Backward where
  /-- The bytes that hold the range. -/
  bytes : ByteArray
  /-- The first byte of the range. -/
  start : Nat
  /-- The end of the range. -/
  stop : Nat
  /-- How many bits are unread. -/
  left : Int

namespace Backward

/-- A word whose low `n` bits are set. -/
@[inline]
def mask (n : Nat) : UInt64 := ((1 : UInt64) <<< UInt64.ofNat n) - 1

/-- A reader for a range that ends with a marker; a range that is empty or ends with a zero byte has
no marker. -/
def open? (bytes : ByteArray) (start stop : Nat) : Option Backward :=
  if start < stop then
    let last := byteAt bytes (stop - 1)
    if last = 0 then none
    else some ⟨bytes, start, stop, (8 * (stop - 1 - start) + highBit last : Nat)⟩
  else none

/-- All bits are read and none was read beyond them. -/
@[inline]
def ended (r : Backward) : Bool := r.left == 0

/-- The first eight bytes of the range, filled up with zeros where the range is shorter. -/
def firstWord (r : Backward) : UInt64 :=
  let word := word64At r.bytes r.start
  if r.start + 8 ≤ r.stop then word else word &&& mask (8 * (r.stop - r.start))

/-- The next `n ≤ 57` bits, when that many are left. -/
@[inline]
def within (r : Backward) (n : Nat) : Nat :=
  let low := r.left.toNat - n
  ((word64At r.bytes (r.start + low / 8) >>> UInt64.ofNat (low % 8)) &&& mask n).toNat

/-- The next `n` bits without reading them.  Past the end, the first word is shifted up by the bits
already used of it, modulo 64. -/
@[inline]
def peek (r : Backward) (n : Nat) : Nat :=
  if (n : Int) ≤ r.left then r.within n
  else if n = 0 then 0
  else
    let used := UInt64.ofNat ((64 - r.left) % 64).toNat
    ((r.firstWord <<< used) >>> UInt64.ofNat (64 - n)).toNat

/-- Marks `n` bits as read. -/
@[inline]
def skip (r : Backward) (n : Nat) : Backward := { r with left := r.left - n }

/-- Reads the next `n` bits. -/
@[inline]
def read (r : Backward) (n : Nat) : Nat × Backward := (r.peek n, r.skip n)

/-- Reads the next `n` bits.  Past the end, the first word is rotated down to the wanted bits. -/
@[inline]
def readLate (r : Backward) (n : Nat) : Nat × Backward :=
  if (n : Int) ≤ r.left then (r.within n, r.skip n)
  else
    let low := UInt64.ofNat ((r.left - n) % 64).toNat
    (((r.firstWord >>> low) &&& mask n).toNat, r.skip n)

@[simp] theorem left_skip (r : Backward) (n : Nat) : (r.skip n).left = r.left - n := rfl

@[simp] theorem left_read (r : Backward) (n : Nat) : (r.read n).2.left = r.left - n := rfl

@[simp] theorem left_readLate (r : Backward) (n : Nat) : (r.readLate n).2.left = r.left - n := by
  unfold readLate
  split <;> rfl

end Backward

end SharedDictionary.Bits
