import SharedDictionary.Bytes

/-!
# Normalised symbol counts

A table of states is described by how many of its `2 ^ log` states each symbol owns.  The counts are
stored one after the other in a number of bits that shrinks with the states still to be given away;
a count of `-1` stands for a symbol that owns one state but is less likely than that, and after a
count of zero two-bit groups tell how many more zeros follow.

The description is read through a 32-bit word that slides over the bytes and stops four bytes before
their end.  A description that runs over its end sees the last word again, rotated; whether such a
reading is refused is decided by the same rules as any other.

## Main definitions

* `Counts` — the counts, the logarithm of their sum, and the length of their description
* `Counts.read?` — reads a description
-/

namespace SharedDictionary.Entropy

/-- The counts of the symbols `0, 1, …`, of which the last is not zero. -/
structure Counts where
  /-- The number of states is `2 ^ log`. -/
  log : Nat
  /-- The count of each symbol, `-1` for one that is rarer than one state. -/
  counts : Array Int
  /-- How many bytes the description takes. -/
  size : Nat
  deriving Repr

namespace Counts

/-- Where a description is being read: a byte and the bits already used of the word that starts
there. -/
structure Cursor where
  /-- The byte at which the word starts. -/
  byte : Nat
  /-- The used bits of the word. -/
  bits : Nat

namespace Cursor

/-- The unused bits of the word at the cursor. -/
@[inline]
def window (bytes : ByteArray) (c : Cursor) : Nat :=
  littleEndian bytes c.byte 4 >>> c.bits

/-- Moves the word forward over its used bytes, but not past the last four bytes before `stop`. -/
def refill (stop : Nat) (c : Cursor) : Cursor :=
  if c.byte + 7 ≤ stop ∨ c.byte + c.bits / 8 + 4 ≤ stop then
    ⟨c.byte + c.bits / 8, c.bits % 8⟩
  else
    -- The word stops at the last four bytes; what is used beyond them wraps around in it.
    ⟨stop - 4, (c.bits - 8 * (stop - 4 - c.byte)) % 32⟩

/-- Moves the word forward over three bytes of zero groups. -/
def skipThree (stop : Nat) (c : Cursor) : Cursor :=
  if c.byte + 7 ≤ stop then ⟨c.byte + 3, c.bits⟩
  else ⟨stop - 4, ((c.bits : Int) - 8 * ((stop : Int) - 7 - c.byte)).toNat % 32⟩

end Cursor

/-- How many two-bit groups with both bits set a word starts with, at most `limit`. -/
def fullGroups (word : Nat) : (limit : Nat) → Nat
  | 0 => 0
  | limit + 1 => if word % 4 = 3 then fullGroups (word / 4) limit + 1 else 0

/-- Appends zeros. -/
def pushZeros (counts : Array Int) (count : Nat) : Array Int :=
  counts ++ Array.replicate count 0

@[simp] theorem size_pushZeros (counts : Array Int) (count : Nat) :
    (pushZeros counts count).size = counts.size + count := by
  simp [pushZeros]

/-- Reads a run of zero counts: every full group stands for three zeros, twelve of them are skipped
at once, and the first group that is not full ends the run. -/
def zeroRun (bytes : ByteArray) (stop : Nat) (c : Cursor) (counts : Array Int) :
    (fuel : Nat) → Cursor × Array Int
  | 0 => (c, counts)
  | fuel + 1 =>
    let word := c.window bytes
    let groups := fullGroups word 15
    if 12 ≤ groups then
      zeroRun bytes stop (c.skipThree stop) (pushZeros counts 36) fuel
    else
      (⟨c.byte, c.bits + 2 * groups + 2⟩,
        pushZeros counts (3 * groups + (word >>> (2 * groups)) % 4))

theorem size_le_zeroRun (bytes : ByteArray) (stop : Nat) (c : Cursor) (counts : Array Int)
    (fuel : Nat) : counts.size ≤ (zeroRun bytes stop c counts fuel).2.size := by
  induction fuel generalizing c counts with
  | zero => simp [zeroRun]
  | succ fuel ih =>
    by_cases h : 12 ≤ fullGroups (c.window bytes) 15
    · simpa only [zeroRun, if_pos h] using Nat.le_trans (by simp) (ih _ _)
    · simp [zeroRun, if_neg h]

/-- The place of the next count and the counts before it: after a zero count a run of further zeros
comes first, otherwise nothing does. -/
def skipZeros (bytes : ByteArray) (stop : Nat) (c : Cursor) (counts : Array Int)
    (afterZero : Bool) : Cursor × Array Int :=
  if afterZero then zeroRun bytes stop c counts (stop + 8) else (c, counts)

theorem size_le_skipZeros (bytes : ByteArray) (stop : Nat) (c : Cursor) (counts : Array Int)
    (afterZero : Bool) : counts.size ≤ (skipZeros bytes stop c counts afterZero).2.size := by
  unfold skipZeros
  split
  · exact size_le_zeroRun ..
  · exact Nat.le_refl _

/-- The states still to be given away, with the extra one that ends the description. -/
structure Remaining where
  /-- One more than the states that no symbol owns yet. -/
  states : Nat
  /-- The number of bits of the longer form of a count. -/
  width : Nat

/-- Reads one count at the window: it takes one bit less if it is small enough to be told apart by
that.  The result is the count and its number of bits. -/
def readOne (window : Nat) (r : Remaining) : Int × Nat :=
  let threshold := 2 ^ (r.width - 1)
  let short := 2 * threshold - 1 - r.states
  let low := window % threshold
  if low < short then ((low : Int) - 1, r.width - 1)
  else
    let high := window % (2 * threshold)
    let value := if threshold ≤ high then high - short else high
    ((value : Int) - 1, r.width)

/-- Takes the states of one count away and shrinks the width once fewer are left than it counts. -/
def Remaining.take (r : Remaining) (count : Int) : Remaining :=
  let states := r.states - count.natAbs
  if states < 2 ^ (r.width - 1) ∧ 1 < states then ⟨states, highBit states + 1⟩
  else ⟨states, r.width⟩

/-- Reads counts until all states are given away or there are `limit` counts. -/
def readAll (bytes : ByteArray) (stop limit : Nat) (c : Cursor) (r : Remaining)
    (counts : Array Int) (afterZero : Bool) : Cursor × Remaining × Array Int :=
  match _hrun : skipZeros bytes stop c counts afterZero with
  | (place, known) =>
    if known.size < limit then
      let here := if afterZero then place.refill stop else place
      let (count, used) := readOne (here.window bytes) r
      let next := r.take count
      let after : Cursor := ⟨here.byte, here.bits + used⟩
      if next.states ≤ 1 then (after, next, known.push count)
      else if known.size + 1 < limit then
        readAll bytes stop limit (after.refill stop) next (known.push count) (count == 0)
      else (after, next, known.push count)
    else (place, r, known)
termination_by limit - counts.size
decreasing_by
  have hsize := size_le_skipZeros bytes stop c counts afterZero
  rw [_hrun] at hsize
  rw [Array.size_push]
  simp only at hsize
  omega

/-- Reads a description that has at least eight bytes before `stop`. -/
def readLong? (bytes : ByteArray) (start stop maxSymbol : Nat) : Option Counts :=
  let first := littleEndian bytes start 4
  let log := first % 16 + 5
  if 15 < log then none
  else
    let (c, r, counts) :=
      readAll bytes stop (maxSymbol + 1) ⟨start, 4⟩ ⟨2 ^ log + 1, log + 1⟩ #[] false
    if r.states = 1 ∧ counts.size ≤ maxSymbol + 1 ∧ c.bits ≤ 32 then
      some ⟨log, counts, c.byte + (c.bits + 7) / 8 - start⟩
    else none

/-- Reads the counts of symbols up to `maxSymbol`.  Fewer than eight bytes are filled up with zeros,
which the description must then not need. -/
def read? (bytes : ByteArray) (start stop maxSymbol : Nat) : Option Counts :=
  if start + 8 ≤ stop then readLong? bytes start stop maxSymbol
  else
    let filled := pushRun (bytes.extract start stop) 0 (8 - (stop - start))
    (readLong? filled 0 8 maxSymbol).filter fun c => c.size ≤ stop - start

end Counts

end SharedDictionary.Entropy
