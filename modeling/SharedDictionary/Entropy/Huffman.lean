import SharedDictionary.Entropy.StateTable

/-!
# Huffman codes

A code is described by a weight for each symbol: a symbol of weight `w > 0` has a code word of
`log + 1 - w` bits and so owns `2 ^ (w - 1)` of the `2 ^ log` values of the next `log` bits.  The
weight of the last symbol is not stored, it is what is missing from a power of two.

A table can be read one symbol at a time or two: a lookup yields a second symbol whenever both code
words fit into the bits looked at.  The results agree on every well-formed stream and differ on some
damaged ones, so the table records which way it is read.

## Main definitions

* `HuffmanTable` — the symbol and the length of the code word for every value of the next bits
* `HuffmanTable.ofWeights` — the table of a list of weights
* `HuffmanTable.read?` — reads a description
-/

namespace SharedDictionary.Entropy

open SharedDictionary.Bits

/-- For every value of the next `log` bits, the symbol whose code word they start with. -/
structure HuffmanTable where
  /-- The number of bits looked at. -/
  log : Nat
  /-- The symbols. -/
  symbols : ByteArray
  /-- The lengths of their code words. -/
  lengths : ByteArray
  /-- A lookup yields two symbols where two code words fit. -/
  paired : Bool
  deriving Inhabited

namespace HuffmanTable

/-- The longest code word. -/
def maxLog : Nat := 12

/-- The weights given directly, two to a byte, the first in the high half. -/
def directWeights (bytes : ByteArray) (start count : Nat) : List Nat :=
  (List.range count).map fun i =>
    let octet := byteAt bytes (start + i / 2)
    if i % 2 = 0 then octet / 16 else octet % 16

/-- Decodes weights with two states that take turns.  Reading beyond the last bit ends the weights
with the symbol of the other state. -/
def alternate (t : StateTable) (this other : Nat) (r : Backward) (weights : Array Nat) :
    Option (Array Nat) :=
  if weights.size ≤ 253 then
    let grown := weights.push (t.entry this).symbol
    let (next, r) := t.advance this r
    if r.left < 0 then some (grown.push (t.entry other).symbol)
    else alternate t other next r grown
  else none
termination_by 254 - weights.size
decreasing_by
  rw [Array.size_push]
  omega

/-- The largest symbol that the space for decoding weights allows at a table size. -/
def maxWeightSymbol (log : Nat) : Nat := if log ≤ 5 then 91 else 11

/-- The weights stored with a table of states of their own, of at most `2 ^ 6` states. -/
def codedWeights? (bytes : ByteArray) (start stop : Nat) : Option (List Nat) := do
  let c ← Counts.read? bytes start stop 255
  guard (c.log ≤ 6 ∧ c.counts.size ≤ maxWeightSymbol c.log + 1)
  let t := StateTable.ofCounts c.log c.counts
  let r ← Backward.open? bytes (start + c.size) stop
  let (first, r) := t.start r
  let (second, r) := t.start r
  guard (0 ≤ r.left)
  let weights ← alternate t first second r #[]
  return weights.toList

/-- The stored weights and the length of their description.  A first byte of 128 or more is 127 plus
the number of weights that follow directly; a smaller one is the length of coded weights. -/
def readWeights? (bytes : ByteArray) (start stop : Nat) : Option (List Nat × Nat) := do
  guard (start < stop)
  let first := byteAt bytes start
  if 128 ≤ first then
    let count := first - 127
    let size := (count + 1) / 2 + 1
    guard (start + size ≤ stop)
    return (directWeights bytes (start + 1) count, size)
  else
    guard (start + first + 1 ≤ stop)
    let weights ← codedWeights? bytes (start + 1) (start + 1 + first)
    return (weights, first + 1)

/-- How many values a weight owns. -/
@[inline]
def share (weight : Nat) : Nat := 2 ^ weight / 2

/-- Adds the weight of the last symbol, and gives the length of the longest code word.  The missing
share must be a power of two, and there must be at least two code words of the greatest length, an
even number of them. -/
def complete? (weights : List Nat) : Option (List Nat × Nat) :=
  let total := (weights.map share).sum
  let log := highBit total + 1
  let missing := 2 ^ log - total
  let all := weights ++ [highBit missing + 1]
  let longest := all.count 1
  if weights.all (· ≤ maxLog) ∧ total ≠ 0 ∧ log ≤ maxLog ∧ missing = 2 ^ highBit missing
      ∧ 2 ≤ longest ∧ longest % 2 = 0 then
    some (all, log)
  else none

/-- The table of complete weights whose longest code word has `log` bits.  It looks at eleven bits,
or twelve where a code word needs them.  The symbols stand in the order of their weights. -/
def ofWeights (weights : List Nat) (log : Nat) (paired : Bool) : HuffmanTable :=
  let width := if log ≤ 11 then 11 else maxLog
  let ordered := (List.range maxLog).flatMap fun w =>
    (weights.zipIdx).filter fun p => p.1 == w + 1
  let (symbols, lengths) := ordered.foldl
    (fun (symbols, lengths) (w, s) =>
      let count := share w * 2 ^ (width - log)
      (pushRun symbols (UInt8.ofNat s) count, pushRun lengths (UInt8.ofNat (log + 1 - w)) count))
    (ByteArray.empty, ByteArray.empty)
  ⟨width, symbols, lengths, paired⟩

/-- Reads a description, and tells how many bytes it takes. -/
def read? (bytes : ByteArray) (start stop : Nat) (paired : Bool) : Option (HuffmanTable × Nat) := do
  let (stored, size) ← readWeights? bytes start stop
  let (weights, log) ← complete? stored
  return (ofWeights weights log paired, size)

/-- The symbol that a lookup yields. -/
@[inline]
def symbol (t : HuffmanTable) (i : Nat) : UInt8 := octetAt t.symbols i

/-- The length of its code word. -/
@[inline]
def length (t : HuffmanTable) (i : Nat) : Nat := byteAt t.lengths i

/-- The value of the looked-at bits after the first code word is taken away and zeros follow. -/
@[inline]
def after (t : HuffmanTable) (i : Nat) : Nat := (i <<< t.length i) % 2 ^ t.log

/-- Whether a lookup yields two symbols. -/
@[inline]
def isPair (t : HuffmanTable) (i : Nat) : Bool := t.length i + t.length (t.after i) ≤ t.log

end HuffmanTable

end SharedDictionary.Entropy
