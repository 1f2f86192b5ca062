import SharedDictionary.Entropy.CodingState
import SharedDictionary.Dictionary.Content
import SharedDictionary.Frame.CodecError

/-!
# The sequences of a block

After its literals a compressed block holds *sequences*.  Each copies a number of literals to the
output and then a match: bytes that already stand a given distance before.  Lengths and distances
are written as a code, which stands for a range of values, and extra bits that choose the value;
the codes of each of the three parts come from a table of states of their own.

## Main definitions

* `Sequence` — one step of a block
* `SequenceHeader`, `SequenceHeader.read` — the number of sequences and their tables
* `LengthCode` — the range of a code
* `readDistance` — the distance that an offset code stands for
* `Sequence.readAll` — the sequences of a bit string
-/

namespace SharedDictionary

open SharedDictionary.Bits
open SharedDictionary.Entropy

/-- Copies `literals` literals and then `length` bytes that stand `distance` before the end. -/
structure Sequence where
  literals : Nat
  length : Nat
  distance : Nat
  deriving Repr, DecidableEq, Inhabited

/-- A code stands for `base` and the `2 ^ extra - 1` values after it. -/
structure LengthCode where
  base : Nat
  extra : Nat
  deriving Repr, Inhabited

/-- The codes whose ranges adjoin, from their numbers of extra bits. -/
def LengthCode.adjoining (base : Nat) : (extras : List Nat) → List LengthCode
  | [] => []
  | extra :: extras => ⟨base, extra⟩ :: adjoining (base + 2 ^ extra) extras

/-- The codes of literal lengths: they start at zero. -/
def literalLengthCodes : Array LengthCode :=
  (LengthCode.adjoining 0 (List.replicate 16 0 ++ [1, 1, 1, 1, 2, 2, 3, 3, 4])
    ++ LengthCode.adjoining 64 [6, 7, 8, 9, 10, 11, 12, 13, 14, 15, 16]).toArray

/-- The codes of match lengths: they start at three. -/
def matchLengthCodes : Array LengthCode :=
  (LengthCode.adjoining 3 (List.replicate 32 0 ++ [1, 1, 1, 1, 2, 2, 3, 3, 4, 4, 5])
    ++ LengthCode.adjoining 131 [7, 8, 9, 10, 11, 12, 13, 14, 15, 16]).toArray

/-- The table of literal lengths for blocks that bring none. -/
def defaultLiteralLengths : StateTable :=
  .ofCounts 6 #[4, 3, 2, 2, 2, 2, 2, 2, 2, 2, 2, 2, 2, 1, 1, 1, 2, 2, 2, 2, 2, 2, 2, 2, 2, 3, 2, 1,
    1, 1, 1, 1, -1, -1, -1, -1]

/-- The table of offsets for blocks that bring none. -/
def defaultOffsets : StateTable :=
  .ofCounts 5 #[1, 1, 1, 1, 1, 1, 2, 2, 2, 1, 1, 1, 1, 1, 1, 1, 1, 1, 1, 1, 1, 1, 1, 1, -1, -1, -1,
    -1, -1]

/-- The table of match lengths for blocks that bring none. -/
def defaultMatchLengths : StateTable :=
  .ofCounts 6 #[1, 4, 3, 2, 2, 2, 2, 2, 2, 1, 1, 1, 1, 1, 1, 1, 1, 1, 1, 1, 1, 1, 1, 1, 1, 1, 1, 1,
    1, 1, 1, 1, 1, 1, 1, 1, 1, 1, 1, 1, 1, 1, 1, 1, 1, 1, -1, -1, -1, -1, -1, -1, -1]

namespace RecentOffsets

/-- A distance that reaches nothing. -/
def unreachable : Nat := 2 ^ 64 - 1

/-- Puts a new distance in front. -/
def push (recent : RecentOffsets) (distance : Nat) : RecentOffsets :=
  ⟨distance, recent.first, recent.second⟩

/-- Chooses one of the last three distances and puts it in front.  Choice zero is the most recent
one; choice three is one less than it, which reaches nothing if that is zero. -/
def choose (recent : RecentOffsets) (choice : Nat) : Nat × RecentOffsets :=
  match choice with
  | 0 => (recent.first, recent)
  | 1 => (recent.second, ⟨recent.second, recent.first, recent.third⟩)
  | 2 => (recent.third, ⟨recent.third, recent.first, recent.second⟩)
  | _ =>
    let distance := if recent.first = 1 then unreachable else recent.first - 1
    (distance, ⟨distance, recent.first, recent.second⟩)

end RecentOffsets

/-- Reads the distance of an offset code.  A code above one is a distance of that many extra bits.
Codes zero and one choose a recent distance, one further if there are no literals before the
match. -/
def readDistance (recent : RecentOffsets) (code : Nat) (noLiterals : Bool) (r : Backward) :
    Nat × RecentOffsets × Backward :=
  if 2 ≤ code then
    let (low, r) := r.read code
    let distance := 2 ^ code - 3 + low
    (distance, RecentOffsets.push recent distance, r)
  else
    let (low, r) := r.read code
    let choice := code + low + (if noLiterals then 1 else 0)
    let (distance, recent) := RecentOffsets.choose recent choice
    (distance, recent, r)

namespace Sequence

/-- Where the decoding of sequences stands: the three states, the recent distances and the bits. -/
structure Reader where
  literalState : Nat
  offsetState : Nat
  matchState : Nat
  recent : RecentOffsets
  bits : Backward

/-- Reads the first states. -/
def Reader.start (t : SequenceTables) (recent : RecentOffsets) (r : Backward) : Reader :=
  let (literalState, r) := t.literalLengths.start r
  let (offsetState, r) := t.offsets.start r
  let (matchState, r) := t.matchLengths.start r
  ⟨literalState, offsetState, matchState, recent, r⟩

/-- Reads the sequence of the current states. -/
def Reader.current (t : SequenceTables) (s : Reader) : Sequence × Reader :=
  let literalCode := literalLengthCodes.getD (t.literalLengths.entry s.literalState).symbol default
  let matchCode := matchLengthCodes.getD (t.matchLengths.entry s.matchState).symbol default
  let offsetCode := (t.offsets.entry s.offsetState).symbol
  let (distance, recent, r) := readDistance s.recent offsetCode (literalCode.base == 0) s.bits
  let (matchLow, r) := r.read matchCode.extra
  let (literalLow, r) := r.read literalCode.extra
  (⟨literalCode.base + literalLow, matchCode.base + matchLow, distance⟩,
    { s with recent := recent, bits := r })

/-- Reads the next states. -/
def Reader.next (t : SequenceTables) (s : Reader) : Reader :=
  let (literalState, r) := t.literalLengths.advance s.literalState s.bits
  let (matchState, r) := t.matchLengths.advance s.matchState r
  let (offsetState, r) := t.offsets.advance s.offsetState r
  ⟨literalState, offsetState, matchState, s.recent, r⟩

/-- Reads a number of sequences.  No states follow the last one. -/
def Reader.run (t : SequenceTables) (s : Reader) (done : Array Sequence) :
    (count : Nat) → Array Sequence × Reader
  | 0 => (done, s)
  | 1 =>
    let (q, s) := s.current t
    (done.push q, s)
  | count + 2 =>
    let (q, s) := s.current t
    Reader.run t (s.next t) (done.push q) (count + 1)

/-- The sequences of a bit string, the distances they leave, and whether they end exactly with it.
Reading cannot fail: a damaged string yields some sequences too. -/
def readAll (t : SequenceTables) (recent : RecentOffsets) (r : Backward) (count : Nat) :
    List Sequence × RecentOffsets × Bool :=
  let (done, s) := (Reader.start t recent r).run t #[] count
  (done.toList, s.recent, s.bits.ended)

end Sequence

/-- What opens the sequences of a block. -/
structure SequenceHeader where
  /-- The number of sequences. -/
  count : Nat
  /-- The tables, if there are sequences. -/
  tables : Option SequenceTables
  /-- How many bytes the header takes. -/
  size : Nat

namespace SequenceHeader

/-- The table of one part, and how many bytes it takes: a default table, a single symbol, a new
table or the table of the block before. -/
def readTable? (mode : Nat) (limits : Nat × Nat) (standard : StateTable)
    (previous : Option StateTable) (bytes : ByteArray) (start stop : Nat) :
    Option (StateTable × Nat) :=
  match mode with
  | 0 => some (standard, 0)
  | 1 =>
    if start < stop ∧ byteAt bytes start ≤ limits.1 then
      some (.single (byteAt bytes start), 1)
    else none
  | 2 => StateTable.read? bytes start stop limits.1 limits.2
  | _ => previous.map fun t => (t, 0)

/-- The number of sequences and the bytes it takes. -/
def readCount (bytes : ByteArray) (start stop : Nat) : Except CodecError (Nat × Nat) :=
  let first := byteAt bytes start
  if stop < start + 1 then .error .wrongInputSize
  else if first ≤ 127 then .ok (first, 1)
  else if first = 255 then
    if stop < start + 3 then .error .wrongInputSize
    else .ok (littleEndian bytes (start + 1) 2 + 0x7F00, 3)
  else if stop < start + 2 then .error .wrongInputSize
  else .ok ((first - 128) * 256 + byteAt bytes (start + 1), 2)

/-- The three tables and the bytes they take. -/
def readTables? (previous : Option SequenceTables) (modes : Nat) (bytes : ByteArray)
    (start stop : Nat) : Option (SequenceTables × Nat) := do
  let (literalLengths, first) ← readTable? (modes / 64) Dictionary.literalLengthLimits
    defaultLiteralLengths (previous.map (·.literalLengths)) bytes start stop
  let (offsets, second) ← readTable? (modes / 16 % 4) Dictionary.offsetLimits
    defaultOffsets (previous.map (·.offsets)) bytes (start + first) stop
  let (matchLengths, third) ← readTable? (modes / 4 % 4) Dictionary.matchLengthLimits
    defaultMatchLengths (previous.map (·.matchLengths)) bytes (start + first + second) stop
  return (⟨literalLengths, offsets, matchLengths⟩, first + second + third)

/-- Reads what opens the sequences.  Without sequences nothing else may follow. -/
def read (previous : Option SequenceTables) (bytes : ByteArray) (start stop : Nat) :
    Except CodecError SequenceHeader := do
  let (count, size) ← readCount bytes start stop
  if count = 0 then
    if start + size = stop then return ⟨0, none, size⟩ else throw .corruption
  else
    let atModes := start + size
    if stop < atModes + 1 then throw .wrongInputSize
    let modes := byteAt bytes atModes
    if modes % 4 ≠ 0 then throw .corruption
    match readTables? previous modes bytes (atModes + 1) stop with
    | none => throw .corruption
    | some (tables, taken) => return ⟨count, some tables, size + 1 + taken⟩

end SequenceHeader

end SharedDictionary
