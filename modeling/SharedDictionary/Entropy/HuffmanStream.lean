import SharedDictionary.Entropy.Huffman

/-!
# Streams of Huffman codes

Symbols are stored as one stream, or as four that hold a quarter of them each and start with a table
of the lengths of the first three.  A single stream must end exactly with its last symbol.

Four streams that are long enough are read together, in rounds of five lookups each.  The rounds
count on enough input being left for the first stream and do not look at where a stream starts; what
remains of each is then read on its own, from the position that the rounds reached, and is not
required to end exactly.  On well-formed streams this gives the same symbols as reading them one by
one, and it decides what a damaged one yields.

## Main definitions

* `readOne?` — a single stream
* `readFour?` — four streams
* `prefersPairs` — which way of reading a table is expected to be faster, a property of the sizes
-/

namespace SharedDictionary.Entropy.HuffmanTable

open SharedDictionary.Bits

/-- Reads a number of symbols, one with each lookup. -/
def readSingles (t : HuffmanTable) (r : Backward) (out : ByteArray) :
    (count : Nat) → Backward × ByteArray
  | 0 => (r, out)
  | count + 1 =>
    let i := r.peek t.log
    readSingles t (r.skip (t.length i)) (out.push (t.symbol i)) count

/-- Reads the last symbol where lookups yield two: a pair counts with all its bits, but not beyond
the end of the stream. -/
def readLast (t : HuffmanTable) (r : Backward) (out : ByteArray) : Backward × ByteArray :=
  let i := r.peek t.log
  let out := out.push (t.symbol i)
  if t.isPair i then
    if 0 < r.left then
      ({ r with left := max 0 (r.left - t.length i - t.length (t.after i)) }, out)
    else (r, out)
  else (r.skip (t.length i), out)

/-- Reads a number of symbols, up to two with each lookup. -/
def readPairs (t : HuffmanTable) (r : Backward) (out : ByteArray) :
    (count : Nat) → Backward × ByteArray
  | 0 => (r, out)
  | 1 => readLast t r out
  | count + 2 =>
    let i := r.peek t.log
    let first := t.length i
    let j := t.after i
    if t.isPair i then
      readPairs t (r.skip (first + t.length j)) ((out.push (t.symbol i)).push (t.symbol j)) count
    else readPairs t (r.skip first) (out.push (t.symbol i)) (count + 1)

/-- Reads a number of symbols the way the table is read. -/
def readSymbols (t : HuffmanTable) (r : Backward) (out : ByteArray) (count : Nat) :
    Backward × ByteArray :=
  if t.paired then readPairs t r out count else readSingles t r out count

/-- A single stream of `count` symbols, which ends exactly with the last one. -/
def readOne? (t : HuffmanTable) (bytes : ByteArray) (start stop : Nat) (out : ByteArray)
    (count : Nat) : Option ByteArray :=
  match Backward.open? bytes start stop with
  | none => none
  | some r =>
    let (r, out) := readSymbols t r out count
    if r.ended then some out else none

/-- The bounds of four streams: the ends of each and the number of symbols in each. -/
structure FourStreams where
  bytes : ByteArray
  /-- Where the table of lengths starts. -/
  start : Nat
  /-- Where the first stream starts. -/
  bound0 : Nat
  bound1 : Nat
  bound2 : Nat
  bound3 : Nat
  /-- Where the last stream ends. -/
  stop : Nat
  /-- The number of symbols in each of the first three streams. -/
  segment : Nat
  /-- The number of symbols in the last stream. -/
  lastSegment : Nat

/-- Reads the table of lengths; all streams must lie in the range. -/
def FourStreams.open? (bytes : ByteArray) (start stop count : Nat) : Option FourStreams :=
  let segment := (count + 3) / 4
  let bound0 := start + 6
  let bound1 := bound0 + littleEndian bytes start 2
  let bound2 := bound1 + littleEndian bytes (start + 2) 2
  let bound3 := bound2 + littleEndian bytes (start + 4) 2
  if start + 10 ≤ stop ∧ bound3 ≤ stop ∧ 3 * segment ≤ count then
    some ⟨bytes, start, bound0, bound1, bound2, bound3, stop, segment, count - 3 * segment⟩
  else none

/-- Reads four streams one by one. -/
def FourStreams.readEach? (s : FourStreams) (t : HuffmanTable) : Option ByteArray := do
  let out ← readOne? t s.bytes s.bound0 s.bound1 ByteArray.empty s.segment
  let out ← readOne? t s.bytes s.bound1 s.bound2 out s.segment
  let out ← readOne? t s.bytes s.bound2 s.bound3 out s.segment
  readOne? t s.bytes s.bound3 s.stop out s.lastSegment

/-- One of four streams that are read together: the position of the loaded word, its used bits, and
the symbols read so far. -/
structure Lane where
  position : Nat
  used : Nat
  out : ByteArray
  deriving Inhabited

/-- A lane that starts at the marker of a stream which ends at `stop`.  A zero byte has no marker
and counts as none used. -/
def Lane.open (bytes : ByteArray) (stop : Nat) : Lane :=
  let last := byteAt bytes (stop - 1)
  ⟨stop - 8, if last = 0 then 0 else 8 - highBit last, ByteArray.empty⟩

/-- A number of lookups in the word of a lane. -/
def Lane.lookups (t : HuffmanTable) (word : UInt64) (used : Nat) (out : ByteArray) :
    (count : Nat) → Nat × ByteArray
  | 0 => (used, out)
  | count + 1 =>
    let i := (word >>> 53).toNat
    let first := t.length i
    let j := t.after i
    if t.paired && t.isPair i then
      let taken := first + t.length j
      Lane.lookups t (word <<< UInt64.ofNat taken) (used + taken)
        ((out.push (t.symbol i)).push (t.symbol j)) count
    else
      Lane.lookups t (word <<< UInt64.ofNat first) (used + first) (out.push (t.symbol i)) count

/-- Five lookups, after which the used bytes of the word are dropped. -/
def Lane.step (bytes : ByteArray) (t : HuffmanTable) (lane : Lane) : Lane :=
  -- The lowest bit is set as a marker; five code words never reach it on a well-formed stream.
  let word := (word64At bytes lane.position ||| 1) <<< UInt64.ofNat lane.used
  let (used, out) := Lane.lookups t word lane.used lane.out 5
  ⟨lane.position - used / 8, used % 8, out⟩

/-- The four lanes. -/
structure Lanes where
  a : Lane
  b : Lane
  c : Lane
  d : Lane
  deriving Inhabited

/-- One round on every lane. -/
def Lanes.step (bytes : ByteArray) (t : HuffmanTable) (l : Lanes) : Lanes :=
  ⟨l.a.step bytes t, l.b.step bytes t, l.c.step bytes t, l.d.step bytes t⟩

/-- How many rounds are safe: each uses at most seven bytes of the first stream, and yields at most
five symbols of every stream, ten if lookups yield two. -/
def Lanes.safeRounds (s : FourStreams) (t : HuffmanTable) (l : Lanes) : Nat :=
  let byInput := (l.a.position - s.start) / 7
  if t.paired then
    min byInput (min (min ((s.segment - l.a.out.size) / 10) ((s.segment - l.b.out.size) / 10))
      (min ((s.segment - l.c.out.size) / 10) ((s.lastSegment - l.d.out.size) / 10)))
  else min byInput ((s.lastSegment - l.d.out.size) / 5)

/-- The lanes are where they started, in order; one that has overtaken another shows damage. -/
def Lanes.ordered (l : Lanes) : Bool :=
  l.a.position ≤ l.b.position && l.b.position ≤ l.c.position && l.c.position ≤ l.d.position

/-- Runs rounds until the last stream has `target` symbols; `fuel` bounds their number. -/
def Lanes.runTo (bytes : ByteArray) (t : HuffmanTable) (target : Nat) (l : Lanes) :
    (fuel : Nat) → Lanes
  | 0 => l
  | fuel + 1 =>
    let l := l.step bytes t
    if l.d.out.size < target then Lanes.runTo bytes t target l fuel else l

/-- Runs safe rounds as long as there are any and the lanes stay in order.  Every batch of rounds
yields symbols of the last stream, so as many batches as it has symbols are enough. -/
def Lanes.run (s : FourStreams) (t : HuffmanTable) (l : Lanes) : (fuel : Nat) → Lanes
  | 0 => l
  | fuel + 1 =>
    let rounds := l.safeRounds s t
    if rounds = 0 then l
    else if l.ordered then
      Lanes.run s t (Lanes.runTo s.bytes t (l.d.out.size + 5 * rounds) l rounds) fuel
    else l

/-- Reads what the rounds left of a stream that starts at `bound`, and completes its symbols. -/
def Lane.finish? (s : FourStreams) (t : HuffmanTable) (lane : Lane) (bound count : Nat) :
    Option ByteArray :=
  if lane.position + 8 < bound then none
  else
    let left : Int := 8 * ((lane.position : Int) - s.start) + 64 - lane.used
    some (readSymbols t ⟨s.bytes, s.start, s.stop, left⟩ lane.out (count - lane.out.size)).2

/-- Reads four streams together. -/
def FourStreams.readTogether? (s : FourStreams) (t : HuffmanTable) : Option ByteArray := do
  let opened : Lanes := ⟨.open s.bytes s.bound1, .open s.bytes s.bound2, .open s.bytes s.bound3,
    .open s.bytes s.stop⟩
  let l := opened.run s t s.lastSegment
  let a ← l.a.finish? s t s.bound0 s.segment
  let b ← l.b.finish? s t s.bound1 s.segment
  let c ← l.c.finish? s t s.bound2 s.segment
  let d ← l.d.finish? s t s.bound3 s.lastSegment
  return a ++ b ++ c ++ d

/-- Streams of at least eight bytes each can be read together, if a lookup looks at eleven bits and
the last stream has a symbol. -/
def FourStreams.together (s : FourStreams) (t : HuffmanTable) : Bool :=
  t.log == 11 && s.bound0 + 8 ≤ s.bound1 && s.bound1 + 8 ≤ s.bound2 && s.bound2 + 8 ≤ s.bound3
    && s.bound3 + 8 ≤ s.stop && 0 < s.lastSegment

/-- Four streams of together `count` symbols. -/
def readFour? (t : HuffmanTable) (bytes : ByteArray) (start stop count : Nat) :
    Option ByteArray := do
  let s ← FourStreams.open? bytes start stop count
  if s.together t then s.readTogether? t else s.readEach? t

/-- The expected costs of reading one symbol and two with a lookup: the cost of building the table
and of 256 symbols, by the compression ratio in sixteenths. -/
def costs : Array ((Nat × Nat) × (Nat × Nat)) :=
  #[((0, 0), (1, 1)), ((0, 0), (1, 1)), ((150, 216), (381, 119)), ((170, 205), (514, 112)),
    ((177, 199), (539, 110)), ((197, 194), (644, 107)), ((221, 192), (735, 107)),
    ((256, 189), (881, 106)), ((359, 188), (1167, 109)), ((582, 187), (1570, 114)),
    ((688, 187), (1712, 122)), ((825, 186), (1965, 136)), ((976, 185), (2131, 150)),
    ((1180, 186), (2070, 175)), ((1377, 185), (1731, 202)), ((1412, 185), (1695, 202))]

/-- Whether `count` symbols in `size` bytes are expected to be read faster in pairs; pairs must be
better by a thirty-second. -/
def prefersPairs (count size : Nat) : Bool :=
  let ratio := if count ≤ size then 15 else size * 16 / count
  let (single, pair) := costs.getD ratio ((0, 0), (0, 0))
  let rounds := count / 256
  let singleCost := single.1 + single.2 * rounds
  let pairCost := pair.1 + pair.2 * rounds
  pairCost + pairCost / 32 < singleCost

end SharedDictionary.Entropy.HuffmanTable
