import SharedDictionary.Entropy.CodingState
import SharedDictionary.Frame.CodecError

/-!
# The literals of a block

A compressed block opens with its *literals*, the bytes that its sequences do not copy from what
went before.  They are stored as they are, as a run of one byte, or as Huffman codes with a new
table or the table of an earlier block.

## Main definitions

* `BlockSpace` — how much a block may write, and where
* `Literals` — the literals of a block, how many bytes they take, and the space their block has
* `Literals.read` — reads them
-/

namespace SharedDictionary

open SharedDictionary.Entropy

/-- The space that a block may write to. -/
structure BlockSpace where
  /-- The space that is left. -/
  room : Nat
  /-- The most that a block of this frame should write. -/
  blockLimit : Nat
  /-- The output is one range that is never flushed. -/
  whole : Bool
  deriving Repr

namespace BlockSpace

/-- The most literals that fit. -/
def literalLimit (s : BlockSpace) : Nat := min s.blockLimit s.room

/-- The literals can wait inside the output, behind the block and with a margin of 32 bytes on
either side. -/
def holdsApart (s : BlockSpace) (count : Nat) : Bool :=
  s.whole && s.blockLimit + 64 + count < s.room

/-- The space for the block itself when its literals wait inside the output. -/
def beside (s : BlockSpace) : Nat := s.blockLimit + 32

/-- The space for the block itself, with `count` literals that are decoded or copied before. -/
def roomBeside (s : BlockSpace) (count : Nat) : Nat :=
  if s.holdsApart count then s.beside else s.room

end BlockSpace

/-- The literals of a block. -/
structure Literals where
  /-- The literals. -/
  content : ByteArray
  /-- How many bytes of the block they take. -/
  size : Nat
  /-- How much the block may write. -/
  room : Nat

namespace Literals

/-- The length of the header of raw literals or of a run. -/
def plainHeader (first : Nat) : Nat :=
  match first / 4 % 4 with
  | 1 => 2
  | 3 => 3
  | _ => 1

/-- The number of raw literals, or the length of a run: what the header says above its kind and
form, which take three bits of a single byte and otherwise four. -/
def plainCount (bytes : ByteArray) (start header : Nat) : Nat :=
  if header = 1 then byteAt bytes start / 8 else littleEndian bytes start header / 16

/-- The sizes in the header of coded literals. -/
structure CodedForm where
  /-- The length of the header. -/
  header : Nat
  /-- The number of literals. -/
  count : Nat
  /-- The number of bytes that they take. -/
  stored : Nat
  /-- They are one stream, not four. -/
  single : Bool

/-- Reads the sizes in the header of coded literals. -/
def codedForm (bytes : ByteArray) (start : Nat) : CodedForm :=
  let value := littleEndian bytes start 5
  match byteAt bytes start / 4 % 4 with
  | 2 => ⟨4, value / 2 ^ 4 % 2 ^ 14, value / 2 ^ 18 % 2 ^ 14, false⟩
  | 3 => ⟨5, value / 2 ^ 4 % 2 ^ 18, value / 2 ^ 22 % 2 ^ 18, false⟩
  | form => ⟨3, value / 2 ^ 4 % 2 ^ 10, value / 2 ^ 14 % 2 ^ 10, form == 0⟩

/-- Checks the number of literals that are not coded. -/
def checkCount (space : BlockSpace) (count : Nat) : Except CodecError Unit :=
  if space.blockLimit < count then .error .corruption
  else if space.literalLimit < count then .error .outputTooSmall
  else .ok ()

/-- Literals stored as they are.  Those that end close to the end of the block are copied. -/
def readRaw (space : BlockSpace) (bytes : ByteArray) (start stop : Nat) :
    Except CodecError Literals := do
  let header := plainHeader (byteAt bytes start)
  if stop < start + header then throw .corruption
  let count := plainCount bytes start header
  checkCount space count
  if stop < start + header + count then throw .corruption
  let room :=
    if stop < start + header + count + 32 then space.roomBeside count else space.room
  return ⟨bytes.extract (start + header) (start + header + count), header + count, room⟩

/-- Literals that are a run of one byte. -/
def readRun (space : BlockSpace) (bytes : ByteArray) (start stop : Nat) :
    Except CodecError Literals := do
  let header := plainHeader (byteAt bytes start)
  if stop < start + header + 1 then throw .corruption
  let count := plainCount bytes start header
  checkCount space count
  return ⟨pushRun ByteArray.empty (octetAt bytes (start + header)) count, header + 1,
    space.roomBeside count⟩

/-- The table of coded literals, how many bytes it takes, and whether it is a new one.  A new
table is read in pairs only for four streams, and only where that is expected to be faster. -/
def tableFor (state : CodingState) (fresh : Bool) (bytes : ByteArray) (start : Nat)
    (form : CodedForm) : Option (HuffmanTable × Nat) :=
  if fresh then
    let stop := start + form.header + form.stored
    let paired := !form.single && HuffmanTable.prefersPairs form.count form.stored
    (HuffmanTable.read? bytes (start + form.header) stop paired).filter fun (_, size) =>
      size < form.stored
  else state.huffman.map fun t => (t, 0)

/-- Literals stored as Huffman codes, with a new table or the one that the state holds.  The table
is handed on to the next block. -/
def readCoded (space : BlockSpace) (state : CodingState) (fresh : Bool) (bytes : ByteArray)
    (start stop : Nat) : Except CodecError (Literals × CodingState) := do
  if !fresh && state.huffman.isNone then throw .corruptDictionary
  if stop < start + 5 then throw .corruption
  let form := codedForm bytes start
  if space.blockLimit < form.count then throw .corruption
  if !form.single && form.count < 6 then throw .wrongLiteralsHeader
  if stop < start + form.header + form.stored then throw .corruption
  if space.literalLimit < form.count then throw .outputTooSmall
  match tableFor state fresh bytes start form with
  | none => throw .corruption
  | some (table, size) =>
    let first := start + form.header + size
    let last := start + form.header + form.stored
    let content :=
      if form.single then table.readOne? bytes first last ByteArray.empty form.count
      else table.readFour? bytes first last form.count
    match content with
    | none => throw .corruption
    | some content =>
      return (⟨content, form.header + form.stored, space.roomBeside form.count⟩,
        { state with huffman := some table })

/-- Reads the literals of the block that lies between `start` and `stop`. -/
def read (space : BlockSpace) (state : CodingState) (bytes : ByteArray) (start stop : Nat) :
    Except CodecError (Literals × CodingState) :=
  if stop < start + 2 then .error .corruption
  else
    match byteAt bytes start % 4 with
    | 0 => (readRaw space bytes start stop).map fun l => (l, state)
    | 1 => (readRun space bytes start stop).map fun l => (l, state)
    | 2 => readCoded space state true bytes start stop
    | _ => readCoded space state false bytes start stop

end Literals

end SharedDictionary
