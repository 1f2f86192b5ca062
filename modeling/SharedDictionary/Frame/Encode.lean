import SharedDictionary.Checksum
import SharedDictionary.Dictionary.Content
import SharedDictionary.Frame.Header
import SharedDictionary.Frame.Sequences

/-!
# Writing frames

Content is cut into pieces that become one block each: bytes as they are, runs of one byte, and
copies of bytes that stand a fixed distance before.  A copy becomes a compressed block without
literals and with a single sequence, whose three codes are the only symbols of their tables, so
that its bit string holds nothing but the extra bits of the distance and of the length.

Where a copy may start is found by the eight bytes it starts with.  What is found is compared byte
by byte before it is used, so that a frame is right whatever was found.

## Main definitions

* `Piece` — a piece of content
* `CopyFinder` — finds where copies may start
* `plan` — cuts content into pieces
* `pushPiece` — appends a piece as a block
* `encodeFrame` — a whole frame

## Design decisions

* The format leaves it to a writer which of the frames of some content it makes.  This writer is not that of
  the codec, whose frames are other ones and mostly shorter.  The headers agree: the size of the content is
  always declared, and so are the identifier and the checksum if there are any.
* There is one way to write.  It knows neither a level nor long distance matching.
-/

namespace SharedDictionary

open SharedDictionary.Entropy

/-- A piece of content. -/
inductive Piece where
  /-- Bytes as they are. -/
  | raw (length : Nat)
  /-- A byte that repeats. -/
  | run (length : Nat)
  /-- Bytes that stand `distance` before. -/
  | copy (distance length : Nat)
  deriving Repr, DecidableEq

/-- The number of bytes of a piece. -/
def Piece.length : Piece → Nat
  | .raw length => length
  | .run length => length
  | .copy _ length => length

/-- A run or a copy shorter than this does not pay for its block. -/
def shortestGain : Nat := 24

/-- No code stands for a distance greater than this. -/
def greatestDistance : Nat := 2 ^ 32 - 4

/-- Finds places that bytes may be copied from.  Nothing depends on what it finds but the size of a
frame. -/
structure CopyFinder (σ : Type) where
  /-- What it knows before any position was entered. -/
  empty : σ
  /-- Enters a position of a window. -/
  enter : σ → ByteArray → Nat → σ
  /-- A position that was entered and may be worth copying from. -/
  find? : σ → ByteArray → Nat → Option Nat

namespace CopyFinder

variable {σ : Type}

/-- Enters a number of positions. -/
@[specialize]
def enterRange (F : CopyFinder σ) (index : σ) (window : ByteArray) (start : Nat) :
    (count : Nat) → σ
  | 0 => index
  | count + 1 => F.enterRange (F.enter index window start) window (start + 1) count

/-- The logarithm of the number of slots of a table of positions. -/
def slotLog : Nat := 15

/-- The slot of the eight bytes at a position: the high bits of a product that all of them reach. -/
def slotAt (window : ByteArray) (position : Nat) : Nat :=
  ((word64At window position * Checksum.prime1) >>> UInt64.ofNat (64 - slotLog)).toNat

/-- Looks a position up by the eight bytes it starts with, in a table that holds one more than a
position in each slot, or zero. -/
def bySlot : CopyFinder (Array Nat) where
  empty := Array.replicate (2 ^ slotLog) 0
  enter index window position := index.setIfInBounds (slotAt window position) (position + 1)
  find? index window position :=
    let known := index.getD (slotAt window position) 0
    if known = 0 then none else some (known - 1)

end CopyFinder

/-- Bytes as they are, in pieces of at most `blockLimit`, pushed in front of the pieces so far. -/
def pushRaw (blockLimit length : Nat) (pieces : List Piece) : List Piece :=
  if blockLimit = 0 ∨ length = 0 then pieces
  else if length ≤ blockLimit then .raw length :: pieces
  else pushRaw blockLimit (length - blockLimit) (.raw blockLimit :: pieces)
termination_by length

/-- The greatest length of a piece at a position. -/
def pieceLimit (window : ByteArray) (blockLimit position : Nat) : Nat :=
  min (window.size - position) blockLimit

/-- The longest run that starts at a position. -/
def runLength (window : ByteArray) (position limit : Nat) : Nat :=
  if limit = 0 then 0 else commonLength window position (position + 1) (limit - 1) + 1

variable {σ : Type}

/-- A copy for the bytes at a position, if one was entered and is long enough. -/
@[specialize]
def proposeCopy (F : CopyFinder σ) (index : σ) (window : ByteArray) (position limit : Nat) :
    Option (Nat × Nat) :=
  match F.find? index window position with
  | none => none
  | some source =>
    if source < position ∧ position ≤ source + greatestDistance then
      let length := commonLength window source position limit
      if shortestGain ≤ length then some (position - source, length) else none
    else none

theorem shortestGain_le_of_proposeCopy {F : CopyFinder σ} {index : σ} {window : ByteArray}
    {position limit distance length : Nat}
    (h : proposeCopy F index window position limit = some (distance, length)) :
    shortestGain ≤ length := by
  unfold proposeCopy at h
  split at h
  · simp at h
  · split at h
    · simp only [Option.ite_none_right_eq_some, Option.some.injEq, Prod.mk.injEq] at h
      omega
    · simp at h

/-- Cuts the bytes from `position` on into pieces, of which those so far are given in reverse.  The
last `pending` bytes before `position` are not in any piece yet. -/
@[specialize]
def planFrom (F : CopyFinder σ) (window : ByteArray) (blockLimit position pending : Nat)
    (index : σ) (pieces : List Piece) : List Piece :=
  if position < window.size then
    if shortestGain ≤ runLength window position (pieceLimit window blockLimit position) then
      let run := runLength window position (pieceLimit window blockLimit position)
      planFrom F window blockLimit (position + run) 0 index
        (.run run :: pushRaw blockLimit pending pieces)
    else
      match _hcopy :
          proposeCopy F index window position (pieceLimit window blockLimit position) with
      | some (distance, length) =>
        planFrom F window blockLimit (position + length) 0
          (F.enterRange index window position length)
          (.copy distance length :: pushRaw blockLimit pending pieces)
      | none =>
        planFrom F window blockLimit (position + 1) (pending + 1)
          (F.enter index window position) pieces
  else pushRaw blockLimit pending pieces
termination_by window.size - position
decreasing_by
  · simp only [shortestGain] at *
    omega
  · have := shortestGain_le_of_proposeCopy _hcopy
    simp only [shortestGain] at *
    omega
  · omega

/-- The pieces of the bytes from `origin` on, of which there is at least one.  Copies may start from
`base` on; fewer bytes than a copy must have are not worth the search. -/
@[specialize]
def plan (F : CopyFinder σ) (window : ByteArray) (base origin blockLimit : Nat) : List Piece :=
  let pieces :=
    if origin + shortestGain ≤ window.size then
      planFrom F window blockLimit origin 0 (F.enterRange F.empty window base (origin - base)) []
    else pushRaw blockLimit (window.size - origin) []
  match pieces with
  | [] => [.raw 0]
  | pieces => pieces.reverse

/-- The code whose range holds a match length, and the range. -/
def matchLengthCode (length : Nat) : Nat × LengthCode :=
  let below := (matchLengthCodes.toList.takeWhile (·.base ≤ length)).length
  (below - 1, matchLengthCodes.getD (below - 1) default)

/-- The bit string of a single copy: the marker and the distance, three more than it is, then the
extra bits of the length.  The highest bit of the distance is the marker. -/
def copyBits (distance length : Nat) (code : LengthCode) : Nat :=
  (distance + 3) * 2 ^ code.extra + (length - code.base)

/-- The modes of three tables with a single symbol each. -/
def singleSymbolModes : Nat := 0x54

/-- The compressed block of a copy: no literals, one sequence, the three symbols, the bits. -/
def copyBlock (distance length : Nat) : ByteArray :=
  let (symbol, code) := matchLengthCode length
  let bits := copyBits distance length code
  let opening : ByteArray :=
    ⟨#[0, 1, UInt8.ofNat singleSymbolModes, 0, UInt8.ofNat (highBit (distance + 3)),
      UInt8.ofNat symbol]⟩
  pushLittleEndian opening bits (highBit bits / 8 + 1)

/-- Appends a piece as a block. -/
def pushPiece (out window : ByteArray) (position : Nat) (last : Bool) (piece : Piece) :
    ByteArray :=
  match piece with
  | .raw length => pushRange (pushBlockHeader out ⟨.raw, last, length⟩) window position length
  | .run length => (pushBlockHeader out ⟨.run, last, length⟩).push (octetAt window position)
  | .copy distance length =>
    let block := copyBlock distance length
    pushBlockHeader out ⟨.compressed, last, block.size⟩ ++ block

/-- Appends the pieces that follow each other from `position` on. -/
def pushPieces (out window : ByteArray) (position : Nat) : List Piece → ByteArray
  | [] => out
  | piece :: rest =>
    pushPieces (pushPiece out window position rest.isEmpty piece) window (position + piece.length)
      rest

/-- A history shorter than this is not worth copying from. -/
def shortestHistory : Nat := 8

/-- Where copies may start in the history of a dictionary. -/
def copyBase (dict : LoadedDictionary) : Nat :=
  if dict.history.size < shortestHistory then dict.history.size else dict.contentStart

/-- A frame of the given content (`compress2`).  Its header declares the size of the content, and
names the dictionary if that has an identifier. -/
def encodeFrame (dict : LoadedDictionary) (checksum : Bool) (content : ByteArray) : ByteArray :=
  let origin := dict.history.size
  let window := dict.history ++ content
  let pieces := plan .bySlot window (copyBase dict) origin (min content.size maxBlockSize)
  let out := pushFrameHeader ByteArray.empty content.size dict.id checksum
  let out := pushPieces out window origin pieces
  if checksum then pushLittleEndian out (Checksum.low window origin content.size) 4 else out

end SharedDictionary
