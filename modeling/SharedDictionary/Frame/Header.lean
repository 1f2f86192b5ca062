import SharedDictionary.Bytes
import SharedDictionary.Frame.CodecError

/-!
# Frame headers

A frame opens with a magic number and a descriptor byte that tells which fields follow: a window
size, a dictionary identifier, the size of the content.  A *skippable* frame has a magic number of
its own, then the length of the bytes to skip.

## Main definitions

* `FrameHeader` — the fields of a header
* `HeaderScan`, `HeaderScan.read` — what the bytes at a position show of a header: all of it, or
  that more bytes are needed
* `BlockHeader` — the three bytes before each block
* `pushFrameHeader`, `pushBlockHeader` — the headers of frames that are written

## Design decisions

* Frames are those of the format as it was laid down for good.  Its drafts, the versions 0.1 to 0.7, had other magic
  numbers and other headers.  A codec that is built to read them as well does so; here their numbers are
  as unknown as any other (`CodecError.unknownMagic`).
-/

namespace SharedDictionary

/-- The number that opens a frame. -/
def frameMagic : Nat := 0xFD2FB528

/-- The lowest of the sixteen numbers that open a skippable frame. -/
def skippableMagic : Nat := 0x184D2A50

/-- A number opens a skippable frame; the low four bits are free. -/
def isSkippableMagic (n : Nat) : Bool := n / 16 == skippableMagic / 16

/-- A block holds at most this much content. -/
def maxBlockSize : Nat := 128 * 1024

/-- The fields of a frame's header. -/
structure FrameHeader where
  /-- The size of the content, if it is declared. -/
  contentSize : Option Nat
  /-- How far back the frame's own content may be copied from. -/
  windowSize : Nat
  /-- The identifier of the dictionary that the frame needs, zero for none. -/
  dictId : Nat
  /-- A checksum of the content ends the frame. -/
  checksum : Bool
  /-- The length of the header. -/
  size : Nat
  deriving Repr, DecidableEq, Inhabited

/-- The greatest size of a block, compressed or not. -/
def FrameHeader.blockLimit (h : FrameHeader) : Nat := min h.windowSize maxBlockSize

/-- What some bytes show of a header. -/
inductive HeaderScan where
  /-- The header is not complete: it has at least the given length. -/
  | needs (length : Nat)
  /-- A skippable frame with the given number of bytes after its header of eight. -/
  | skippable (length : Nat)
  /-- A whole header. -/
  | frame (header : FrameHeader)
  deriving Repr, DecidableEq

namespace FrameHeader

/-- Whether the content is its own window. -/
def isSingleSegment (descriptor : Nat) : Bool := descriptor / 32 % 2 == 1

/-- The length of the dictionary identifier. -/
def idLength (descriptor : Nat) : Nat := #[0, 1, 2, 4].getD (descriptor % 4) 0

/-- The length of the content size.  A single segment always has one. -/
def contentSizeLength (descriptor : Nat) : Nat :=
  match descriptor / 64 with
  | 0 => if isSingleSegment descriptor then 1 else 0
  | 1 => 2
  | 2 => 4
  | _ => 8

/-- The length of the window size. -/
def windowLength (descriptor : Nat) : Nat := if isSingleSegment descriptor then 0 else 1

/-- The length of a header with the given descriptor. -/
def lengthOf (descriptor : Nat) : Nat :=
  5 + windowLength descriptor + idLength descriptor + contentSizeLength descriptor

/-- The greatest logarithm of a window. -/
def maxWindowLog : Nat := 31

/-- The content size that a field denotes.  Two bytes count from 256 on, and the greatest number of
eight bytes means that the size is not declared. -/
def contentSizeOf (length value : Nat) : Option Nat :=
  match length with
  | 0 => none
  | 2 => some (value + 256)
  | _ => if value = 2 ^ 64 - 1 then none else some value

/-- The window that a byte denotes: a power of two and some eighths of it. -/
def windowOf (octet : Nat) : Nat :=
  let base := 2 ^ (octet / 8 + 10)
  base + base / 8 * (octet % 8)

/-- Reads the fields after the magic number, all of which are there. -/
def readFields (bytes : ByteArray) (start : Nat) : Except CodecError FrameHeader :=
  let descriptor := byteAt bytes (start + 4)
  if descriptor / 8 % 2 = 1 then .error .unsupportedFrameParameter
  else
    let atId := start + 5 + windowLength descriptor
    let atSize := atId + idLength descriptor
    let window := byteAt bytes (start + 5)
    if !isSingleSegment descriptor && maxWindowLog < window / 8 + 10 then
      .error .windowTooLarge
    else
      let sizeLength := contentSizeLength descriptor
      let value := littleEndian bytes atSize sizeLength
      .ok
        { contentSize := contentSizeOf sizeLength value
          windowSize :=
            if isSingleSegment descriptor then (if sizeLength = 2 then value + 256 else value)
            else windowOf window
          dictId := littleEndian bytes atId (idLength descriptor)
          checksum := descriptor / 4 % 2 == 1
          size := lengthOf descriptor }

end FrameHeader

namespace HeaderScan

/-- The first `count` bytes are those of the little-endian form of a number. -/
def opens (bytes : ByteArray) (start count number : Nat) : Bool :=
  littleEndian bytes start count == number % 256 ^ count

/-- The first bytes can still become one of the magic numbers. -/
def mayOpen (bytes : ByteArray) (start count : Nat) : Bool :=
  opens bytes start count frameMagic
    || (List.range 16).any fun k => opens bytes start count (skippableMagic + k)

/-- What the bytes from `start` to `stop` show of a header. -/
def read (bytes : ByteArray) (start stop : Nat) : Except CodecError HeaderScan :=
  let available := stop - start
  if available < 5 then
    if mayOpen bytes start (min available 4) then .ok (.needs 5) else .error .unknownMagic
  else
    let magic := littleEndian bytes start 4
    if magic = frameMagic then
      let length := FrameHeader.lengthOf (byteAt bytes (start + 4))
      if available < length then .ok (.needs length)
      else (FrameHeader.readFields bytes start).map .frame
    else if isSkippableMagic magic then
      if available < 8 then .ok (.needs 8)
      else .ok (.skippable (littleEndian bytes (start + 4) 4))
    else .error .unknownMagic

end HeaderScan

/-- How a block stores its content. -/
inductive BlockKind where
  | raw
  | run
  | compressed
  deriving Repr, DecidableEq, Inhabited

/-- The three bytes before a block. -/
structure BlockHeader where
  kind : BlockKind
  /-- The frame's last block. -/
  last : Bool
  /-- The length of a run, otherwise of the bytes that follow. -/
  length : Nat
  deriving Repr, DecidableEq, Inhabited

namespace BlockHeader

/-- The length of a block header. -/
def size : Nat := 3

/-- The number of bytes that follow. -/
def stored (b : BlockHeader) : Nat :=
  match b.kind with
  | .run => 1
  | _ => b.length

/-- Reads a block header, all of which must be there. -/
def read (bytes : ByteArray) (start stop : Nat) : Except CodecError BlockHeader :=
  if stop < start + size then .error .wrongInputSize
  else
    let value := littleEndian bytes start 3
    let last := value % 2 == 1
    match value / 2 % 4 with
    | 0 => .ok ⟨.raw, last, value / 8⟩
    | 1 => .ok ⟨.run, last, value / 8⟩
    | 2 => .ok ⟨.compressed, last, value / 8⟩
    | _ => .error .corruption

end BlockHeader

/-- The two bits that name a kind of block. -/
def BlockKind.tag : BlockKind → Nat
  | .raw => 0
  | .run => 1
  | .compressed => 2

/-- Appends a block header. -/
def pushBlockHeader (out : ByteArray) (b : BlockHeader) : ByteArray :=
  pushLittleEndian out (b.length * 8 + b.kind.tag * 2 + (if b.last then 1 else 0)) 3

/-- The bits of a descriptor that tell the length of the content size, and that length. -/
def contentSizeForm (contentSize : Nat) : Nat × Nat :=
  if contentSize < 256 then (0, 1)
  else if contentSize < 256 + 2 ^ 16 then (1, 2)
  else if contentSize < 2 ^ 32 then (2, 4)
  else (3, 8)

/-- The bits of a descriptor that tell the length of the identifier, and that length. -/
def idForm (id : Nat) : Nat × Nat :=
  if id = 0 then (0, 0) else if id < 2 ^ 8 then (1, 1) else if id < 2 ^ 16 then (2, 2) else (3, 4)

/-- Appends the header of a frame whose content is a single segment, with the shortest fields. -/
def pushFrameHeader (out : ByteArray) (contentSize dictId : Nat) (checksum : Bool) : ByteArray :=
  let (sizeBits, sizeLength) := contentSizeForm contentSize
  let (idBits, idLength) := idForm dictId
  let descriptor := sizeBits * 64 + 32 + (if checksum then 4 else 0) + idBits
  let out := pushLittleEndian out frameMagic 4
  let out := pushLittleEndian out descriptor 1
  let out := pushLittleEndian out dictId idLength
  pushLittleEndian out (if sizeLength = 2 then contentSize - 256 else contentSize) sizeLength

end SharedDictionary
