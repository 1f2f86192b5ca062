import SharedDictionary.Frame.Header

/-!
# Frame boundaries

Where a frame ends can be told without decoding it: the headers of its blocks tell how many bytes
each takes.

## Main definitions

* `skippableSize` — the length of a skippable frame
* `blocksEnd` — the end of the blocks of a frame
* `frameSize` — the length of the frame at a position
-/

namespace SharedDictionary

/-- The length of the skippable frame at a position with at least eight bytes.  The length must fit
into 32 bits, and the frame into the input. -/
def skippableSize (bytes : ByteArray) (start stop : Nat) : Except CodecError Nat :=
  let size := littleEndian bytes (start + 4) 4 + 8
  if 2 ^ 32 ≤ size then .error .unsupportedFrameParameter
  else if stop < start + size then .error .wrongInputSize
  else .ok size

/-- The end of a block and of the header before it. -/
def BlockHeader.endAfter (block : BlockHeader) (start : Nat) : Nat :=
  start + BlockHeader.size + block.stored

theorem BlockHeader.lt_endAfter (block : BlockHeader) (start : Nat) :
    start < block.endAfter start := by
  simp only [BlockHeader.endAfter, BlockHeader.size]
  omega

/-- The end of the blocks that start at a position, that of the last block. -/
def blocksEnd (bytes : ByteArray) (start stop : Nat) : Except CodecError Nat :=
  match BlockHeader.read bytes start stop with
  | .error e => .error e
  | .ok block =>
    if stop < block.endAfter start then .error .wrongInputSize
    else if block.last then .ok (block.endAfter start)
    else blocksEnd bytes (block.endAfter start) stop
termination_by stop - start
decreasing_by
  have := block.lt_endAfter start
  omega

/-- The length of the frame at `start`, which must be complete before `stop`
(`find_frame_compressed_size`). -/
def frameSize (bytes : ByteArray) (start stop : Nat) : Except CodecError Nat :=
  match HeaderScan.read bytes start stop with
  | .error e => .error e
  | .ok (.needs _) => .error .wrongInputSize
  | .ok (.skippable _) => skippableSize bytes start stop
  | .ok (.frame header) =>
    match blocksEnd bytes (start + header.size) stop with
    | .error e => .error e
    | .ok blocks =>
      if header.checksum then
        if stop < blocks + 4 then .error .wrongInputSize else .ok (blocks + 4 - start)
      else .ok (blocks - start)

end SharedDictionary
