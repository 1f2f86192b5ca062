import SharedDictionary.Frame.Decode

/-!
# Decoding frames through buffers

A frame whose content size is not declared is decoded piece by piece: every block goes into a buffer
of the size that the header asks for, and is then flushed to an output that grows up to a limit.
When another block might no longer fit, the buffer starts over, and what was written before the
restart becomes the history.  The dictionary is out of reach from then on.

Pieces differ from a single range in what they accept.  Blocks larger than the frame's block limit
are refused, empty blocks are skipped whatever their kind, and a raw block is passed on as far as
the input reaches.

## Main definitions

* `StreamFailure` — why a decoding ends without a result
* `StreamOutput` — the bytes flushed so far, and how many there may be
* `streamBlocks`, `streamFrames` — the blocks of a frame and the frames of an input
* `decodeStream` — all the frames of an input, up to a limit
-/

namespace SharedDictionary

/-- Why decoding through buffers ends without a result. -/
inductive StreamFailure where
  /-- The codec failed. -/
  | codec (e : CodecError)
  /-- The output would grow beyond its limit. -/
  | limit
  /-- The input ends inside a frame. -/
  | truncated
  deriving Repr, DecidableEq

/-- The output of a stream. -/
structure StreamOutput where
  /-- The bytes flushed so far. -/
  bytes : ByteArray
  /-- The most bytes there may be. -/
  max : Nat

namespace StreamOutput

/-- The output has no room left. -/
def isFull (o : StreamOutput) : Bool := o.bytes.size == o.max

/-- Appends a range of a window. -/
def flush (o : StreamOutput) (window : ByteArray) (start : Nat) :
    Except StreamFailure StreamOutput :=
  match o with
  | ⟨bytes, max⟩ =>
    if max < bytes.size + (window.size - start) then .error .limit
    else .ok ⟨pushRange bytes window start (window.size - start), max⟩

/-- How the output grows. -/
def growth : Nat := 128 * 1024

/-- The room in front of the next frame: the output grows by `growth` bytes whenever it is full. -/
def room (o : StreamOutput) : Nat :=
  min o.max (growth * (o.bytes.size / growth + 1)) - o.bytes.size

/-- What it means that the input ends inside a frame: an output that is full comes first. -/
def starved (o : StreamOutput) : StreamFailure := if o.isFull then .limit else .truncated

end StreamOutput

/-- The sizes of the buffers for the input and the output, which only grow. -/
structure StreamBuffers where
  input : Nat
  output : Nat
  deriving Repr, DecidableEq, Inhabited

namespace StreamBuffers

/-- The largest window that a stream accepts. -/
def maxWindow : Nat := 2 ^ 27 + 1

/-- The smallest window. -/
def minWindow : Nat := 1024

/-- The buffers that a frame needs: a window, two blocks and a margin for the output, though not
more than the content. -/
def needed (windowSize blockLimit : Nat) (contentSize : Option Nat) : StreamBuffers :=
  let window := max windowSize minWindow
  let full := window + 2 * min (min window maxBlockSize) blockLimit + 64
  ⟨max blockLimit 4, match contentSize with
    | none => full
    | some size => min size full⟩

/-- Both buffers are replaced when one is too small. -/
def adapt (present needs : StreamBuffers) : StreamBuffers :=
  if present.input < needs.input ∨ present.output < needs.output then needs else present

end StreamBuffers

/-- What does not change while the blocks of a frame are decoded. -/
structure StreamFrame where
  header : FrameHeader
  /-- The size of the output buffer. -/
  buffer : Nat
  /-- Where the content of the frame starts in the output. -/
  origin : Nat

/-- The window of a stream: the history, then the part of the buffer that was written since the
buffer last started over. -/
structure StreamWindow where
  bytes : ByteArray
  /-- Where the buffer starts. -/
  segment : Nat

namespace StreamFrame

/-- Starts the buffer over if it is smaller than the content and another block might not fit. -/
def wrap (f : StreamFrame) (w : StreamWindow) : StreamWindow :=
  match w with
  | ⟨bytes, segment⟩ =>
    if f.header.contentSize.all (f.buffer < ·)
        && f.buffer < bytes.size - segment + f.header.blockLimit then
      let kept := bytes.extract segment bytes.size
      ⟨kept, kept.size⟩
    else ⟨bytes, segment⟩

/-- The end of a frame: the checksum, if there is one. -/
def finish (f : StreamFrame) (bytes : ByteArray) (position stop : Nat) (o : StreamOutput) :
    Except StreamFailure (Nat × StreamOutput) :=
  if f.header.checksum then
    if stop < position + 4 then .error o.starved
    else if littleEndian bytes position 4
        = Checksum.low o.bytes f.origin (o.bytes.size - f.origin) then
      .ok (position + 4, o)
    else .error (.codec .wrongChecksum)
  else .ok (position, o)

end StreamFrame

/-- Decodes what there is of a block.  The result tells whether the block was complete. -/
def streamBlock (f : StreamFrame) (d : BlockDecoder) (w : StreamWindow) (block : BlockHeader)
    (bytes : ByteArray) (start stop : Nat) (o : StreamOutput) :
    Except StreamFailure (Bool × BlockDecoder × StreamWindow × StreamOutput) :=
  match w with
  | ⟨window, segment⟩ =>
    let available := min block.stored (stop - start)
    let complete := available == block.stored
    if available = 0 ∨ (!complete ∧ block.kind ≠ .raw) then .error o.starved
    else
      let before := window.size
      -- Only a raw block can be passed on in part; the frame is then cut short.
      let part := if complete then block else { block with length := available }
      let room := f.buffer - (window.size - segment)
      match decodeBlock ⟨room, f.header.blockLimit, false⟩ d window part bytes start with
      | .error e => .error (.codec e)
      | .ok (d, window) =>
        let total := o.bytes.size - f.origin + (window.size - before)
        if f.header.blockLimit < window.size - before then .error (.codec .corruption)
        else if complete && block.last && f.header.contentSize.any (· ≠ total) then
          .error (.codec .corruption)
        else if window.size = before then .ok (complete, d, ⟨window, segment⟩, o)
        else
          match o.flush window before with
          | .error e => .error e
          | .ok o => .ok (complete, d, f.wrap ⟨window, segment⟩, o)

/-- Decodes blocks up to the last one, and the checksum behind it.  The result is the end of the
frame and the output. -/
def streamBlocks (f : StreamFrame) (bytes : ByteArray) (stop start : Nat) (d : BlockDecoder)
    (w : StreamWindow) (o : StreamOutput) : Except StreamFailure (Nat × StreamOutput) :=
  if stop < start + BlockHeader.size then .error o.starved
  else
    match BlockHeader.read bytes start stop with
    | .error e => .error (.codec e)
    | .ok block =>
      if f.header.blockLimit < block.stored then .error (.codec .corruption)
      else if block.stored = 0 then
        if block.last then f.finish bytes (block.endAfter start) stop o
        else streamBlocks f bytes stop (block.endAfter start) d w o
      else
        match streamBlock f d w block bytes (start + BlockHeader.size) stop o with
        | .error e => .error e
        | .ok (complete, d, w, o) =>
          if !complete then .error o.starved
          else if block.last then f.finish bytes (block.endAfter start) stop o
          else streamBlocks f bytes stop (block.endAfter start) d w o
termination_by stop - start
decreasing_by
  all_goals
    have := block.lt_endAfter start
    simp only [BlockHeader.size] at *
    omega

theorem le_of_finish {f : StreamFrame} {bytes : ByteArray} {position stop : Nat}
    {o : StreamOutput} {r : Nat × StreamOutput} (h : f.finish bytes position stop o = .ok r) :
    position ≤ r.1 := by
  unfold StreamFrame.finish at h
  repeat' split at h
  all_goals first | (simp at h; done) | (cases h; simp)

theorem lt_of_streamBlocks {f : StreamFrame} {bytes : ByteArray} {stop start : Nat}
    {d : BlockDecoder} {w : StreamWindow} {o : StreamOutput} {r : Nat × StreamOutput}
    (h : streamBlocks f bytes stop start d w o = .ok r) : start < r.1 := by
  fun_induction streamBlocks f bytes stop start d w o with
  | case1 => simp at h
  | case2 => simp at h
  | case3 => simp at h
  | case4 start _ _ _ _ block =>
    exact Nat.lt_of_lt_of_le (block.lt_endAfter start) (le_of_finish h)
  | case5 start _ _ _ _ block _ _ _ _ ih => exact Nat.lt_trans (block.lt_endAfter start) (ih h)
  | case6 => simp at h
  | case7 => simp at h
  | case8 start _ _ _ _ block =>
    exact Nat.lt_of_lt_of_le (block.lt_endAfter start) (le_of_finish h)
  | case9 start _ _ _ _ block =>
    rename_i ih
    exact Nat.lt_trans (block.lt_endAfter start) (ih h)

/-- What a frame of a stream leaves. -/
structure StreamStep where
  next : Nat
  buffers : StreamBuffers
  output : StreamOutput

/-- A frame whose content is declared, complete in the input and fits the room of the output is
decoded in one go. -/
def inOneGo (header : FrameHeader) (bytes : ByteArray) (start stop : Nat) (o : StreamOutput) :
    Option Nat :=
  match header.contentSize with
  | none => none
  | some size =>
    if size ≤ o.room then (frameSize bytes start stop).toOption else none

/-- Decodes a frame through buffers, or in one go. -/
def streamDataFrame (dict : Option LoadedDictionary) (cold : Bool) (header : FrameHeader)
    (bytes : ByteArray) (start stop : Nat) (buffers : StreamBuffers) (o : StreamOutput) :
    Except StreamFailure StreamStep :=
  match inOneGo header bytes start stop o with
  | some size =>
    match decodeConcatenated dict cold bytes start (start + size) o.room false ByteArray.empty with
    | .error e => .error (.codec e)
    | .ok content => .ok ⟨start + size, buffers, ⟨o.bytes ++ content, o.max⟩⟩
  | none =>
    match checkDictionary dict header with
    | .error e => .error (.codec e)
    | .ok () =>
      if StreamBuffers.maxWindow < header.windowSize then .error (.codec .windowTooLarge)
      else
        let buffers := buffers.adapt (.needed header.windowSize header.blockLimit
          header.contentSize)
        let (history, state) := startingPoint dict
        match streamBlocks ⟨header, buffers.output, o.bytes.size⟩ bytes stop
            (start + header.size) ⟨state, cold⟩ ⟨history, history.size⟩ o with
        | .error e => .error e
        | .ok (next, o) => .ok ⟨next, buffers, o⟩

/-- Decodes or skips the frame at a position. -/
def streamFrame (dict : Option LoadedDictionary) (cold : Bool) (bytes : ByteArray)
    (start stop : Nat) (buffers : StreamBuffers) (o : StreamOutput) :
    Except StreamFailure StreamStep :=
  match HeaderScan.read bytes start stop with
  | .error e => .error (.codec e)
  | .ok (.needs _) => .error o.starved
  | .ok (.skippable length) =>
    if stop < start + 8 + length then .error o.starved
    else .ok ⟨start + 8 + length, buffers.adapt (.needed 0 0 (some length)), o⟩
  | .ok (.frame header) => streamDataFrame dict cold header bytes start stop buffers o

/-- Decodes the frames from `start` on.  Every frame advances, so that `fuel` greater than the
number of bytes is never used up.  A dictionary that serves one frame only is gone after the
first. -/
def streamFrames (dict : Option LoadedDictionary) (once : Bool) (cold : Bool)
    (bytes : ByteArray) (start stop : Nat) (buffers : StreamBuffers) (o : StreamOutput) :
    (fuel : Nat) → Except StreamFailure ByteArray
  | 0 => .error .truncated
  | fuel + 1 =>
    if o.isFull then .error .limit
    else
      match streamFrame dict cold bytes start stop buffers o with
      | .error e => .error e
      | .ok step =>
        if step.next = stop then .ok step.output.bytes
        -- A frame of any kind, a skippable one too, uses up a dictionary that serves one frame.
        else
          streamFrames (if once then none else dict) once false bytes step.next stop step.buffers
            step.output fuel

/-- Decodes all the frames of an input, whose content may together have `max` bytes
(`stream_unsized`). -/
def decodeStream (dict : Option LoadedDictionary) (once : Bool) (bytes : ByteArray) (max : Nat) :
    Except StreamFailure ByteArray :=
  streamFrames dict once dict.isSome bytes 0 bytes.size ⟨0, 0⟩ ⟨ByteArray.empty, max⟩
    (bytes.size + 1)

end SharedDictionary
