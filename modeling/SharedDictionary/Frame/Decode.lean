import SharedDictionary.Checksum
import SharedDictionary.Frame.Block
import SharedDictionary.Frame.Boundary

/-!
# Decoding frames into one range

A frame whose content size is known is decoded in one go, into a range of that capacity.  The input
may hold several frames: they share the range, each starts afresh with the same dictionary, and
skippable frames between them are skipped.

## Main definitions

* `decodeBlocks` — the blocks of a frame
* `decodeFrame` — one frame
* `decodeConcatenated` — all the frames of an input

## Design decisions

* A frame of the versions 0.1 to 0.7 is refused, alone or behind other frames, since its magic number opens no
  frame (`Frame/Header`).
-/

namespace SharedDictionary

/-- What a decoded frame leaves: the position after it, and its content. -/
structure DecodedFrame where
  next : Nat
  content : ByteArray

/-- Decodes blocks up to the last one and gives the position after it.  The window may grow up to
the size `limit`. -/
def decodeBlocks (bytes : ByteArray) (stop limit blockLimit : Nat) (start : Nat)
    (d : BlockDecoder) (window : ByteArray) : Except CodecError (Nat × ByteArray) :=
  match BlockHeader.read bytes start stop with
  | .error e => .error e
  | .ok block =>
    if stop < block.endAfter start then .error .wrongInputSize
    else
      match decodeBlock ⟨limit - window.size, blockLimit, true⟩ d window block bytes
          (start + BlockHeader.size) with
      | .error e => .error e
      | .ok (d, window) =>
        if block.last then .ok (block.endAfter start, window)
        else decodeBlocks bytes stop limit blockLimit (block.endAfter start) d window
termination_by stop - start
decreasing_by
  have := block.lt_endAfter start
  omega

theorem lt_of_decodeBlocks {bytes : ByteArray} {stop limit blockLimit start : Nat}
    {d : BlockDecoder} {window : ByteArray} {r : Nat × ByteArray}
    (h : decodeBlocks bytes stop limit blockLimit start d window = .ok r) :
    start < r.1 ∧ r.1 ≤ stop := by
  fun_induction decodeBlocks bytes stop limit blockLimit start d window with
  | case1 => simp at h
  | case2 => simp at h
  | case3 => simp at h
  | case4 start d window block _ hstop _ _ _ hlast =>
    cases h
    exact ⟨block.lt_endAfter start, by simpa using hstop⟩
  | case5 start d window block _ hstop _ _ _ hlast ih =>
    exact ⟨Nat.lt_trans (block.lt_endAfter start) (ih h).1, (ih h).2⟩

/-- The history and the first state of a frame. -/
def startingPoint (dict : Option LoadedDictionary) : ByteArray × Entropy.CodingState :=
  match dict with
  | none => (ByteArray.empty, .initial)
  | some d => (d.history, d.state)

/-- The identifier that a frame may ask for. -/
def availableId (dict : Option LoadedDictionary) : Nat :=
  match dict with
  | none => 0
  | some d => d.id

/-- A frame that names a dictionary must be given that one. -/
def checkDictionary (dict : Option LoadedDictionary) (header : FrameHeader) :
    Except CodecError Unit :=
  if header.dictId ≠ 0 ∧ header.dictId ≠ availableId dict then .error .wrongDictionary else .ok ()

/-- Reads the header of a frame that must be followed by at least one block header.  The shortest
frame has nine bytes. -/
def readFrameHeader (bytes : ByteArray) (start stop : Nat) : Except CodecError FrameHeader :=
  let length := FrameHeader.lengthOf (byteAt bytes (start + 4))
  if stop < start + 9 ∨ stop < start + length + BlockHeader.size then .error .wrongInputSize
  else
    match HeaderScan.read bytes start (start + length) with
    | .error e => .error e
    | .ok (.frame header) => .ok header
    | .ok _ => .error .wrongInputSize

/-- Checks what follows the last block of a frame that ends at `stop` at the latest: a declared size
must be that of the content, and a checksum must fit.  The result is the end of the frame. -/
def checkContent (header : FrameHeader) (bytes : ByteArray) (position stop : Nat)
    (window : ByteArray) (origin : Nat) : Except CodecError Nat :=
  let size := window.size - origin
  if header.contentSize.any (· ≠ size) then .error .corruption
  else if header.checksum then
    if stop < position + 4 then .error .wrongChecksum
    else if littleEndian bytes position 4 = Checksum.low window origin size then .ok (position + 4)
    else .error .wrongChecksum
  else .ok position

theorem le_of_checkContent {header : FrameHeader} {bytes : ByteArray} {position stop : Nat}
    {window : ByteArray} {origin next : Nat}
    (h : checkContent header bytes position stop window origin = .ok next) : position ≤ next := by
  simp only [checkContent] at h
  repeat' split at h
  all_goals simp at h
  all_goals omega

/-- Decodes the frame that starts at `start`. -/
def decodeFrame (dict : Option LoadedDictionary) (cold : Bool) (bytes : ByteArray)
    (start stop capacity : Nat) : Except CodecError DecodedFrame :=
  match readFrameHeader bytes start stop with
  | .error e => .error e
  | .ok header =>
    match checkDictionary dict header with
    | .error e => .error e
    | .ok () =>
      let (history, state) := startingPoint dict
      match decodeBlocks bytes stop (history.size + capacity) header.blockLimit
          (start + header.size) ⟨state, cold⟩ history with
      | .error e => .error e
      | .ok (position, window) =>
        match checkContent header bytes position stop window history.size with
        | .error e => .error e
        | .ok next => .ok ⟨next, window.extract history.size window.size⟩

theorem lt_of_decodeFrame {dict : Option LoadedDictionary} {cold : Bool} {bytes : ByteArray}
    {start stop capacity : Nat} {r : DecodedFrame}
    (h : decodeFrame dict cold bytes start stop capacity = .ok r) : start < r.next := by
  unfold decodeFrame at h
  repeat' split at h
  all_goals try simp at h
  rename_i hblocks _ _ hcontent
  have hlt := (lt_of_decodeBlocks hblocks).1
  have hle := le_of_checkContent hcontent
  subst h
  simp only at hlt ⊢
  omega

/-- An input shorter than this is no frame. -/
def shortestInput : Nat := 5

/-- The end of the skippable frame at a position, if there is one. -/
def skippableAt (bytes : ByteArray) (start stop : Nat) : Option (Except CodecError Nat) :=
  if isSkippableMagic (littleEndian bytes start 4) then
    if stop < start + 8 then some (.error .wrongInputSize)
    else some (skippableSize bytes start stop)
  else none

theorem pos_of_skippableSize {bytes : ByteArray} {start stop size : Nat}
    (h : skippableSize bytes start stop = .ok size) : 0 < size := by
  simp only [skippableSize] at h
  split at h
  · simp at h
  · split at h
    · simp at h
    · simp at h
      omega

theorem pos_of_skippableAt {bytes : ByteArray} {start stop size : Nat}
    (h : skippableAt bytes start stop = some (.ok size)) : 0 < size := by
  unfold skippableAt at h
  split at h
  · split at h
    · simp at h
    · simp only [Option.some.injEq] at h
      exact pos_of_skippableSize h
  · simp at h

/-- Decodes the frames between `start` and `stop` into what is left of a range, behind what it
already holds.  Bytes that no longer make up a frame, or that open none after a first frame, mean
that the input has the wrong size. -/
def decodeConcatenated (dict : Option LoadedDictionary) (cold : Bool) (bytes : ByteArray)
    (start stop capacity : Nat) (later : Bool) (out : ByteArray) : Except CodecError ByteArray :=
  if start + shortestInput ≤ stop then
    match _hskip : skippableAt bytes start stop with
    | some (.error e) => .error e
    | some (.ok size) =>
      decodeConcatenated dict cold bytes (start + size) stop capacity later out
    | none =>
      match _hframe : decodeFrame dict cold bytes start stop (capacity - out.size) with
      -- Behind a first frame, bytes that open none make the input too long, not another format.
      | .error e => .error (if later && e == .unknownMagic then .wrongInputSize else e)
      | .ok frame =>
        decodeConcatenated dict false bytes frame.next stop capacity true (out ++ frame.content)
  else if start < stop then .error .wrongInputSize
  else .ok out
termination_by stop - start
decreasing_by
  · have := pos_of_skippableAt _hskip
    simp only [shortestInput] at *
    omega
  · have := lt_of_decodeFrame _hframe
    simp only [shortestInput] at *
    omega

/-- Decodes all the frames of an input into a range of the given capacity (`decompress`). -/
def decodeWhole (dict : Option LoadedDictionary) (bytes : ByteArray) (capacity : Nat) :
    Except CodecError ByteArray :=
  decodeConcatenated dict dict.isSome bytes 0 bytes.size capacity false ByteArray.empty

end SharedDictionary
