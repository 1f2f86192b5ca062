import SharedDictionary.Dictionary.Digest
import SharedDictionary.Frame.Stream
import SharedDictionary.Session.Config
import SharedDictionary.View

/-!
# Decompression sessions

A decompressor reads one frame for each call.  A frame that declares the size of its content is
decoded in one go, if the size is within the session's limit; any other is decoded through buffers,
and its content may not grow beyond the limit.

A frame that fails its checksum or asks for another dictionary while a prefix is pending, though
it is complete, was probably made with another prefix.  That is told apart from damage.

## Main definitions

* `Decompressor` — a session
* `Decompressor.decompressFrame` — one frame
* `Decompressor.decompressFrames` — all the frames of an input
-/

namespace SharedDictionary

/-- A decompression session (`ZstdDecompressor`). -/
structure Decompressor where
  config : SessionConfig
  dict : Option (DictView DecompressionDigest)

namespace Decompressor

/-- A prefix waits for the next frame (`has_pending_prefix`). -/
def hasPendingPrefix (d : Decompressor) : Bool := d.dict.any (·.isPrefixed)

/-- The size of the content as the header of an input declares it (`get_frame_content_size`).  A
skippable frame has none, and the greatest number but one is no size. -/
def declaredSize? (input : ByteArray) : Option (Option Nat) :=
  match HeaderScan.read input 0 input.size with
  | .ok (.frame header) =>
    if header.contentSize = some (2 ^ 64 - 2) then none else some header.contentSize
  | .ok (.skippable _) => some (some 0)
  | _ => none

/-- Checks the declared size against the limit of the session (`declared_size`). -/
def checkSize (d : Decompressor) (input : ByteArray) : Except DictError (Option Nat) :=
  match declaredSize? input with
  | none => .error (.codec "read frame header" "input is not a zstd frame")
  | some none => .ok none
  | some (some size) =>
    if d.config.frameLimit < size then
      .error (.codec "decompress" ("frame content size " ++ toString size ++ " exceeds limit "
        ++ toString d.config.frameLimit))
    else .ok (some size)

/-- The dictionary of the next frame.  Undigested content is prepared here; content that is empty is
no dictionary. -/
def dictionary (d : Decompressor) : Except DictError (Option LoadedDictionary) :=
  match d.dict with
  | none => .ok none
  | some (.digested _ digest) => .ok (some digest.dict)
  | some (.undigested content) =>
    if content.isEmpty then .ok none
    else
      match LoadedDictionary.load? content with
      | some dict => .ok (some dict)
      | none => .error (.ofCodec "load undigested dictionary" .allocation)
  | some (.prefixed content) => .ok (if content.isEmpty then none else some (.plain content))

/-- The input is one whole frame. -/
def isWholeFrame (input : ByteArray) : Bool :=
  match frameSize input 0 input.size with
  | .ok size => size == input.size
  | .error _ => false

/-- The failures that another prefix can cause (`MISMATCH_ERRORS`). -/
def suggestsMismatch (e : CodecError) : Bool := e == .wrongChecksum || e == .wrongDictionary

/-- The error that a failure of the codec comes to (`decode_error`). -/
def decodeError (d : Decompressor) (input : ByteArray) (e : CodecError) : DictError :=
  if d.hasPendingPrefix && isWholeFrame input && suggestsMismatch e then
    .contentMismatch e.message
  else .ofCodec "decompress" e

/-- The error that a failure of decoding through buffers comes to. -/
def streamError (d : Decompressor) (input : ByteArray) : StreamFailure → DictError
  | .codec e => d.decodeError input e
  | .limit =>
    .codec "decompress" ("frame output exceeds limit " ++ toString d.config.frameLimit)
  | .truncated => .codec "decompress" "truncated frame"

/-- No range of memory is larger than this. -/
def maxCapacity : Nat := 2 ^ 63 - 1

/-- The content of an input (`decode`). -/
def decode (d : Decompressor) (input : ByteArray) : Except Fault ByteArray :=
  match d.checkSize input with
  | .error e => .error (.error e)
  | .ok declared =>
    match d.dictionary with
    | .error e => .error (.error e)
    | .ok dict =>
      match declared with
      | some size =>
        if maxCapacity < size then .error (.panic "capacity overflow")
        else (decodeWhole dict input size).mapError fun e => .error (d.decodeError input e)
      | none =>
        (decodeStream dict d.hasPendingPrefix input d.config.frameLimit).mapError fun e =>
          .error (d.streamError input e)

/-- The session after a frame was read: a prefix is used up. -/
def afterFrame (d : Decompressor) : Decompressor :=
  if d.hasPendingPrefix then { d with dict := none } else d

/-- Appends the content of a frame to `out`; a failure leaves both as they were (`decompress_frame`). -/
def decompressFrame (d : Decompressor) (input out : ByteArray) :
    Except Fault Unit × Decompressor × ByteArray :=
  match d.decode input with
  | .error e => (.error e, d, out)
  | .ok content => (.ok (), d.afterFrame, out ++ content)

theorem pos_of_frameSize {input : ByteArray} {start stop size : Nat}
    (h : frameSize input start stop = .ok size) : 0 < size := by
  unfold frameSize at h
  split at h
  · simp at h
  · simp at h
  · exact pos_of_skippableSize h
  · rename_i header _
    split at h
    · simp at h
    · rename_i blocks hblocks
      have hlt : start + header.size < blocks := by
        clear h
        generalize start + header.size = first at hblocks ⊢
        fun_induction blocksEnd input first stop with
        | case1 => simp at hblocks
        | case2 => simp at hblocks
        | case3 first block => cases hblocks; exact block.lt_endAfter first
        | case4 first block _ _ _ ih => exact Nat.lt_trans (block.lt_endAfter first) (ih hblocks)
      split at h
      · split at h
        · simp at h
        · simp only [Except.ok.injEq] at h
          omega
      · simp only [Except.ok.injEq] at h
        omega

/-- Decompresses the frames from `start` on, one after the other, up to the first that fails. -/
def decompressFrom (d : Decompressor) (input : ByteArray) (start : Nat) (out : ByteArray) :
    Except Fault ByteArray × Decompressor :=
  if start < input.size then
    match _hsize : frameSize input start input.size with
    | .error e => (.error (.error (.ofCodec "find frame boundary" e)), d)
    | .ok size =>
      match d.decompressFrame (input.extract start (start + size)) out with
      | (.error e, d, _) => (.error e, d)
      | (.ok (), d, out) => decompressFrom d input (start + size) out
  else (.ok out, d)
termination_by input.size - start
decreasing_by
  have := pos_of_frameSize _hsize
  omega

/-- Decompresses all the frames of an input; an input that fails yields nothing
(`decompress_frames`). -/
def decompressFrames (d : Decompressor) (input : ByteArray) :
    Except Fault ByteArray × Decompressor :=
  d.decompressFrom input 0 ByteArray.empty

/-- The diagnostic text of a session. -/
def diagnostic (d : Decompressor) : String :=
  Text.fields "ZstdDecompressor"
    [("config", d.config.diagnostic), ("dict", Text.option (d.dict.map (·.diagnostic)))]

end Decompressor

end SharedDictionary
