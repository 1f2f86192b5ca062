import SharedDictionary.Error
import SharedDictionary.Session.Compressor

/-!
# Compressing a stream in chunks

A reader delivers data in pieces of its own choosing.  The pieces are gathered into chunks of a
fixed size, and every chunk becomes a frame of its own.  An interrupted read is tried again, a
read that delivers nothing ends the chunk, and the stream ends where a chunk would be empty or
something fails.

A stream does not know what writes its frames.  It wants a state and a call that compresses a chunk
(`FrameCompressor`), of which it assumes nothing: a call may succeed for some chunks and fail for a later
one, and change its state in either case.  The sessions of `Session/Compressor` are the instance that runs.

## Main definitions

* `ReadEvent`, `Reader` — what single reads do, and a reader that follows a script of them
* `Reader.fill` — gathers a chunk
* `FrameCompressor` — what a stream hands its chunks to
* `ChunkStream`, `ChunkStream.next` — a stream of frames and its next item
* `ChunkStream.items` — the items up to the end
-/

namespace SharedDictionary

/-- What one read does. -/
inductive ReadEvent where
  /-- It delivers at most so many bytes; none means the end of the input. -/
  | deliver (most : Nat)
  /-- It is interrupted. -/
  | interrupted
  /-- It fails with a text. -/
  | failed (text : String)
  deriving Repr, DecidableEq

/-- A reader of some data that follows a script.  After the script every read delivers as much as is
asked for. -/
structure Reader where
  data : ByteArray
  position : Nat
  script : List ReadEvent

namespace Reader

/-- A reader at the start of its data. -/
def ofScript (data : ByteArray) (script : List ReadEvent) : Reader := ⟨data, 0, script⟩

/-- Delivers at most `most` bytes, appended to a chunk. -/
def deliver (r : Reader) (most : Nat) (chunk : ByteArray) : ByteArray × Reader :=
  let count := min most (r.data.size - r.position)
  (pushRange chunk r.data r.position count, { r with position := r.position + count })

/-- Gathers a chunk of `size` bytes, or of fewer if a read delivers nothing before (`read_full`). -/
def fill (r : Reader) (size : Nat) (chunk : ByteArray) : Except String ByteArray × Reader :=
  if size ≤ chunk.size then (.ok chunk, r)
  else
    match _hscript : r.script with
    | [] =>
      let (chunk, r) := r.deliver (size - chunk.size) chunk
      (.ok chunk, r)
    | .interrupted :: script => fill { r with script := script } size chunk
    | .failed text :: script => (.error text, { r with script := script })
    | .deliver most :: script =>
      let count := min (min most (size - chunk.size)) (r.data.size - r.position)
      let r := { r with script := script }
      if count = 0 then (.ok chunk, r)
      else
        fill { r with position := r.position + count } size
          (pushRange chunk r.data r.position count)
termination_by r.script.length
decreasing_by
  all_goals
    simp only [_hscript, List.length_cons]
    omega

end Reader

/-- What compresses one frame after the other, and the state that it carries from call to call. -/
class FrameCompressor (S : Type) where
  /-- Compresses content into one frame behind some output (`compress_frame`). -/
  compressFrame : S → (content out : ByteArray) → Except DictError Unit × S × ByteArray

instance : FrameCompressor Compressor where
  compressFrame := Compressor.compressFrame

@[simp] theorem compressFrame_session (c : Compressor) (content out : ByteArray) :
    FrameCompressor.compressFrame c content out = c.compressFrame content out := rfl

/-- A stream of frames. -/
structure ChunkStream (S : Type) where
  reader : Reader
  chunkSize : Nat
  compressor : S
  /-- The stream has ended. -/
  done : Bool

namespace ChunkStream

variable {S : Type}

/-- A stream at its start (`compress_stream`).  A chunk must have a size. -/
def start (reader : Reader) (chunkSize : Nat) (compressor : S) : Except Fault (ChunkStream S) :=
  if chunkSize = 0 then .error (.panic "assertion failed: chunk_size > 0")
  else .ok ⟨reader, chunkSize, compressor, false⟩

variable [FrameCompressor S]

/-- The next item: a frame, an error, or nothing. -/
def next (s : ChunkStream S) : Option (Except DictError ByteArray) × ChunkStream S :=
  if s.done then (none, s)
  else
    match s.reader.fill s.chunkSize ByteArray.empty with
    | (.error text, reader) =>
      (some (.error (.codec "read" text)), { s with reader := reader, done := true })
    | (.ok chunk, reader) =>
      if chunk.isEmpty then (none, { s with reader := reader, done := true })
      else
        match FrameCompressor.compressFrame s.compressor chunk ByteArray.empty with
        | (.error e, compressor, _) =>
          (some (.error e), { s with reader := reader, compressor := compressor, done := true })
        | (.ok (), compressor, frame) =>
          (some (.ok frame), { s with reader := reader, compressor := compressor })

/-- The items up to the end.  Every item uses data or a read of the script, and `fuel` is greater
than the number of both. -/
def itemsFrom (s : ChunkStream S) (known : List (Except DictError ByteArray)) :
    (fuel : Nat) → List (Except DictError ByteArray) × ChunkStream S
  | 0 => (known.reverse, s)
  | fuel + 1 =>
    match s.next with
    | (none, s) => (known.reverse, s)
    | (some item, s) => itemsFrom s (item :: known) fuel

/-- The items of a stream up to its end, and the stream after them. -/
def items (s : ChunkStream S) : List (Except DictError ByteArray) × ChunkStream S :=
  s.itemsFrom [] (s.reader.data.size + s.reader.script.length + 1)

end ChunkStream

end SharedDictionary
