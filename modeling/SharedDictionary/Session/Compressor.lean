import SharedDictionary.Dictionary.Digest
import SharedDictionary.Frame.Encode
import SharedDictionary.Session.Config
import SharedDictionary.View

/-!
# Compression sessions

A compressor writes one frame for each call.  A digested or undigested view serves every frame; a
prefix waits for the first frame that is written and is gone after it.

## Main definitions

* `Compressor`, `Compressor.new` — a session and its construction
* `Compressor.compressFrame` — one frame

## Design decisions

* Of the parameters only the checksum reaches the bytes of a frame.  The level and long distance matching
  say how hard a codec tries to save space, which leaves the content of a frame as it is.  The level that is
  in use is shown (`Compressor.effectiveLevel`), but the writer does without both (`Frame/Encode`).
-/

namespace SharedDictionary

/-- A compression session (`ZstdCompressor`). -/
structure Compressor where
  config : SessionConfig
  dict : Option (DictView CompressionDigest)

namespace Compressor

/-- A session with a view, if it has one.  Long distance matching goes with a prefix only. -/
def new (config : SessionConfig) (dict : Option (DictView CompressionDigest)) :
    Except DictError Compressor :=
  match dict with
  | none => .ok ⟨config, none⟩
  | some view =>
    if config.usesLongDistance && view.mode != .prefixed then .error (.incompatible view.mode)
    else .ok ⟨config, some view⟩

/-- A compressor that is made holds what it was given. -/
theorem eq_of_new_eq_ok {config : SessionConfig} {dict : Option (DictView CompressionDigest)}
    {c : Compressor} (h : new config dict = .ok c) : c = ⟨config, dict⟩ := by
  unfold new at h
  split at h
  · exact (Except.ok.inj h).symm
  · split at h
    · cases h
    · exact (Except.ok.inj h).symm

/-- The level of the next frame: that of a digested dictionary wins (`effective_level`). -/
def effectiveLevel (c : Compressor) : Int32 :=
  match c.dict with
  | some (.digested _ digest) => digest.level
  | _ => c.config.effectiveLevel

/-- A prefix waits for the next frame (`has_pending_prefix`). -/
def hasPendingPrefix (c : Compressor) : Bool := c.dict.any (·.isPrefixed)

/-- The dictionary of the next frame.  Undigested content is prepared here. -/
def dictionary (c : Compressor) : Except DictError LoadedDictionary :=
  match c.dict with
  | none => .ok (.plain ByteArray.empty)
  | some (.digested _ digest) => .ok digest.dict
  | some (.undigested content) =>
    match LoadedDictionary.load? content with
    | some dict => .ok dict
    -- Content is only read when the frame is begun, and unreadable tables count as no memory.
    | none => .error (.ofCodec "compress" .allocation)
  | some (.prefixed content) => .ok (.plain content)

/-- The frame of some content (`encode`). -/
def encode (c : Compressor) (content : ByteArray) : Except DictError ByteArray :=
  c.dictionary.map fun dict => encodeFrame dict c.config.usesChecksum content

/-- The session after a frame was written: a prefix is used up. -/
def afterFrame (c : Compressor) : Compressor :=
  if c.hasPendingPrefix then { c with dict := none } else c

/-- Appends the frame of some content to `out`; a failure leaves both as they were
(`compress_frame`). -/
def compressFrame (c : Compressor) (content out : ByteArray) :
    Except DictError Unit × Compressor × ByteArray :=
  match c.encode content with
  | .error e => (.error e, c, out)
  | .ok frame => (.ok (), c.afterFrame, out ++ frame)

/-- The diagnostic text of a session. -/
def diagnostic (c : Compressor) : String :=
  Text.fields "ZstdCompressor"
    [("config", c.config.diagnostic), ("dict", Text.option (c.dict.map (·.diagnostic)))]

end Compressor

end SharedDictionary
