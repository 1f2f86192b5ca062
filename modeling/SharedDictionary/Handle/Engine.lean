import SharedDictionary.Dictionary.Digest
import SharedDictionary.Handle.State
import SharedDictionary.Mode

/-!
# Serving requests with an engine

An engine answers the format check and builds artifacts.  It has a state of its own, and before it
builds it may make requests of the handle it builds for.

## Main definitions

* `Engine` — what an engine does
* `World` — a handle and the state of its engine
* `serve` — runs a request to its end
* `view`, `viewForDecompression` — views by mode
* `prewarm` — builds several digests
* `codecEngine` — the engine of the codec
-/

namespace SharedDictionary

/-- What an engine builds. -/
inductive BuildTarget where
  | level (level : Int32)
  | decoder
  deriving Repr, DecidableEq

/-- What an engine with states `σ` does (`DictEngine`). -/
structure Engine (σ A D : Type) where
  /-- Checks the format of content. -/
  check : σ → ByteArray → Bool → Verdict Unit × σ
  /-- Starts a build, seeing the handle from inside, and gives the levels that are requested
  first. -/
  prepare : σ → Handle A D → BuildTarget → List Int32 × σ
  /-- Ends the build for a level. -/
  build : σ → ByteArray → Int32 → Verdict A × σ
  /-- Ends the build for the decoder. -/
  buildDecoder : σ → ByteArray → Verdict D × σ

/-- A handle and the state of its engine. -/
structure World (σ A D : Type) where
  handle : Handle A D
  engine : σ

variable {σ A D : Type}

/-- Lets the engine answer a format check if the topmost call waits for one. -/
def settleCheck (E : Engine σ A D) (w : World σ A D) (p : Progress A D) :
    World σ A D × Progress A D :=
  match p, w.handle.pending with
  | .waiting, ⟨_, .checking⟩ :: _ =>
    let (verdict, state) := E.check w.engine w.handle.content w.handle.isRaw
    let (handle, p) := w.handle.answerCheck verdict
    (⟨handle, state⟩, p)
  | p, _ => (w, p)

/-- Ends the build of the topmost call: it breaks off if a request made by it did, and otherwise as
the engine says. -/
def settleBuild (E : Engine σ A D) (w : World σ A D) (brokenOff : Option String) :
    World σ A D × Progress A D :=
  match w.handle.pending with
  | ⟨.digested level, _⟩ :: _ =>
    let (verdict, state) := match brokenOff with
      | some text => (.panicked text, w.engine)
      | none => E.build w.engine w.handle.content level
    let (handle, p) := w.handle.answerBuild verdict
    (⟨handle, state⟩, p)
  | ⟨.decoder, _⟩ :: _ =>
    let (verdict, state) := match brokenOff with
      | some text => (.panicked text, w.engine)
      | none => E.buildDecoder w.engine w.handle.content
    let (handle, p) := w.handle.answerDecoder verdict
    (⟨handle, state⟩, p)
  | _ => (w, .waiting)

/-- Starts the build of the topmost call, and gives the levels that it requests. -/
def startBuild (E : Engine σ A D) (w : World σ A D) : List Int32 × World σ A D :=
  match w.handle.pending with
  | ⟨.digested level, _⟩ :: _ =>
    let (levels, state) := E.prepare w.engine w.handle (.level level)
    (levels, ⟨w.handle, state⟩)
  | ⟨.decoder, _⟩ :: _ =>
    let (levels, state) := E.prepare w.engine w.handle .decoder
    (levels, ⟨w.handle, state⟩)
  | _ => ([], w)

/-- The reply of a step after which nothing is left to do. -/
def Progress.reply (p : Progress A D) : Reply A D :=
  match p with
  | .replied reply => reply
  | .waiting => .blocked

/-- Runs a request to its end.  Builds nest at most as deep as `depth`; a request beyond it is
blocked. -/
def serve (E : Engine σ A D) : (depth : Nat) → Request → World σ A D → Reply A D × World σ A D
  | 0, _, w => (.blocked, w)
  | depth + 1, request, w =>
    let (handle, p) := w.handle.call request
    match settleCheck E ⟨handle, w.engine⟩ p with
    | (w, .replied reply) => (reply, w)
    | (w, .waiting) =>
      let (levels, w) := startBuild E w
      let (brokenOff, w) := levels.foldl
        (fun (brokenOff, w) level =>
          if Option.isSome brokenOff then (brokenOff, w)
          else
            match serve E depth (.digested level) w with
            | (.panicked text, w) => (some text, w)
            | (_, w) => (none, w))
        ((none : Option String), w)
      let (w, p) := settleBuild E w brokenOff
      (p.reply, w)

/-- A view for a compressor at a level (`view`). -/
def view (E : Engine σ A D) (depth : Nat) (mode : DictMode) (level : Int32) (w : World σ A D) :
    Except Fault (DictView (Built A)) × World σ A D :=
  match mode with
  | .prefixed =>
    (.ok (.prefixed w.handle.content), { w with handle := w.handle.takePrefix })
  | .digested =>
    match serve E depth (.digested level) w with
    | (.digested level artifact, w) => (.ok (.digested (some level) artifact), w)
    | (.failed e, w) => (.error (.error e), w)
    | (.panicked text, w) => (.error (.panic text), w)
    | (_, w) => (.error (.panic "blocked"), w)
  | .undigested =>
    match serve E depth .undigested w with
    | (.undigested, w) => (.ok (.undigested w.handle.content), w)
    | (.failed e, w) => (.error (.error e), w)
    | (.panicked text, w) => (.error (.panic text), w)
    | (_, w) => (.error (.panic "blocked"), w)

/-- A view for a decompressor (`view_for_decompression`). -/
def viewForDecompression (E : Engine σ A D) (depth : Nat) (mode : DictMode) (w : World σ A D) :
    Except Fault (DictView (Built D)) × World σ A D :=
  match mode with
  | .prefixed =>
    (.ok (.prefixed w.handle.content), { w with handle := w.handle.takePrefix })
  | .digested =>
    match serve E depth .decoder w with
    | (.decoder artifact, w) => (.ok (.digested none artifact), w)
    | (.failed e, w) => (.error (.error e), w)
    | (.panicked text, w) => (.error (.panic text), w)
    | (_, w) => (.error (.panic "blocked"), w)
  | .undigested =>
    match serve E depth .undigested w with
    | (.undigested, w) => (.ok (.undigested w.handle.content), w)
    | (.failed e, w) => (.error (.error e), w)
    | (.panicked text, w) => (.error (.panic text), w)
    | (_, w) => (.error (.panic "blocked"), w)

/-- Two views of one side of a handle share what they hold: the same artifact, or the content of the
handle loaded the same way (`ptr_eq`). -/
def DictView.shares {α : Type} (v w : DictView (Built α)) : Bool :=
  match v, w with
  | .digested _ a, .digested _ b => a.stamp == b.stamp
  | .undigested _, .undigested _ => true
  | .prefixed _, .prefixed _ => true
  | _, _ => false

/-- The view of an artifact without its stamp, as sessions take it. -/
def DictView.unstamped {α : Type} (v : DictView (Built α)) : DictView α :=
  match v with
  | .digested level artifact => .digested level artifact.value
  | .undigested content => .undigested content
  | .prefixed content => .prefixed content

/-- What building a digest ahead comes to. -/
def prewarmOutcome (reply : Reply A D) : Except DictError Unit :=
  match reply with
  | .failed e => .error e
  | .panicked _ => .error (.state "prewarm worker panicked")
  | _ => .ok ()

/-- Asks for the digests of several levels, one after the other, whether or not they can be had. -/
def serveAll (E : Engine σ A D) (depth : Nat) (levels : List Int32) (w : World σ A D) :
    List (Reply A D) × World σ A D :=
  match levels with
  | [] => ([], w)
  | level :: levels =>
    let (reply, w) := serve E depth (.digested level) w
    let (replies, w) := serveAll E depth levels w
    (reply :: replies, w)

/-- Builds the digests of several levels (`prewarm_digested`).  The result is the first failure in
their order; digests that could be built stay. -/
def prewarm (E : Engine σ A D) (depth : Nat) (levels : List Int32) (w : World σ A D) :
    Except DictError Unit × World σ A D :=
  let (replies, w) := serveAll E depth levels w
  (replies.foldl (fun outcome reply =>
    match outcome with
    | .ok () => prewarmOutcome reply
    | .error e => .error e) (.ok ()), w)

/-- An outcome as an engine's answer. -/
def Verdict.ofExcept {α : Type} (r : Except DictError α) : Verdict α :=
  match r with
  | .ok value => .success value
  | .error e => .failed e

/-- The engine of the codec: it has no state and makes no requests (`ZstdEngine`). -/
def codecEngine : Engine Unit CompressionDigest DecompressionDigest where
  check _ content isRaw := (.ofExcept (checkFormat content isRaw), ())
  prepare _ _ _ := ([], ())
  build _ content level := (.ofExcept (buildDigest content level), ())
  buildDecoder _ content := (.ofExcept (buildDecoderDigest content), ())

/-- Builds of the codec's engine do not nest. -/
def codecDepth : Nat := 1

/-- A dictionary served by the codec's engine (`ZstdDict`). -/
abbrev SharedDict := World Unit CompressionDigest DecompressionDigest

/-- A dictionary of some content. -/
def SharedDict.new (content : ByteArray) (isRaw : Bool) : SharedDict := ⟨.new content isRaw, ()⟩

end SharedDictionary
