import SharedDictionary.Dictionary.Content
import SharedDictionary.Error
import SharedDictionary.Telemetry.Snapshot
import SharedDictionary.View

/-!
# Dictionary handles

A handle owns the content of a dictionary and hands out views of it.  Digested artifacts are built
by an engine when they are first asked for, one for each level and one for the decoder, and then
kept for good.  The engine is also asked, once, whether the content has the format of a
dictionary; its answer is remembered, but not that it broke off.

A request may have to wait for the engine, and the engine may make further requests while it
builds.  So a request does not run to its end in one step.  It leaves a *pending* call on a stack;
the engine's answer then resumes the topmost one.

## Main definitions

* `Handle` — the state of a handle
* `Request`, `Reply` — what is asked of a handle, and what comes of it
* `Handle.call`, `Handle.answerCheck`, `Handle.answerBuild`, `Handle.answerDecoder` — the steps
* `Handle.digestState`, `Handle.cachedLevels`, `Handle.snapshot` — what a handle shows

## Design decisions

* Every artifact carries a *stamp*, the number of its build.  Two views share an artifact exactly if
  their stamps agree.
* A slot is held by the build in progress.  The state of a level is read off its slot alone.
* What a definition renders is named in brackets behind its first sentence, by the operation's own name
  (`view_digested`).
-/

namespace SharedDictionary

/-- An artifact and the number of the build that made it. -/
structure Built (α : Type) where
  value : α
  stamp : Nat

/-- The place of an artifact (`DigestSlot`). -/
structure Slot (α : Type) where
  built : Option (Built α)
  /-- A build is in progress. -/
  building : Bool

/-- A place without an artifact. -/
def Slot.vacant {α : Type} : Slot α := ⟨none, false⟩

/-- How far a level has come. -/
inductive DigestState where
  | absent
  | materializing
  | cached
  deriving Repr, DecidableEq

/-- The name of a state. -/
def DigestState.name : DigestState → String
  | absent => "Absent"
  | materializing => "Materializing"
  | cached => "Cached"

/-- How far the artifact of a slot has come (`state`). -/
def Slot.state {α : Type} (s : Slot α) : DigestState :=
  if s.built.isSome then .cached else if s.building then .materializing else .absent

/-- What is asked of a handle and may have to wait for the engine. -/
inductive Request where
  /-- The digest for a level (`view_digested`). -/
  | digested (level : Int32)
  /-- The content, to be prepared for each frame (`view_undigested`). -/
  | undigested
  /-- The digest of the decoder (`decoder_digest`). -/
  | decoder
  deriving Repr, DecidableEq

/-- What a pending call waits for. -/
inductive Stage where
  | checking
  | building
  deriving Repr, DecidableEq

/-- A call that waits for the engine. -/
structure Pending where
  request : Request
  stage : Stage
  deriving Repr, DecidableEq

/-- What the engine answers. -/
inductive Verdict (α : Type) where
  | success (value : α)
  | failed (e : DictError)
  | panicked (text : String)
  deriving Repr

/-- What comes of a request. -/
inductive Reply (A D : Type) where
  | digested (level : Int32) (artifact : Built A)
  | undigested
  | decoder (artifact : Built D)
  | failed (e : DictError)
  | panicked (text : String)
  /-- The request waits for a build that waits for the request. -/
  | blocked

/-- What a step comes to: a call has returned, or the topmost call waits for the engine. -/
inductive Progress (A D : Type) where
  | replied (reply : Reply A D)
  | waiting

/-- What a handle reports. -/
inductive HandleEvent where
  | digestBuilt (level : Int32)
  | digestHit (level : Int32)
  | digestFailed (level : Int32) (e : DictError)
  | decoderBuilt
  deriving Repr, DecidableEq

/-- The state of a handle (`DictionaryHandle`). -/
structure Handle (A D : Type) where
  content : ByteArray
  /-- The content is plain history, whatever it looks like. -/
  isRaw : Bool
  /-- The remembered outcome of the format check. -/
  format : Option (Except DictError Unit)
  /-- The slots of the levels that were asked for. -/
  slots : List (Int32 × Slot A)
  /-- The slot of the decoder. -/
  decoder : Slot D
  counters : Counters
  /-- What was reported, the latest first. -/
  events : List HandleEvent
  /-- The calls that wait for the engine, the topmost first. -/
  pending : List Pending
  /-- The number of the next build. -/
  nextStamp : Nat

namespace Handle

variable {A D : Type}

/-- A handle of which nothing was asked yet (`with_engine`). -/
def new (content : ByteArray) (isRaw : Bool) : Handle A D :=
  ⟨content, isRaw, none, [], .vacant, .zero, [], [], 0⟩

/-- The identifier in the header of the content (`dict_id`). -/
def dictId (h : Handle A D) : Nat := Dictionary.readId h.content

/-! ### Slots -/

/-- The slot of a level, if it was asked for. -/
def slot? (h : Handle A D) (level : Int32) : Option (Slot A) :=
  (h.slots.find? (·.1 == level)).map (·.2)

/-- Sets the slot of a level. -/
def setSlot (h : Handle A D) (level : Int32) (slot : Slot A) : Handle A D :=
  { h with slots := (level, slot) :: h.slots.filter (·.1 != level) }

/-- Counts an event. -/
def count (h : Handle A D) (e : CounterEvent) : Handle A D :=
  { h with counters := h.counters.record e }

/-- Reports an event. -/
def report (h : Handle A D) (e : HandleEvent) : Handle A D := { h with events := e :: h.events }

/-- Leaves a call waiting. -/
def push (h : Handle A D) (p : Pending) : Handle A D := { h with pending := p :: h.pending }

/-- Ends the build in progress of a level, without an artifact. -/
def release (h : Handle A D) (level : Int32) : Handle A D :=
  h.setSlot level { (h.slot? level).getD .vacant with building := false }

/-- Ends the build in progress of the decoder, without an artifact. -/
def releaseDecoder (h : Handle A D) : Handle A D :=
  { h with decoder := { h.decoder with building := false } }

/-! ### Steps -/

/-- A request fails.  Only a digest's failures are counted and reported. -/
def fail (h : Handle A D) (request : Request) (e : DictError) : Handle A D × Progress A D :=
  match request with
  | .digested level =>
    (((h.release level).count .digestFailure).report (.digestFailed level e), .replied (.failed e))
  | .undigested => (h, .replied (.failed e))
  | .decoder => (h.releaseDecoder, .replied (.failed e))

/-- A request breaks off. -/
def breakOff (h : Handle A D) (request : Request) (text : String) :
    Handle A D × Progress A D :=
  match request with
  | .digested level => (h.release level, .replied (.panicked text))
  | .undigested => (h, .replied (.panicked text))
  | .decoder => (h.releaseDecoder, .replied (.panicked text))

/-- A request whose format check has passed: a digest is built next, and content is handed out. -/
def pass (h : Handle A D) (request : Request) : Handle A D × Progress A D :=
  match request with
  | .digested level => (h.push ⟨.digested level, .building⟩, .waiting)
  | .decoder => (h.push ⟨.decoder, .building⟩, .waiting)
  | .undigested => (h.count .undigestedLoad, .replied .undigested)

/-- Makes sure of the format: the remembered outcome decides, or the engine is asked
(`ensure_format`). -/
def ensureFormat (h : Handle A D) (request : Request) : Handle A D × Progress A D :=
  match h.format with
  | some (.ok ()) => h.pass request
  | some (.error e) => h.fail request e
  | none => ((h.count .formatCheck).push ⟨request, .checking⟩, .waiting)

/-- A request arrives: the part of `view_digested`, `view_undigested` and `decoder_digest` in front of
the engine.  A digest that is there is handed out; one that is being built cannot be waited for,
because its build waits for this request. -/
def call (h : Handle A D) (request : Request) : Handle A D × Progress A D :=
  match request with
  | .digested level =>
    let slot := (h.slot? level).getD .vacant
    match slot.built with
    | some artifact =>
      ((h.count .digestHit).report (.digestHit level), .replied (.digested level artifact))
    | none =>
      if slot.building then (h, .replied .blocked)
      -- The slot is taken first, so that the level counts as being built during the check.
      else (h.setSlot level { slot with building := true }).ensureFormat (.digested level)
  | .decoder =>
    match h.decoder.built with
    | some artifact => (h, .replied (.decoder artifact))
    | none =>
      if h.decoder.building then (h, .replied .blocked)
      else { h with decoder := { h.decoder with building := true } }.ensureFormat .decoder
  | .undigested => h.ensureFormat .undigested

/-- The engine answers the format check of the topmost call.  An answer is remembered, a panic is
not. -/
def answerCheck (h : Handle A D) (verdict : Verdict Unit) : Handle A D × Progress A D :=
  match h.pending with
  | ⟨request, .checking⟩ :: rest =>
    let h := { h with pending := rest }
    match verdict with
    | .success () => { h with format := some (.ok ()) }.pass request
    | .failed e => { h with format := some (.error e) }.fail request e
    | .panicked text => h.breakOff request text
  | _ => (h, .waiting)

/-- The engine answers the build of the topmost call, for a level: the rest of `view_digested`. -/
def answerBuild (h : Handle A D) (verdict : Verdict A) : Handle A D × Progress A D :=
  match h.pending with
  | ⟨.digested level, .building⟩ :: rest =>
    let h := { h with pending := rest }
    match verdict with
    | .success value =>
      let artifact : Built A := ⟨value, h.nextStamp⟩
      let h := { h with nextStamp := h.nextStamp + 1 }.setSlot level ⟨some artifact, false⟩
      ((h.count .digestBuilt).report (.digestBuilt level), .replied (.digested level artifact))
    | .failed e => h.fail (.digested level) e
    | .panicked text => h.breakOff (.digested level) text
  | _ => (h, .waiting)

/-- The engine answers the build of the topmost call, for the decoder: the rest of `decoder_digest`. -/
def answerDecoder (h : Handle A D) (verdict : Verdict D) : Handle A D × Progress A D :=
  match h.pending with
  | ⟨.decoder, .building⟩ :: rest =>
    let h := { h with pending := rest }
    match verdict with
    | .success value =>
      let artifact : Built D := ⟨value, h.nextStamp⟩
      let h := { h with nextStamp := h.nextStamp + 1, decoder := ⟨some artifact, false⟩ }
      ((h.count .decoderBuilt).report .decoderBuilt, .replied (.decoder artifact))
    | .failed e => h.fail .decoder e
    | .panicked text => h.breakOff .decoder text
  | _ => (h, .waiting)

/-- A prefix is handed out at once (`view_prefix`). -/
def takePrefix (h : Handle A D) : Handle A D := h.count .prefixLoad

/-! ### What a handle shows -/

/-- How far a level has come (`digested_state`). -/
def digestState (h : Handle A D) (level : Int32) : DigestState :=
  match h.slot? level with
  | none => .absent
  | some slot => slot.state

/-- The levels whose digests are there, ascending (`cached_levels`). -/
def cachedLevels (h : Handle A D) : List Int32 :=
  ((h.slots.filter (·.2.built.isSome)).map (·.1)).mergeSort fun a b => decide (a ≤ b)

/-- What a handle shows of itself (`telemetry`). -/
def snapshot (h : Handle A D) : Snapshot :=
  ⟨UInt32.ofNat h.dictId, UInt64.ofNat h.content.size, h.isRaw, h.cachedLevels, h.counters⟩

/-- The short text of a handle. -/
def display (h : Handle A D) : String :=
  "<ZstdDict dict_id=" ++ toString h.dictId ++ " dict_size=" ++ toString h.content.size
    ++ " is_raw=" ++ Text.bool h.isRaw ++ ">"

/-- The diagnostic text of a handle. -/
def diagnostic (h : Handle A D) : String :=
  Text.fields "DictionaryHandle"
    [("dict_id", toString h.dictId), ("len", toString h.content.size),
      ("is_raw", Text.bool h.isRaw),
      ("cached_levels", Text.bracketed (h.cachedLevels.map Snapshot.levelText))]

/-- The text of a reported event: how grave it is, what happened, and to what. -/
def eventText (h : Handle A D) (e : HandleEvent) : String :=
  let id := " dict_id=" ++ toString h.dictId
  let bytes := " bytes=" ++ toString h.content.size
  let ofLevel (level : Int32) : String := " level=" ++ Snapshot.levelText level
  match e with
  | .digestBuilt level => "DEBUG materialized digested dictionary" ++ bytes ++ id ++ ofLevel level
  | .digestHit level => "TRACE digested dictionary cache hit" ++ id ++ ofLevel level
  | .digestFailed level e =>
    "WARN digested dictionary unavailable" ++ id ++ " error=" ++ e.message ++ ofLevel level
  | .decoderBuilt => "DEBUG materialized decoder dictionary" ++ bytes ++ id

end Handle

end SharedDictionary
