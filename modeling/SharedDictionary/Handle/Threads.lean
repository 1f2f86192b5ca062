import SharedDictionary.Handle.Prewarming

/-!
# Threads that share a handle

Any number of threads use one handle at once: they ask for digests, for undigested content, for a prefix, how
far a level has come, which levels are cached, or for a snapshot.  What they share is guarded in three ways.
The lock of the map guards the slots of the levels, the lock of a slot its build, and the format check is made
by one thread while others wait for it.  These resources are taken in different orders by different calls, and
a build may call the handle back for the digest of another level, on the same thread.

## Main definitions

* `Resource` — what one thread at most can hold
* `Station`, `Thread` — where a thread stands, and the builds that wait for it to come back
* `Threads` — what the threads share, and where each of them stands
* `Threads.plan?` — what a thread may do next: what it changes of what is shared, and where it goes on
* `Threads.step`, `Threads.run` — what one event does, and what many do, in order

## Design decisions

* A step touches one thing that is shared.  The slots are looked at one by one, in any order, and counters are
  read one after the other.
* What the engine does is left open: a format check ends with any verdict, and so does a build, after any
  calls that it may make.  A verdict may be that the engine broke off; then all is let go on the way out.
* A lock that was abandoned in the middle of a build is poisoned, but it can be taken all the same.  So poison
  is not recorded.
-/

namespace SharedDictionary

/-! ### Calls and where they stand -/

/-- What a thread asks of a handle. -/
inductive HandleCall where
  | request (request : Request)
  /-- Content as a prefix (`view_prefix`). -/
  | asPrefix
  /-- How far a level has come (`digested_state`). -/
  | state (level : Int32)
  /-- The levels that are cached (`cached_levels`). -/
  | levels
  /-- A snapshot (`telemetry`). -/
  | telemetry
  deriving Repr, DecidableEq

/-- What one thread at most can hold. -/
inductive Resource where
  /-- The lock of the map of slots. -/
  | map
  /-- The lock of a slot. -/
  | lock (target : BuildTarget)
  /-- The format check. -/
  | check
  deriving Repr, DecidableEq

/-- What a thread takes the lock of the map for. -/
inductive Errand where
  /-- The slot of a level, which is inserted if there is none. -/
  | slot (level : Int32)
  /-- The slot of a level, if there is one. -/
  | look (level : Int32)
  /-- The levels that are cached; the counters may be wanted after them. -/
  | list (counters : Bool)
  deriving Repr, DecidableEq

/-- Where a thread stands in a call.  Making sure of the format is part of a build, or of handing out
content; then there is no target. -/
inductive Station (α : Type) where
  | idle
  /-- About to take the lock of the map. -/
  | entering (errand : Errand)
  /-- About to see to an errand with the lock of the map. -/
  | inside (errand : Errand)
  /-- Looks at the slots of the levels that are left, with the lock of the map. -/
  | surveying (counters : Bool) (left found : List Int32)
  /-- About to read a slot without its lock. -/
  | reading (target : BuildTarget)
  /-- About to take the lock of a slot. -/
  | waiting (target : BuildTarget)
  /-- About to read a slot with its lock. -/
  | rereading (target : BuildTarget)
  /-- About to make sure of the format. -/
  | ensuring (target? : Option BuildTarget)
  /-- About to count a format check. -/
  | announcing (target? : Option BuildTarget)
  /-- The engine checks the format. -/
  | checking (target? : Option BuildTarget)
  /-- The engine builds. -/
  | building (target : BuildTarget)
  /-- About to publish what was built. -/
  | publishing (target : BuildTarget) (artifact : Built α)
  /-- About to let go of the lock of a slot. -/
  | releasing (target : BuildTarget) (outcome : Outcome α)
  /-- About to count what has come of a request. -/
  | counting (target : BuildTarget) (outcome : Outcome α)
  /-- About to count that content is handed out. -/
  | loading
  /-- About to count that a prefix is handed out. -/
  | prefixing
  /-- About to see whether a level is cached. -/
  | glancing (level : Int32)
  /-- About to try the lock of a slot. -/
  | trying (level : Int32)
  /-- About to see whether a level is cached, with the lock of its slot. -/
  | peeking (level : Int32)
  /-- About to let go of the lock that was tried. -/
  | withdrawing (level : Int32) (state : DigestState)
  /-- Reads the counters that are left. -/
  | copying (levels : List Int32) (seen : Counters) (left : List CounterEvent)

/-- Where a call starts. -/
def HandleCall.start {α : Type} : HandleCall → Station α
  | request (.digested level) => .entering (.slot level)
  | request .decoder => .reading .decoder
  | request .undigested => .ensuring none
  | asPrefix => .prefixing
  | state level => .entering (.look level)
  | levels => .entering (.list false)
  | telemetry => .entering (.list true)

/-- What a call returns. -/
inductive Answer (α : Type) where
  | artifact (target : BuildTarget) (outcome : Outcome α)
  | content (verdict : Verdict Unit)
  | asPrefix
  | state (level : Int32) (state : DigestState)
  | levels (levels : List Int32)
  | snapshot (snapshot : Snapshot)

/-- What a step changes of what is shared. -/
inductive Effect (α : Type) where
  | nothing
  | take (resource : Resource)
  | free (resource : Resource)
  /-- Makes sure that a level has a slot, and lets go of the map. -/
  | insert (level : Int32)
  /-- Ends the format check.  A verdict is remembered, but not that the engine broke off. -/
  | settle (verdict : Verdict Unit)
  /-- Gives the next build its number. -/
  | stamp
  | publish (target : BuildTarget) (artifact : Built α)
  | count (event : CounterEvent)

/-- Where a thread goes on. -/
inductive Next (α : Type) where
  | goes (station : Station α)
  /-- A build calls the handle back. -/
  | calls (target : BuildTarget) (level : Int32)
  | returns (answer : Answer α)

/-- A thread: where it stands, and the builds that wait for a call of their own, the innermost first. -/
structure Thread (α : Type) where
  station : Station α
  pending : List BuildTarget

/-- Moves a thread on.  A call returns to the build that has made it. -/
def Thread.follow {α : Type} (x : Thread α) : Next α → Thread α
  | .goes station => ⟨station, x.pending⟩
  | .calls target level => ⟨.entering (.slot level), target :: x.pending⟩
  | .returns _ =>
    match x.pending with
    | [] => ⟨.idle, []⟩
    | target :: pending => ⟨.building target, pending⟩

/-- What happens to a thread. -/
inductive ThreadEvent (α : Type) where
  /-- It is idle, and makes a call. -/
  | ask (call : HandleCall)
  /-- It takes its next step. -/
  | advance
  /-- It looks at the slot of a level. -/
  | visit (level : Int32)
  /-- The format check ends. -/
  | answer (verdict : Verdict Unit)
  /-- The build calls the handle back. -/
  | callBack (level : Int32)
  /-- The build ends. -/
  | finish (verdict : Verdict α)

/-! ### Counters one by one -/

/-- All that is counted, in order. -/
def CounterEvent.all : List CounterEvent :=
  [formatCheck, digestBuilt, digestHit, digestFailure, decoderBuilt, undigestedLoad, prefixLoad]

/-- Reads one counter into those that were read before. -/
def Counters.load (seen c : Counters) : CounterEvent → Counters
  | .formatCheck => { seen with formatChecks := c.formatChecks }
  | .digestBuilt => { seen with digestsBuilt := c.digestsBuilt }
  | .digestHit => { seen with digestHits := c.digestHits }
  | .digestFailure => { seen with digestFailures := c.digestFailures }
  | .decoderBuilt => { seen with decoderDigestsBuilt := c.decoderDigestsBuilt }
  | .undigestedLoad => { seen with undigestedLoads := c.undigestedLoads }
  | .prefixLoad => { seen with prefixLoads := c.prefixLoads }

/-- What the outcome of a request for an artifact counts as.  For the decoder, only builds are counted. -/
def Outcome.countsFor {α : Type} (outcome : Outcome α) : BuildTarget → Option CounterEvent
  | .level _ => outcome.counts
  | .decoder =>
    match outcome with
    | returned _ true => some .decoderBuilt
    | _ => none

/-! ### What threads share -/

/-- What threads share, where each of them stands, and what was answered. -/
structure Threads (τ α : Type) where
  content : ByteArray
  isRaw : Bool
  /-- The levels that have a slot. -/
  keys : List Int32
  built : BuildTarget → Option (Built α)
  /-- The remembered outcome of the format check. -/
  format : Option (Except DictError Unit)
  /-- Who holds what. -/
  owner : Resource → Option τ
  counters : Counters
  /-- The number of the next build. -/
  nextStamp : Nat
  thread : τ → Thread α
  /-- What threads were answered, the latest first. -/
  answers : List (τ × Answer α)

namespace Threads

variable {τ α : Type}

/-- Nothing was asked of the handle yet. -/
def initial (content : ByteArray) (isRaw : Bool) : Threads τ α where
  content
  isRaw
  keys := []
  built _ := none
  format := none
  owner _ := none
  counters := .zero
  nextStamp := 0
  thread _ := ⟨.idle, []⟩
  answers := []

/-- A level is cached. -/
def isCached (s : Threads τ α) (level : Int32) : Bool := (s.built (.level level)).isSome

/-- The snapshot of levels and counters that were read. -/
def snapshot (s : Threads τ α) (levels : List Int32) (seen : Counters) : Snapshot :=
  ⟨UInt32.ofNat (Dictionary.readId s.content), UInt64.ofNat s.content.size, s.isRaw, levels, seen⟩

/-! ### Steps -/

/-- Where a thread goes on once the format is known: to build, or to hand out content. -/
def afterCheck : (target? : Option BuildTarget) → Verdict Unit → Next α
  | some target, .success () => .goes (.building target)
  | some target, .failed e => .goes (.releasing target (.failed e))
  | some target, .panicked text => .goes (.releasing target (.panicked text))
  | none, .success () => .goes .loading
  | none, verdict => .returns (.content verdict)

/-- Where a thread goes on once its build has ended. -/
def afterBuild (s : Threads τ α) (target : BuildTarget) : Verdict α → Effect α × Next α
  | .success value => (.stamp, .goes (.publishing target ⟨value, s.nextStamp⟩))
  | .failed e => (.nothing, .goes (.releasing target (.failed e)))
  | .panicked text => (.nothing, .goes (.releasing target (.panicked text)))

/-- Takes what is free, and goes on. -/
def taking? (s : Threads τ α) (resource : Resource) (station : Station α) :
    Option (Effect α × Next α) :=
  if (s.owner resource).isNone then some (.take resource, .goes station) else none

/-- What a thread does next of its own accord.  One that would take what another holds waits, and so does one
for which the engine is at work. -/
def advance? (s : Threads τ α) : Station α → Option (Effect α × Next α)
  | .idle => none
  | .entering errand => s.taking? .map (.inside errand)
  | .inside (.slot level) => some (.insert level, .goes (.reading (.level level)))
  | .inside (.look level) =>
    some (.free .map, if level ∈ s.keys then .goes (.glancing level) else .returns (.state level .absent))
  | .inside (.list counters) => some (.nothing, .goes (.surveying counters s.keys []))
  | .surveying counters [] found =>
    let levels := found.mergeSort fun a b => decide (a ≤ b)
    some (.free .map,
      if counters then .goes (.copying levels .zero CounterEvent.all) else .returns (.levels levels))
  | .surveying _ (_ :: _) _ => none
  | .reading target =>
    match s.built target with
    | some artifact => some (.nothing, .goes (.counting target (.returned artifact false)))
    | none => some (.nothing, .goes (.waiting target))
  | .waiting target => s.taking? (.lock target) (.rereading target)
  | .rereading target =>
    match s.built target with
    | some artifact => some (.nothing, .goes (.releasing target (.returned artifact false)))
    | none => some (.nothing, .goes (.ensuring (some target)))
  | .ensuring target? =>
    match s.format with
    | some outcome => some (.nothing, afterCheck target? (.ofExcept outcome))
    | none => s.taking? .check (.announcing target?)
  | .announcing target? => some (.count .formatCheck, .goes (.checking target?))
  | .checking _ => none
  | .building _ => none
  | .publishing target artifact =>
    -- What is published first stays.
    let stored := (s.built target).getD artifact
    some (.publish target stored, .goes (.releasing target (.returned stored true)))
  | .releasing target outcome => some (.free (.lock target), .goes (.counting target outcome))
  | .counting target outcome =>
    some (((outcome.countsFor target).map .count).getD .nothing, .returns (.artifact target outcome))
  | .loading => some (.count .undigestedLoad, .returns (.content (.success ())))
  | .prefixing => some (.count .prefixLoad, .returns .asPrefix)
  | .glancing level =>
    some (.nothing, if s.isCached level then .returns (.state level .cached) else .goes (.trying level))
  | .trying level =>
    -- A lock that cannot be taken is not waited for.
    some ((s.taking? (.lock (.level level)) (.peeking level)).getD
      (.nothing, .returns (.state level .materializing)))
  | .peeking level =>
    some (.nothing, .goes (.withdrawing level (if s.isCached level then .cached else .absent)))
  | .withdrawing level state => some (.free (.lock (.level level)), .returns (.state level state))
  | .copying levels seen (event :: left) =>
    some (.nothing, .goes (.copying levels (seen.load s.counters event) left))
  | .copying levels seen [] => some (.nothing, .returns (.snapshot (s.snapshot levels seen)))

/-- What an event makes a thread do: what it changes of what is shared, and where it goes on.  Builds of a
target call the handle back for those levels only that are nested in it. -/
def plan? (nests : BuildTarget → Int32 → Bool) (s : Threads τ α) :
    Station α → ThreadEvent α → Option (Effect α × Next α)
  | .idle, .ask call => some (.nothing, .goes call.start)
  | station, .advance => s.advance? station
  | .surveying counters left found, .visit level =>
    if level ∈ left then
      some (.nothing, .goes (.surveying counters (left.erase level)
        (if s.isCached level then level :: found else found)))
    else none
  | .checking target?, .answer verdict => some (.settle verdict, afterCheck target? verdict)
  | .building target, .callBack level =>
    if nests target level then some (.nothing, .calls target level) else none
  | .building target, .finish verdict => some (s.afterBuild target verdict)
  | _, _ => none

/-- The format check as it is remembered after a verdict. -/
def remembered (s : Threads τ α) : Verdict Unit → Option (Except DictError Unit)
  | .success () => some (.ok ())
  | .failed e => some (.error e)
  | .panicked _ => s.format

/-- Sets who holds something. -/
def own (s : Threads τ α) (resource : Resource) (owner : Option τ) : Threads τ α :=
  { s with owner := fun other => if other = resource then owner else s.owner other }

/-- Changes what is shared, on behalf of a thread. -/
def apply (s : Threads τ α) (thread : τ) : Effect α → Threads τ α
  | .nothing => s
  | .take resource => s.own resource (some thread)
  | .free resource => s.own resource none
  | .insert level => { s.own .map none with keys := if level ∈ s.keys then s.keys else level :: s.keys }
  | .settle verdict => { s.own .check none with format := s.remembered verdict }
  | .stamp => { s with nextStamp := s.nextStamp + 1 }
  | .publish target artifact =>
    { s with built := fun other => if other = target then some artifact else s.built other }
  | .count event => { s with counters := s.counters.record event }

/-- What is answered to a thread that goes on: only calls of its own are. -/
def answered (s : Threads τ α) (thread : τ) : Next α → List (τ × Answer α)
  | .returns answer =>
    match (s.thread thread).pending with
    | [] => (thread, answer) :: s.answers
    | _ :: _ => s.answers
  | _ => s.answers

variable [DecidableEq τ]

/-- Moves a thread on. -/
def move (s : Threads τ α) (thread : τ) (next : Next α) : Threads τ α :=
  { s with
    thread := fun other => if other = thread then (s.thread thread).follow next else s.thread other
    answers := s.answered thread next }

/-- What one event does.  An event that cannot happen does nothing. -/
def step (nests : BuildTarget → Int32 → Bool) (s : Threads τ α) (thread : τ) (event : ThreadEvent α) :
    Threads τ α :=
  match s.plan? nests (s.thread thread).station event with
  | some (effect, next) => (s.apply thread effect).move thread next
  | none => s

/-- What some events do, in order. -/
def run (nests : BuildTarget → Int32 → Bool) (s : Threads τ α) (events : List (τ × ThreadEvent α)) :
    Threads τ α :=
  events.foldl (fun s (thread, event) => s.step nests thread event) s

end Threads

end SharedDictionary
