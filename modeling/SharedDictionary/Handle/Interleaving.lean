import SharedDictionary.Handle.Engine

/-!
# Runners that share the artifacts of a handle

Several runners may ask one handle for artifacts at once.  A runner that asks takes small steps,
each of which touches one thing that is shared: it finds the place of the artifact, reads it without
the lock, takes the lock, reads again, builds, publishes what it has built, and lets go of the lock.
The steps of different runners come in any order.

A build is left to the engine: it starts, and ends at some later time with any verdict.

## Main definitions

* `Place` — the place of an artifact, and its lock
* `Activity` — where a runner stands
* `Shared` — what the runners share, where each of them stands, and what has happened
* `Shared.step`, `Shared.run` — what one event does, and what many do, in order

## Design decisions

* A runner stands for one call in progress.  Runners are of any type, so there may be any number of
  them.  The calls that a build makes are runners of their own, for which the build waits.
* The lock of a place notes the runner that holds it.  Nothing but the lock itself depends on that.
* A lock that was abandoned in the middle of a build is poisoned.  It can be taken all the same.
-/

namespace SharedDictionary

/-- The place of an artifact (`DigestSlot`). -/
structure Place (τ α : Type) where
  built : Option (Built α)
  /-- The runner that holds the lock. -/
  holder : Option τ
  /-- A runner broke off while it held the lock. -/
  poisoned : Bool

/-- A place where nothing was built. -/
def Place.vacant {τ α : Type} : Place τ α := ⟨none, none, false⟩

/-- What comes of asking for an artifact. -/
inductive Outcome (α : Type) where
  /-- The artifact, and whether this call has built it. -/
  | returned (artifact : Built α) (built : Bool)
  | failed (e : DictError)
  | panicked (text : String)

/-- A call broke off. -/
def Outcome.isPanic {α : Type} : Outcome α → Bool
  | panicked _ => true
  | _ => false

/-- Where a runner stands. -/
inductive Activity (α : Type) where
  | idle
  /-- About to find the place of the target. -/
  | finding (target : BuildTarget)
  /-- About to read the place without the lock. -/
  | reading (target : BuildTarget)
  /-- About to take the lock. -/
  | waiting (target : BuildTarget)
  /-- About to read the place with the lock. -/
  | rereading (target : BuildTarget)
  | building (target : BuildTarget)
  /-- About to publish what was built. -/
  | publishing (target : BuildTarget) (artifact : Built α)
  /-- About to let go of the lock. -/
  | releasing (target : BuildTarget) (outcome : Outcome α)

/-- Where a call starts: the places of levels are found in a map, and that of the decoder is at
hand. -/
def Activity.entering {α : Type} : BuildTarget → Activity α
  | .level level => finding (.level level)
  | .decoder => reading .decoder

/-- What can be seen to happen. -/
inductive Occurrence (τ α : Type) where
  /-- A build starts. -/
  | started (runner : τ) (target : BuildTarget)
  /-- A build ends, and has succeeded or not. -/
  | ended (runner : τ) (target : BuildTarget) (succeeded : Bool)
  /-- A call returns. -/
  | returned (runner : τ) (target : BuildTarget) (outcome : Outcome α)

/-- What moves the runners on. -/
inductive Event (τ α : Type) where
  /-- An idle runner asks for an artifact. -/
  | ask (runner : τ) (target : BuildTarget)
  /-- A runner takes its next step. -/
  | advance (runner : τ)
  /-- The build of a runner ends. -/
  | finish (runner : τ) (verdict : Verdict α)

/-- What the runners share, where each of them stands, and what has happened. -/
structure Shared (τ α : Type) where
  /-- The places of the targets that were asked for. -/
  places : BuildTarget → Option (Place τ α)
  activity : τ → Activity α
  /-- The number of the next build. -/
  nextStamp : Nat
  /-- What has happened, the latest first. -/
  journal : List (Occurrence τ α)

namespace Shared

variable {τ α : Type}

/-- Nothing was asked for yet.  The decoder has its place from the start. -/
def initial : Shared τ α where
  places target := if target = .decoder then some .vacant else none
  activity _ := .idle
  nextStamp := 0
  journal := []

/-- The place of a target; a target that was not asked for has a vacant one. -/
def place (s : Shared τ α) (target : BuildTarget) : Place τ α := (s.places target).getD .vacant

/-- Sets the place of a target. -/
def setPlace (s : Shared τ α) (target : BuildTarget) (place : Place τ α) : Shared τ α :=
  { s with places := fun other => if other = target then some place else s.places other }

/-- Notes what happens. -/
def note (s : Shared τ α) (occurrence : Occurrence τ α) : Shared τ α :=
  { s with journal := occurrence :: s.journal }

variable [DecidableEq τ]

/-- Moves a runner to where it stands next. -/
def turn (s : Shared τ α) (runner : τ) (activity : Activity α) : Shared τ α :=
  { s with activity := fun other => if other = runner then activity else s.activity other }

/-- A call returns. -/
def reply (s : Shared τ α) (runner : τ) (target : BuildTarget) (outcome : Outcome α) :
    Shared τ α :=
  (s.turn runner .idle).note (.returned runner target outcome)

/-- A runner takes its next step (`get_or_try_init`).  One that builds waits for the engine, and one
that would take a lock waits while another holds it. -/
def advance (s : Shared τ α) (runner : τ) : Shared τ α :=
  match s.activity runner with
  | .idle => s
  | .finding target => (s.setPlace target (s.place target)).turn runner (.reading target)
  | .reading target =>
    match (s.place target).built with
    | some artifact => s.reply runner target (.returned artifact false)
    | none => s.turn runner (.waiting target)
  | .waiting target =>
    match (s.place target).holder with
    | some _ => s
    | none =>
      (s.setPlace target { s.place target with holder := some runner }).turn runner
        (.rereading target)
  | .rereading target =>
    match (s.place target).built with
    | some artifact => s.turn runner (.releasing target (.returned artifact false))
    | none => (s.turn runner (.building target)).note (.started runner target)
  | .building _ => s
  | .publishing target artifact =>
    -- What is published first stays.
    let stored := (s.place target).built.getD artifact
    (s.setPlace target { s.place target with built := some stored }).turn runner
      (.releasing target (.returned stored true))
  | .releasing target outcome =>
    (s.setPlace target { s.place target with
      holder := none, poisoned := (s.place target).poisoned || outcome.isPanic }).reply
        runner target outcome

/-- The build of a runner ends, with which `get_or_try_init` goes on. -/
def finish (s : Shared τ α) (runner : τ) (verdict : Verdict α) : Shared τ α :=
  match s.activity runner with
  | .building target =>
    match verdict with
    | .success value =>
      ({ s with nextStamp := s.nextStamp + 1 }.turn runner
        (.publishing target ⟨value, s.nextStamp⟩)).note (.ended runner target true)
    | .failed e =>
      (s.turn runner (.releasing target (.failed e))).note (.ended runner target false)
    | .panicked text =>
      (s.turn runner (.releasing target (.panicked text))).note (.ended runner target false)
  | _ => s

/-- What one event does.  An event that cannot happen does nothing. -/
def step (s : Shared τ α) (event : Event τ α) : Shared τ α :=
  match event with
  | .ask runner target =>
    match s.activity runner with
    | .idle => s.turn runner (.entering target)
    | _ => s
  | .advance runner => s.advance runner
  | .finish runner verdict => s.finish runner verdict

/-- What some events do, in order. -/
def run (s : Shared τ α) (events : List (Event τ α)) : Shared τ α := events.foldl step s

end Shared

end SharedDictionary
