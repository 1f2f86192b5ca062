import SharedDictionary.Handle.Interleaving

/-!
# Observers of shared artifacts

While runners ask for artifacts, observers may ask how far a level has come.  An observer takes small steps
too: it finds the place of the level, reads it without the lock, tries the lock, reads again under the lock,
and lets go of it.  It never waits: a lock that it cannot take is what it knows a build by.

To find out whether anyone holds the lock, an observer takes it.  From then until it lets go, nobody else can
take the lock, neither a runner nor another observer.

## Main definitions

* `Glance` — where an observer stands
* `Report` — what an observer has returned, and when
* `Observed` — what runners and observers share, and what was reported
* `Observed.step`, `Observed.run` — what one event does, and what many do, in order

## Design decisions

* An observer stands for one thread that asks again and again.  Observers are of any type, as runners are.
* Every event counts as a moment, whether or not it can happen, so that a report can say between which
  moments it came about.  Nothing else depends on the clock.
-/

namespace SharedDictionary

/-- Where an observer stands. -/
inductive Glance where
  | idle
  /-- About to find the place of the level. -/
  | finding (level : Int32)
  /-- About to read the place without the lock. -/
  | reading (level : Int32)
  /-- About to try the lock. -/
  | trying (level : Int32)
  /-- About to read the place with the lock. -/
  | rereading (level : Int32)
  /-- About to let go of the lock, and to return a state. -/
  | releasing (level : Int32) (state : DigestState)

/-- What an observer has returned. -/
structure Report (ω : Type) where
  observer : ω
  level : Int32
  /-- The number of events before the observer asked. -/
  asked : Nat
  /-- The number of events before it returned. -/
  returned : Nat
  state : DigestState

/-- What moves runners and observers on. -/
inductive ObservedEvent (τ ω α : Type) where
  /-- An event of the runners. -/
  | runner (event : Event τ α)
  /-- An idle observer asks for the state of a level. -/
  | look (observer : ω) (level : Int32)
  /-- An observer takes its next step. -/
  | glance (observer : ω)

/-- What runners and observers share, where each of them stands, and what was reported. -/
structure Observed (τ ω α : Type) where
  shared : Shared τ α
  glance : ω → Glance
  /-- The observer that holds the lock of a target. -/
  probe : BuildTarget → Option ω
  /-- The number of events so far. -/
  clock : Nat
  /-- When each observer has asked last. -/
  asked : ω → Nat
  /-- What was reported, the latest first. -/
  reports : List (Report ω)

namespace Observed

variable {τ ω α : Type}

/-- Nothing was asked for yet. -/
def initial : Observed τ ω α := ⟨.initial, fun _ => .idle, fun _ => none, 0, fun _ => 0, []⟩

/-- Someone holds the lock of a target. -/
def isLocked (s : Observed τ ω α) (target : BuildTarget) : Bool :=
  (s.shared.place target).holder.isSome || (s.probe target).isSome

/-- An event of the runners can happen.  A lock that an observer holds is not taken. -/
def admits (s : Observed τ ω α) : Event τ α → Bool
  | .advance runner =>
    match s.shared.activity runner with
    | .waiting target => (s.probe target).isNone
    | _ => true
  | _ => true

/-- Sets the observer that holds the lock of a target. -/
def setProbe (s : Observed τ ω α) (target : BuildTarget) (probe : Option ω) : Observed τ ω α :=
  { s with probe := fun other => if other = target then probe else s.probe other }

variable [DecidableEq ω]

/-- Moves an observer to where it stands next. -/
def turn (s : Observed τ ω α) (observer : ω) (glance : Glance) : Observed τ ω α :=
  { s with glance := fun other => if other = observer then glance else s.glance other }

/-- An observer returns a state. -/
def report (s : Observed τ ω α) (observer : ω) (level : Int32) (state : DigestState) :
    Observed τ ω α :=
  { s.turn observer .idle with
    reports := ⟨observer, level, s.asked observer, s.clock, state⟩ :: s.reports }

/-- An observer asks. -/
def ask (s : Observed τ ω α) (observer : ω) (level : Int32) : Observed τ ω α :=
  { s.turn observer (.finding level) with
    asked := fun other => if other = observer then s.clock else s.asked other }

/-- An observer takes its next step (`state`). -/
def advance (s : Observed τ ω α) (observer : ω) : Observed τ ω α :=
  match s.glance observer with
  | .idle => s
  | .finding level =>
    match s.shared.places (.level level) with
    | none => s.report observer level .absent
    | some _ => s.turn observer (.reading level)
  | .reading level =>
    if (s.shared.place (.level level)).built.isSome then s.report observer level .cached
    else s.turn observer (.trying level)
  | .trying level =>
    if s.isLocked (.level level) then s.report observer level .materializing
    else (s.setProbe (.level level) (some observer)).turn observer (.rereading level)
  | .rereading level =>
    -- A build may have come to its end between the two readings.
    s.turn observer (.releasing level
      (if (s.shared.place (.level level)).built.isSome then .cached else .absent))
  | .releasing level state => (s.setProbe (.level level) none).report observer level state

variable [DecidableEq τ]

/-- What one event does, its moment apart. -/
def react (s : Observed τ ω α) (event : ObservedEvent τ ω α) : Observed τ ω α :=
  match event with
  | .runner event => if s.admits event then { s with shared := s.shared.step event } else s
  | .look observer level =>
    match s.glance observer with
    | .idle => s.ask observer level
    | _ => s
  | .glance observer => s.advance observer

/-- What one event does.  An event that cannot happen only takes its moment. -/
def step (s : Observed τ ω α) (event : ObservedEvent τ ω α) : Observed τ ω α :=
  { s.react event with clock := s.clock + 1 }

/-- What some events do, in order. -/
def run (s : Observed τ ω α) (events : List (ObservedEvent τ ω α)) : Observed τ ω α :=
  events.foldl step s

end Observed

end SharedDictionary
