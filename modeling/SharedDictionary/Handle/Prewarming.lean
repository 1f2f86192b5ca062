import SharedDictionary.Handle.Interleaving

/-!
# Workers that build several digests

Digests of several levels may be built ahead, by workers that run side by side.  There is one for every
position of a list of levels, and each requests the digest of its level, as anybody would: it is a runner that
asks for the level's artifact, and its build makes sure of the format and then goes to the engine.  Whoever
has started the workers waits for all of them, and takes the first failure in the order of the list
(`prewarm_digested`).

Workers share more than the places: the remembered outcome of the format check, which one of them asks the
engine for while the others wait, and the counters.

## Main definitions

* `Habit`, `Engine.Keeps` — engines that always do the same
* `Duty` — what a worker is about
* `Prewarming` — what the workers share, and what each of them is about
* `Prewarming.start` — workers that are about to start
* `Prewarming.step`, `Prewarming.run` — what one event does, and what many do, in order
* `Prewarming.result?` — what comes of the workers once all of them are done

## Design decisions

* What a worker is about and where it stands as a runner are kept apart.  A worker that is `asking` goes on as
  the runner does; a runner that builds waits while its worker makes sure of the format.
* The same level may stand in the list more than once, and the engine may fail or break off.
* What a build comes to is left to the engine within its habit, so that no two artifacts need be alike.
-/

namespace SharedDictionary

/-! ### Engines that always do the same -/

/-- What the builds of a level come to, every time. -/
inductive Fate (A : Type) where
  /-- An artifact of a certain make. -/
  | builds (makes : A → Bool)
  | fails (e : DictError)
  | panics

/-- An answer of the engine is as it must be. -/
def Fate.permits {A : Type} : Fate A → Verdict A → Bool
  | builds makes, .success value => makes value
  | fails e, .failed e' => e' == e
  | panics, .panicked _ => true
  | _, _ => false

/-- What an engine always does with some content. -/
structure Habit (A : Type) where
  /-- What its format check comes to. -/
  check : Except DictError Unit
  /-- What its builds come to. -/
  fate : Int32 → Fate A

/-- An engine keeps a habit for some content: its format check returns, and its builds come to what they must
and make no requests. -/
structure Engine.Keeps {σ A D : Type} (E : Engine σ A D) (habit : Habit A) (content : ByteArray)
    (isRaw : Bool) : Prop where
  check : ∀ state, (E.check state content isRaw).1 = .ofExcept habit.check
  prepare : ∀ state handle target, (E.prepare state handle target).1 = []
  build : ∀ state level, (habit.fate level).permits (E.build state content level).1 = true

/-! ### Workers -/

/-- What a worker is about. -/
inductive Duty (A : Type) where
  /-- It is about to start. -/
  | ready
  /-- It goes on as a runner. -/
  | asking
  /-- The engine checks the format for it. -/
  | checking
  /-- The engine builds for it. -/
  | building
  /-- It is about to count what its request has come to. -/
  | counting (outcome : Outcome A)
  | done (outcome : Outcome A)

/-- What the outcome of a request for a digest counts as.  A request that breaks off is not counted. -/
def Outcome.counts {A : Type} : Outcome A → Option CounterEvent
  | returned _ true => some .digestBuilt
  | returned _ false => some .digestHit
  | failed _ => some .digestFailure
  | panicked _ => none

/-- What is left of an outcome when its worker is waited for. -/
def Outcome.joined {A : Type} : Outcome A → Except DictError Unit
  | returned _ _ => .ok ()
  | failed e => .error e
  | panicked _ => .error (.state "prewarm worker panicked")

/-- What the call of a runner returns if its next step is the last. -/
def Shared.returning? {τ α : Type} (s : Shared τ α) (runner : τ) : Option (Outcome α) :=
  match s.activity runner with
  | .reading target => (s.place target).built.map fun artifact => .returned artifact false
  | .releasing _ outcome => some outcome
  | _ => none

/-- What the workers for some levels share, and what each of them is about. -/
structure Prewarming (levels : List Int32) (A : Type) where
  shared : Shared (Fin levels.length) A
  /-- The remembered outcome of the format check. -/
  format : Option (Except DictError Unit)
  /-- The worker for which the engine checks the format. -/
  checker : Option (Fin levels.length)
  counters : Counters
  duty : Fin levels.length → Duty A

/-- What moves workers on. -/
inductive WorkerEvent (levels : List Int32) (A : Type) where
  /-- A worker takes its next step. -/
  | advance (worker : Fin levels.length)
  /-- The build of a worker ends. -/
  | finish (worker : Fin levels.length) (verdict : Verdict A)

namespace Prewarming

variable {levels : List Int32} {A D : Type}

/-- What a worker asks for. -/
def target (worker : Fin levels.length) : BuildTarget := .level (levels.get worker)

/-- Workers that are about to start on a handle where nothing is being built.  Earlier builds may have
poisoned the locks of some levels. -/
def start (h : Handle A D) (poisoned : Int32 → Bool) (levels : List Int32) : Prewarming levels A where
  shared :=
    { places := fun
        | .level level => (h.slot? level).map fun slot => ⟨slot.built, none, poisoned level⟩
        | .decoder => some .vacant
      activity := fun _ => .idle
      nextStamp := h.nextStamp
      journal := [] }
  format := h.format
  checker := none
  counters := h.counters
  duty _ := .ready

/-- Gives a worker its next duty. -/
def turn (s : Prewarming levels A) (worker : Fin levels.length) (duty : Duty A) :
    Prewarming levels A :=
  { s with duty := fun other => if other = worker then duty else s.duty other }

/-- A worker whose runner builds makes sure of the format (`ensure_format`).  One that finds nobody
to have asked for the check asks for it; meanwhile the others wait. -/
def ensureFormat (s : Prewarming levels A) (worker : Fin levels.length) : Prewarming levels A :=
  match s.format with
  | some (.ok ()) => s.turn worker .building
  | some (.error e) => { s with shared := s.shared.finish worker (.failed e) }
  | none =>
    match s.checker with
    | some _ => s
    | none =>
      { s.turn worker .checking with
        checker := some worker, counters := s.counters.record .formatCheck }

/-- A worker goes on as a runner, which asks for the digest of its level. -/
def ask (s : Prewarming levels A) (worker : Fin levels.length) : Prewarming levels A :=
  match s.shared.activity worker with
  | .building _ => s.ensureFormat worker
  | _ =>
    match s.shared.returning? worker with
    | some outcome =>
      { s.turn worker (.counting outcome) with shared := s.shared.advance worker }
    | none => { s with shared := s.shared.advance worker }

/-- Counts an outcome. -/
def count (s : Prewarming levels A) (outcome : Outcome A) : Prewarming levels A :=
  match outcome.counts with
  | some event => { s with counters := s.counters.record event }
  | none => s

/-- A worker takes its next step.  One for which the engine builds waits for the engine. -/
def advance (habit : Habit A) (s : Prewarming levels A) (worker : Fin levels.length) :
    Prewarming levels A :=
  match s.duty worker with
  | .ready => { s.turn worker .asking with shared := s.shared.step (.ask worker (target worker)) }
  | .asking => s.ask worker
  | .checking => { s.turn worker .asking with format := some habit.check, checker := none }
  | .building => s
  | .counting outcome => (s.count outcome).turn worker (.done outcome)
  | .done _ => s

/-- The build of a worker ends. -/
def finish (habit : Habit A) (s : Prewarming levels A) (worker : Fin levels.length)
    (verdict : Verdict A) : Prewarming levels A :=
  match s.duty worker with
  | .building =>
    if (habit.fate (levels.get worker)).permits verdict then
      { s.turn worker .asking with shared := s.shared.finish worker verdict }
    else s
  | _ => s

/-- What one event does.  An event that cannot happen does nothing. -/
def step (habit : Habit A) (s : Prewarming levels A) (event : WorkerEvent levels A) :
    Prewarming levels A :=
  match event with
  | .advance worker => s.advance habit worker
  | .finish worker verdict => s.finish habit worker verdict

/-- What some events do, in order. -/
def run (habit : Habit A) (s : Prewarming levels A) (events : List (WorkerEvent levels A)) :
    Prewarming levels A :=
  events.foldl (step habit) s

/-! ### What comes of it -/

/-- The outcome of a worker that is done. -/
def outcome? (s : Prewarming levels A) (worker : Fin levels.length) : Option (Outcome A) :=
  match s.duty worker with
  | .done outcome => some outcome
  | _ => none

/-- The first failure of some results. -/
def firstFailure : List (Except DictError Unit) → Except DictError Unit
  | [] => .ok ()
  | .ok () :: results => firstFailure results
  | .error e :: _ => .error e

/-- What comes of the workers, once all of them are done. -/
def result? (s : Prewarming levels A) : Option (Except DictError Unit) :=
  ((List.ofFn s.outcome?).mapM id).map fun outcomes => firstFailure (outcomes.map Outcome.joined)

end Prewarming

end SharedDictionary
