import SharedDictionary.Proofs.Handle.Prospects
import SharedDictionary.Proofs.Handle.Soundness

/-!
# What workers do

Where a worker stands is said by `Prewarming.Standing`, with what it may rely on there, and what it does next
by `Prewarming.Task`.  Its next step is a task (`Standing.advance`), unless it waits: for the engine, for
another that holds the lock, or for another that has asked for the format check (`Prewarming.Waits`).
-/

namespace SharedDictionary

variable {A D : Type}

/-! ### What a request has come to -/

/-- An outcome is of the kind that was to be expected. -/
inductive Outcome.Meets : Outcome A → Prospect → Prop
  | hit (artifact : Built A) : Meets (.returned artifact false) .cached
  /-- Another worker has built the digest. -/
  | late (artifact : Built A) : Meets (.returned artifact false) .builds
  | built (artifact : Built A) : Meets (.returned artifact true) .builds
  | failed (e : DictError) : Meets (.failed e) (.fails e)
  | panicked (text : String) : Meets (.panicked text) .panics

theorem Outcome.Meets.joined {outcome : Outcome A} {p : Prospect} (h : outcome.Meets p) :
    outcome.joined = p.joined := by
  cases h <;> rfl

/-- The target that a runner has not found vacant yet. -/
def Activity.entered? : Activity A → Option BuildTarget
  | .finding target | .reading target | .waiting target | .rereading target => some target
  | _ => none

namespace Prewarming

variable {levels : List Int32}

/-- The place that a worker asks for. -/
def place (s : Prewarming levels A) (worker : Fin levels.length) : Place (Fin levels.length) A :=
  s.shared.place (target worker)

/-! ### Where a worker stands -/

/-- What a request has come to agrees with the handle that the workers started on. -/
structure Fits (habit : Habit A) (h : Handle A D) (s : Prewarming levels A)
    (worker : Fin levels.length) (outcome : Outcome A) : Prop where
  meets : outcome.Meets (h.prospect habit (levels.get worker))
  there : ∀ artifact built, outcome = .returned artifact built →
    (s.place worker).built = some artifact
  settled : h.prospect habit (levels.get worker) ≠ .cached → s.format.isSome = true

/-- Where a worker stands, and what it relies on. -/
inductive Standing (habit : Habit A) (h : Handle A D) (s : Prewarming levels A)
    (worker : Fin levels.length) : Prop
  | ready (hduty : s.duty worker = .ready) (hactivity : s.shared.activity worker = .idle)
  /-- On the way to a build. -/
  | entering (hduty : s.duty worker = .asking)
      (hactivity : (s.shared.activity worker).entered? = some (target worker))
  /-- About to make sure of the format. -/
  | ensuring (hduty : s.duty worker = .asking)
      (hactivity : s.shared.activity worker = .building (target worker))
      (hvacant : (s.place worker).built = none)
  | checking (hduty : s.duty worker = .checking)
      (hactivity : s.shared.activity worker = .building (target worker))
      (hvacant : (s.place worker).built = none) (hchecker : s.checker = some worker)
      (hformat : s.format = none)
  | building (hduty : s.duty worker = .building)
      (hactivity : s.shared.activity worker = .building (target worker))
      (hvacant : (s.place worker).built = none) (hformat : s.format = some (.ok ()))
  | publishing (artifact : Built A) (hduty : s.duty worker = .asking)
      (hactivity : s.shared.activity worker = .publishing (target worker) artifact)
      (hvacant : (s.place worker).built = none) (hformat : s.format = some (.ok ()))
      (hfate : (habit.fate (levels.get worker)).permits (.success artifact.value) = true)
  | returning (outcome : Outcome A) (hduty : s.duty worker = .asking)
      (hactivity : s.shared.activity worker = .releasing (target worker) outcome)
      (hfits : s.Fits habit h worker outcome)
  | counting (outcome : Outcome A) (hduty : s.duty worker = .counting outcome)
      (hactivity : s.shared.activity worker = .idle) (hfits : s.Fits habit h worker outcome)
  | done (outcome : Outcome A) (hduty : s.duty worker = .done outcome)
      (hactivity : s.shared.activity worker = .idle) (hfits : s.Fits habit h worker outcome)

variable {habit : Habit A} {h : Handle A D} {s s' : Prewarming levels A}
  {worker : Fin levels.length}

/-! ### What a worker does -/

/-- A worker has a new duty and its runner has moved. -/
structure Shift (s s' : Prewarming levels A) (worker : Fin levels.length) (duty : Duty A)
    (activity : Activity A) (place : Place (Fin levels.length) A)
    (happened : List (Occurrence (Fin levels.length) A)) : Prop where
  duty : ∀ other, s'.duty other = if other = worker then duty else s.duty other
  shared : s.shared.Changes s'.shared worker activity (target worker) place happened

/-- The memo of the format and the counters are as they were. -/
structure Quiet (s s' : Prewarming levels A) : Prop where
  format : s'.format = s.format
  checker : s'.checker = s.checker
  counters : s'.counters = s.counters

/-- What a worker does next. -/
inductive Task (habit : Habit A) (s s' : Prewarming levels A) (worker : Fin levels.length) : Prop
  | start (hduty : s.duty worker = .ready) (hfrom : s.shared.activity worker = .idle)
      (h : s.Shift s' worker .asking (.finding (target worker)) (s.place worker) [])
      (hquiet : s.Quiet s')
  /-- It finds the place. -/
  | find (hduty : s.duty worker = .asking)
      (hfrom : s.shared.activity worker = .finding (target worker))
      (h : s.Shift s' worker .asking (.reading (target worker)) (s.place worker) [])
      (hquiet : s.Quiet s')
  /-- It finds the digest without the lock. -/
  | hit (artifact : Built A) (hduty : s.duty worker = .asking)
      (hfrom : s.shared.activity worker = .reading (target worker))
      (hbuilt : (s.place worker).built = some artifact)
      (h : s.Shift s' worker (.counting (.returned artifact false)) .idle (s.place worker)
        [.returned worker (target worker) (.returned artifact false)])
      (hquiet : s.Quiet s')
  /-- It finds nothing without the lock. -/
  | miss (hduty : s.duty worker = .asking)
      (hfrom : s.shared.activity worker = .reading (target worker))
      (h : s.Shift s' worker .asking (.waiting (target worker)) (s.place worker) [])
      (hquiet : s.Quiet s')
  | lock (hduty : s.duty worker = .asking)
      (hfrom : s.shared.activity worker = .waiting (target worker))
      (h : s.Shift s' worker .asking (.rereading (target worker))
        { s.place worker with holder := some worker } [])
      (hquiet : s.Quiet s')
  /-- It finds the digest with the lock. -/
  | rehit (artifact : Built A) (hduty : s.duty worker = .asking)
      (hfrom : s.shared.activity worker = .rereading (target worker))
      (hbuilt : (s.place worker).built = some artifact)
      (h : s.Shift s' worker .asking (.releasing (target worker) (.returned artifact false))
        (s.place worker) [])
      (hquiet : s.Quiet s')
  /-- Its build begins. -/
  | begin (hduty : s.duty worker = .asking)
      (hfrom : s.shared.activity worker = .rereading (target worker))
      (hbuilt : (s.place worker).built = none)
      (h : s.Shift s' worker .asking (.building (target worker)) (s.place worker)
        [.started worker (target worker)])
      (hquiet : s.Quiet s')
  /-- It is the first to ask for the format check. -/
  | check (hduty : s.duty worker = .asking)
      (hfrom : s.shared.activity worker = .building (target worker))
      (hvacant : (s.place worker).built = none) (hformat : s.format = none)
      (hchecker : s.checker = none)
      (h : s.Shift s' worker .checking (.building (target worker)) (s.place worker) [])
      (hformat' : s'.format = none) (hchecker' : s'.checker = some worker)
      (hcounters : s'.counters = s.counters.record .formatCheck)
  | checked (hduty : s.duty worker = .checking)
      (hfrom : s.shared.activity worker = .building (target worker))
      (hvacant : (s.place worker).built = none) (hformat : s.format = none)
      (hchecker : s.checker = some worker)
      (h : s.Shift s' worker .asking (.building (target worker)) (s.place worker) [])
      (hformat' : s'.format = some habit.check) (hchecker' : s'.checker = none)
      (hcounters : s'.counters = s.counters)
  /-- The format is refused. -/
  | refuse (e : DictError) (hduty : s.duty worker = .asking)
      (hfrom : s.shared.activity worker = .building (target worker))
      (hvacant : (s.place worker).built = none) (hformat : s.format = some (.error e))
      (h : s.Shift s' worker .asking (.releasing (target worker) (.failed e)) (s.place worker)
        [.ended worker (target worker) false])
      (hquiet : s.Quiet s')
  /-- The format lets it pass. -/
  | clear (hduty : s.duty worker = .asking)
      (hfrom : s.shared.activity worker = .building (target worker))
      (hvacant : (s.place worker).built = none) (hformat : s.format = some (.ok ()))
      (h : s.Shift s' worker .building (.building (target worker)) (s.place worker) [])
      (hquiet : s.Quiet s')
  /-- Its build succeeds. -/
  | succeed (value : A) (hduty : s.duty worker = .building)
      (hfrom : s.shared.activity worker = .building (target worker))
      (hvacant : (s.place worker).built = none) (hformat : s.format = some (.ok ()))
      (hfate : (habit.fate (levels.get worker)).permits (.success value) = true)
      (h : s.Shift s' worker .asking (.publishing (target worker) ⟨value, s.shared.nextStamp⟩)
        (s.place worker) [.ended worker (target worker) true])
      (hquiet : s.Quiet s')
  /-- Its build fails. -/
  | fail (e : DictError) (hduty : s.duty worker = .building)
      (hfrom : s.shared.activity worker = .building (target worker))
      (hvacant : (s.place worker).built = none) (hformat : s.format = some (.ok ()))
      (hfate : (habit.fate (levels.get worker)).permits (.failed e) = true)
      (h : s.Shift s' worker .asking (.releasing (target worker) (.failed e)) (s.place worker)
        [.ended worker (target worker) false])
      (hquiet : s.Quiet s')
  /-- Its build breaks off. -/
  | panic (text : String) (hduty : s.duty worker = .building)
      (hfrom : s.shared.activity worker = .building (target worker))
      (hvacant : (s.place worker).built = none) (hformat : s.format = some (.ok ()))
      (hfate : (habit.fate (levels.get worker)).permits (.panicked text) = true)
      (h : s.Shift s' worker .asking (.releasing (target worker) (.panicked text)) (s.place worker)
        [.ended worker (target worker) false])
      (hquiet : s.Quiet s')
  | publish (artifact : Built A) (hduty : s.duty worker = .asking)
      (hfrom : s.shared.activity worker = .publishing (target worker) artifact)
      (hvacant : (s.place worker).built = none) (hformat : s.format = some (.ok ()))
      (hfate : (habit.fate (levels.get worker)).permits (.success artifact.value) = true)
      (h : s.Shift s' worker .asking (.releasing (target worker) (.returned artifact true))
        { s.place worker with built := some artifact } [])
      (hquiet : s.Quiet s')
  /-- It lets go of the lock. -/
  | release (outcome : Outcome A) (poisoned : Bool) (hduty : s.duty worker = .asking)
      (hfrom : s.shared.activity worker = .releasing (target worker) outcome)
      (h : s.Shift s' worker (.counting outcome) .idle ⟨(s.place worker).built, none, poisoned⟩
        [.returned worker (target worker) outcome])
      (hquiet : s.Quiet s')
  /-- It counts what its request has come to. -/
  | count (outcome : Outcome A) (hduty : s.duty worker = .counting outcome)
      (hfrom : s.shared.activity worker = .idle)
      (h : s.Shift s' worker (.done outcome) .idle (s.place worker) [])
      (hformat : s'.format = s.format) (hchecker : s'.checker = s.checker)
      (hcounters : s'.counters = (s.count outcome).counters)

/-- A worker has nothing to do for now. -/
inductive Waits (s : Prewarming levels A) (worker : Fin levels.length) : Prop
  /-- The engine builds for it. -/
  | engine (hduty : s.duty worker = .building)
  /-- Another holds the lock. -/
  | lock (holder : Fin levels.length)
      (hactivity : s.shared.activity worker = .waiting (target worker))
      (hholder : (s.place worker).holder = some holder)
  /-- Another has asked for the format check. -/
  | check (checker : Fin levels.length) (hduty : s.duty worker = .asking)
      (hchecker : s.checker = some checker)
  | done (outcome : Outcome A) (hduty : s.duty worker = .done outcome)
      (hactivity : s.shared.activity worker = .idle)

/-- Where only the duty of a worker is new, its runner stands where it stood. -/
theorem shift_turn (s : Prewarming levels A) (worker : Fin levels.length) (duty : Duty A)
    {activity : Activity A} (hactivity : s.shared.activity worker = activity) :
    s.Shift (s.turn worker duty) worker duty activity (s.place worker) [] where
  duty _ := rfl
  shared :=
    { activity := fun other => by
        split
        · rename_i heq
          rw [heq]
          exact hactivity
        · rfl
      place := fun other => by
        split
        · rename_i heq
          rw [heq]
          rfl
        · rfl
      journal := rfl
      nextStamp := Nat.le_refl _ }

/-- Where only the runner of a worker has moved, its duty is as it was. -/
theorem shift_shared {shared : Shared (Fin levels.length) A} {duty : Duty A}
    (hduty : s.duty worker = duty) {activity : Activity A} {place : Place (Fin levels.length) A}
    {happened : List (Occurrence (Fin levels.length) A)}
    (h : s.shared.Changes shared worker activity (target worker) place happened) :
    s.Shift { s with shared := shared } worker duty activity place happened where
  duty other := by
    split
    · rename_i heq
      rw [heq]
      exact hduty
    · rfl
  shared := h

/-- A worker that is asking goes on as its runner does. -/
theorem advance_of_asking (hduty : s.duty worker = .asking)
    (hbuilding : ∀ target, s.shared.activity worker ≠ .building target)
    (hreturning : s.shared.returning? worker = none) :
    s.advance habit worker = { s with shared := s.shared.advance worker } := by
  rw [advance, hduty]
  simp only
  rw [ask]
  split
  · rename_i other hactivity
    exact absurd hactivity (hbuilding other)
  · rw [hreturning]

/-- A worker whose runner returns has its request behind it. -/
theorem advance_of_returning {outcome : Outcome A} (hduty : s.duty worker = .asking)
    (hreturning : s.shared.returning? worker = some outcome) :
    s.advance habit worker
      = { s.turn worker (.counting outcome) with shared := s.shared.advance worker } := by
  rw [advance, hduty]
  simp only
  rw [ask]
  split
  · rename_i other hactivity
    rw [Shared.returning?, hactivity] at hreturning
    cases hreturning
  · rw [hreturning]

/-- A worker whose runner builds makes sure of the format. -/
theorem advance_of_ensuring {other : BuildTarget} (hduty : s.duty worker = .asking)
    (hactivity : s.shared.activity worker = .building other) :
    s.advance habit worker = s.ensureFormat worker := by
  rw [advance, hduty]
  simp only
  rw [ask, hactivity]

theorem quiet_shared (s : Prewarming levels A) (shared : Shared (Fin levels.length) A) :
    s.Quiet { s with shared := shared } := ⟨rfl, rfl, rfl⟩

/-- On its way to a build, a worker may wait for the lock. -/
theorem advance_of_entering (hduty : s.duty worker = .asking)
    (hactivity : (s.shared.activity worker).entered? = some (target worker)) :
    s.advance habit worker = s ∧ s.Waits worker ∨ Task habit s (s.advance habit worker) worker := by
  cases hfrom : s.shared.activity worker with
  | finding other =>
      rw [hfrom] at hactivity
      cases hactivity
      have hshared : s.shared.advance worker
          = (s.shared.setPlace (target worker) (s.place worker)).turn worker
            (.reading (target worker)) := by
        rw [Shared.advance, hfrom]
        rfl
      rw [advance_of_asking hduty (by rw [hfrom]; nofun) (by rw [Shared.returning?, hfrom]), hshared]
      exact .inr (.find hduty hfrom (shift_shared hduty (s.shared.changes_setPlace worker _ _ _))
        (s.quiet_shared _))
  | reading other =>
      rw [hfrom] at hactivity
      cases hactivity
      cases hbuilt : (s.place worker).built with
      | some artifact =>
          have hshared : s.shared.advance worker
              = s.shared.reply worker (target worker) (.returned artifact false) := by
            rw [place] at hbuilt
            simp only [Shared.advance, hfrom, hbuilt]
          have hreturning : s.shared.returning? worker = some (.returned artifact false) := by
            rw [place] at hbuilt
            simp only [Shared.returning?, hfrom, hbuilt, Option.map_some]
          rw [advance_of_returning hduty hreturning, hshared]
          refine .inr (.hit artifact hduty hfrom hbuilt ⟨fun _ => rfl, ?_⟩ ⟨rfl, rfl, rfl⟩)
          exact (s.shared.changes_turn worker .idle (target worker)).note _
      | none =>
          have hshared : s.shared.advance worker
              = s.shared.turn worker (.waiting (target worker)) := by
            rw [place] at hbuilt
            simp only [Shared.advance, hfrom, hbuilt]
          have hreturning : s.shared.returning? worker = none := by
            rw [place] at hbuilt
            simp only [Shared.returning?, hfrom, hbuilt, Option.map_none]
          rw [advance_of_asking hduty (by rw [hfrom]; nofun) hreturning, hshared]
          exact .inr (.miss hduty hfrom (shift_shared hduty (s.shared.changes_turn worker _ _))
            (s.quiet_shared _))
  | waiting other =>
      rw [hfrom] at hactivity
      cases hactivity
      rw [advance_of_asking hduty (by rw [hfrom]; nofun) (by rw [Shared.returning?, hfrom])]
      cases hholder : (s.place worker).holder with
      | some holder =>
          have hshared : s.shared.advance worker = s.shared := by
            rw [place] at hholder
            simp only [Shared.advance, hfrom, hholder]
          rw [hshared]
          exact .inl ⟨rfl, .lock holder hfrom hholder⟩
      | none =>
          have hshared : s.shared.advance worker
              = (s.shared.setPlace (target worker)
                  { s.place worker with holder := some worker }).turn worker
                (.rereading (target worker)) := by
            rw [place] at hholder
            simp only [Shared.advance, hfrom, hholder]
            rfl
          rw [hshared]
          exact .inr (.lock hduty hfrom (shift_shared hduty (s.shared.changes_setPlace worker _ _ _))
            (s.quiet_shared _))
  | rereading other =>
      rw [hfrom] at hactivity
      cases hactivity
      rw [advance_of_asking hduty (by rw [hfrom]; nofun) (by rw [Shared.returning?, hfrom])]
      cases hbuilt : (s.place worker).built with
      | some artifact =>
          have hshared : s.shared.advance worker
              = s.shared.turn worker
                (.releasing (target worker) (.returned artifact false)) := by
            rw [place] at hbuilt
            simp only [Shared.advance, hfrom, hbuilt]
          rw [hshared]
          exact .inr (.rehit artifact hduty hfrom hbuilt
            (shift_shared hduty (s.shared.changes_turn worker _ _)) (s.quiet_shared _))
      | none =>
          have hshared : s.shared.advance worker
              = (s.shared.turn worker (.building (target worker))).note
                (.started worker (target worker)) := by
            rw [place] at hbuilt
            simp only [Shared.advance, hfrom, hbuilt]
          rw [hshared]
          exact .inr (.begin hduty hfrom hbuilt
            (shift_shared hduty ((s.shared.changes_turn worker _ _).note _)) (s.quiet_shared _))
  | idle | building _ | publishing _ _ | releasing _ _ =>
      rw [hfrom] at hactivity
      cases hactivity

/-- A worker whose runner builds may wait for the check that another has asked for. -/
theorem advance_of_building (hduty : s.duty worker = .asking)
    (hactivity : s.shared.activity worker = .building (target worker))
    (hvacant : (s.place worker).built = none) :
    s.advance habit worker = s ∧ s.Waits worker ∨ Task habit s (s.advance habit worker) worker := by
  rw [advance_of_ensuring hduty hactivity]
  match hformat : s.format, hchecker : s.checker with
  | none, some checker =>
      refine .inl ⟨?_, .check checker hduty hchecker⟩
      simp only [ensureFormat, hformat, hchecker]
  | none, none =>
      have hensure : s.ensureFormat worker
          = { s.turn worker .checking with
              checker := some worker, counters := s.counters.record .formatCheck } := by
        simp only [ensureFormat, hformat, hchecker]
      rw [hensure]
      have hshift := s.shift_turn worker .checking hactivity
      exact .inr (.check hduty hactivity hvacant hformat hchecker ⟨hshift.duty, hshift.shared⟩
        hformat rfl rfl)
  | some (.error e), _ =>
      have hensure : s.ensureFormat worker
          = { s with
              shared := (s.shared.turn worker (.releasing (target worker) (.failed e))).note
                (.ended worker (target worker) false) } := by
        simp only [ensureFormat, hformat, Shared.finish, hactivity]
      rw [hensure]
      exact .inr (.refuse e hduty hactivity hvacant hformat
        (shift_shared hduty ((s.shared.changes_turn worker _ _).note _)) (s.quiet_shared _))
  | some (.ok ()), _ =>
      have hensure : s.ensureFormat worker = s.turn worker .building := by
        simp only [ensureFormat, hformat]
      rw [hensure]
      exact .inr (.clear hduty hactivity hvacant hformat (s.shift_turn worker .building hactivity)
        ⟨rfl, rfl, rfl⟩)

/-- **The next step of a worker is a task**, unless it has to wait. -/
theorem Standing.advance (hs : s.Standing habit h worker) :
    s.advance habit worker = s ∧ s.Waits worker ∨ Task habit s (s.advance habit worker) worker := by
  cases hs with
  | ready hduty hactivity =>
      have hshared : s.shared.step (.ask worker (target worker))
          = s.shared.turn worker (.finding (target worker)) := by
        rw [Shared.step, hactivity]
        rfl
      have hadvance : s.advance habit worker
          = { s.turn worker .asking with
              shared := s.shared.turn worker (.finding (target worker)) } := by
        rw [Prewarming.advance, hduty, ← hshared]
      rw [hadvance]
      exact .inr (.start hduty hactivity ⟨fun _ => rfl, s.shared.changes_turn worker _ _⟩ ⟨rfl, rfl, rfl⟩)
  | entering hduty hactivity => exact advance_of_entering hduty hactivity
  | ensuring hduty hactivity hvacant => exact advance_of_building hduty hactivity hvacant
  | checking hduty hactivity hvacant hchecker hformat =>
      have hadvance : s.advance habit worker
          = { s.turn worker .asking with format := some habit.check, checker := none } := by
        rw [Prewarming.advance, hduty]
      rw [hadvance]
      have hshift := s.shift_turn worker .asking hactivity
      exact .inr (.checked hduty hactivity hvacant hformat hchecker ⟨hshift.duty, hshift.shared⟩
        rfl rfl rfl)
  | building hduty hactivity hvacant hformat =>
      refine .inl ⟨?_, .engine hduty⟩
      rw [Prewarming.advance, hduty]
  | publishing artifact hduty hactivity hvacant hformat hfate =>
      have hshared : s.shared.advance worker
          = (s.shared.setPlace (target worker) { s.place worker with built := some artifact }).turn
            worker (.releasing (target worker) (.returned artifact true)) := by
        rw [place] at hvacant
        simp only [Shared.advance, hactivity, hvacant, Option.getD_none]
        rfl
      rw [advance_of_asking hduty (by rw [hactivity]; nofun) (by rw [Shared.returning?, hactivity]),
        hshared]
      exact .inr (.publish artifact hduty hactivity hvacant hformat hfate
        (shift_shared hduty (s.shared.changes_setPlace worker _ _ _)) (s.quiet_shared _))
  | returning outcome hduty hactivity hfits =>
      have hshared : s.shared.advance worker
          = (s.shared.setPlace (target worker) ⟨(s.place worker).built, none,
              (s.place worker).poisoned || outcome.isPanic⟩).reply worker (target worker)
            outcome := by
        simp only [Shared.advance, hactivity]
        rfl
      rw [advance_of_returning hduty (by rw [Shared.returning?, hactivity]), hshared]
      refine .inr (.release outcome ((s.place worker).poisoned || outcome.isPanic) hduty hactivity
        ⟨fun _ => rfl, ?_⟩ ⟨rfl, rfl, rfl⟩)
      exact (s.shared.changes_setPlace worker .idle (target worker) _).note _
  | counting outcome hduty hactivity hfits =>
      have hadvance : s.advance habit worker = (s.count outcome).turn worker (.done outcome) := by
        rw [Prewarming.advance, hduty]
      have hshift := s.shift_turn worker (.done outcome) hactivity
      rw [hadvance]
      cases hcounts : outcome.counts with
      | none =>
          have hcount : s.count outcome = s := by rw [Prewarming.count, hcounts]
          refine .inr (.count outcome hduty hactivity ?_ ?_ ?_ rfl)
          · rw [hcount]
            exact hshift
          · rw [hcount]
            rfl
          · rw [hcount]
            rfl
      | some event =>
          have hcount : s.count outcome = { s with counters := s.counters.record event } := by
            rw [Prewarming.count, hcounts]
          refine .inr (.count outcome hduty hactivity ?_ ?_ ?_ rfl)
          · rw [hcount]
            exact ⟨hshift.duty, hshift.shared⟩
          · rw [hcount]
            rfl
          · rw [hcount]
            rfl
  | done outcome hduty hactivity hfits =>
      refine .inl ⟨?_, .done outcome hduty hactivity⟩
      rw [Prewarming.advance, hduty]

/-- A build for which the engine answers as it must ends. -/
theorem Standing.task_of_permits (hs : s.Standing habit h worker) (hbuilding : s.duty worker = .building)
    {verdict : Verdict A} (hfate : (habit.fate (levels.get worker)).permits verdict = true) :
    Task habit s (s.finish habit worker verdict) worker := by
  cases hs with
  | building hduty hactivity hvacant hformat =>
      have hfinish : s.finish habit worker verdict
          = { s.turn worker .asking with shared := s.shared.finish worker verdict } := by
        simp only [Prewarming.finish, hduty, if_pos hfate]
      rw [hfinish]
      cases verdict with
      | success value =>
          simp only [Shared.finish, hactivity]
          have hturn := s.shared.changes_turn worker
            (.publishing (target worker) ⟨value, s.shared.nextStamp⟩) (target worker)
          refine .succeed value hduty hactivity hvacant hformat hfate ⟨fun _ => rfl, ?_⟩
            ⟨rfl, rfl, rfl⟩
          exact ⟨hturn.activity, hturn.place, rfl, Nat.le_succ _⟩
      | failed e =>
          simp only [Shared.finish, hactivity]
          exact .fail e hduty hactivity hvacant hformat hfate
            ⟨fun _ => rfl, (s.shared.changes_turn worker _ _).note _⟩ ⟨rfl, rfl, rfl⟩
      | panicked text =>
          simp only [Shared.finish, hactivity]
          exact .panic text hduty hactivity hvacant hformat hfate
            ⟨fun _ => rfl, (s.shared.changes_turn worker _ _).note _⟩ ⟨rfl, rfl, rfl⟩
  | ready hduty _ | entering hduty _ | ensuring hduty _ _ | checking hduty _ _ _ _
    | publishing _ hduty _ _ _ _ | returning _ hduty _ _ | counting _ hduty _ _
    | done _ hduty _ _ =>
      rw [hduty] at hbuilding
      cases hbuilding

/-- **The end of a build is a task**, if there is one. -/
theorem Standing.finish (hs : s.Standing habit h worker) (verdict : Verdict A) :
    s.finish habit worker verdict = s
      ∨ Task habit s (s.finish habit worker verdict) worker := by
  by_cases hbuilding : s.duty worker = .building
  · by_cases hfate : (habit.fate (levels.get worker)).permits verdict = true
    · exact .inr (hs.task_of_permits hbuilding hfate)
    · left
      simp only [Prewarming.finish, hbuilding, if_neg hfate]
  · left
    unfold Prewarming.finish
    split
    · exact absurd ‹_› hbuilding
    · rfl

end Prewarming

end SharedDictionary
