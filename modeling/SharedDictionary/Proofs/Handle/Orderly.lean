import SharedDictionary.Proofs.Handle.Tallies

/-!
# What holds however workers interleave

The invariant of workers that build digests is `Prewarming.Orderly`.  Where each of them stands is kept by its
own tasks (`Orderly.moved`) and by those of the others (`Standing.spared`).  A worker relies on little of what
others do: that what is built stays, that nobody publishes behind a lock that it holds, and that the format is
settled once (`Prewarming.Spares`).

Each fact is shown to be preserved by every task; `orderly_run` puts them together.
-/

namespace SharedDictionary

variable {A D : Type}

namespace Prewarming

variable {levels : List Int32} {habit : Habit A} {h : Handle A D} {s s' : Prewarming levels A}
  {worker other : Fin levels.length}

/-! ### What a task leaves alone -/

/-- A task is a shift. -/
theorem Task.shift (htask : Task habit s s' worker) :
    ∃ duty activity place happened, s.Shift s' worker duty activity place happened := by
  cases htask with
  | start _ _ h | find _ _ h | miss _ _ h | lock _ _ h | hit _ _ _ _ h | rehit _ _ _ _ h
    | begin _ _ _ h | check _ _ _ _ _ h | checked _ _ _ _ _ h | refuse _ _ _ _ _ h
    | clear _ _ _ _ h | succeed _ _ _ _ _ _ h | fail _ _ _ _ _ _ h | panic _ _ _ _ _ _ h
    | publish _ _ _ _ _ _ h | release _ _ _ _ h | count _ _ _ h => exact ⟨_, _, _, _, h⟩

/-- What a task does to what is remembered of the format. -/
inductive Settling (habit : Habit A) (s s' : Prewarming levels A) (worker : Fin levels.length) : Prop
  /-- Nothing. -/
  | kept (hduty : s.duty worker ≠ .checking) (hformat : s'.format = s.format)
      (hchecker : s'.checker = s.checker)
  /-- The check is asked for. -/
  | asked (hvacant : (s.place worker).built = none) (hformat : s.format = none)
      (hchecker : s.checker = none) (hduty' : s'.duty worker = .checking)
      (hformat' : s'.format = none) (hchecker' : s'.checker = some worker)
  /-- The check is over. -/
  | settled (hformat : s.format = none) (hchecker : s.checker = some worker)
      (hformat' : s'.format = some habit.check) (hchecker' : s'.checker = none)

theorem Task.settling (htask : Task habit s s' worker) : Settling habit s s' worker := by
  cases htask with
  | check _ _ hvacant hformat hchecker hshift hformat' hchecker' =>
      exact .asked hvacant hformat hchecker hshift.duty_self hformat' hchecker'
  | checked _ _ _ hformat hchecker _ hformat' hchecker' =>
      exact .settled hformat hchecker hformat' hchecker'
  | count _ hduty _ _ hformat hchecker => exact .kept (by rw [hduty]; nofun) hformat hchecker
  | start hduty _ _ hquiet | find hduty _ _ hquiet | miss hduty _ _ hquiet | lock hduty _ _ hquiet
    | hit _ hduty _ _ _ hquiet | rehit _ hduty _ _ _ hquiet | begin hduty _ _ _ hquiet
    | refuse _ hduty _ _ _ _ hquiet | clear hduty _ _ _ _ hquiet
    | succeed _ hduty _ _ _ _ _ hquiet | fail _ hduty _ _ _ _ _ hquiet
    | panic _ hduty _ _ _ _ _ hquiet | publish _ hduty _ _ _ _ _ hquiet
    | release _ _ hduty _ _ hquiet =>
      exact .kept (by rw [hduty]; nofun) hquiet.format hquiet.checker

/-- A worker is about to publish an artifact. -/
structure Publishes (habit : Habit A) (s : Prewarming levels A) (worker : Fin levels.length)
    (artifact : Built A) : Prop where
  activity : s.shared.activity worker = .publishing (target worker) artifact
  vacant : (s.place worker).built = none
  format : s.format = some (.ok ())
  fate : (habit.fate (levels.get worker)).permits (.success artifact.value) = true

/-- What is built after a task was built before, or the worker has published it. -/
theorem Task.published (htask : Task habit s s' worker) {asked : BuildTarget} {artifact : Built A}
    (hbuilt : (s'.shared.place asked).built = some artifact) :
    (s.shared.place asked).built = some artifact
      ∨ asked = target worker ∧ Publishes habit s worker artifact := by
  cases htask with
  | publish new _ hfrom hvacant hformat hfate hshift =>
      rw [hshift.shared.place] at hbuilt
      split at hbuilt
      · cases hbuilt
        exact .inr ⟨‹_›, hfrom, hvacant, hformat, hfate⟩
      · exact .inl hbuilt
  | start _ _ h | find _ _ h | miss _ _ h | lock _ _ h | hit _ _ _ _ h | rehit _ _ _ _ h
    | begin _ _ _ h | check _ _ _ _ _ h | checked _ _ _ _ _ h | refuse _ _ _ _ _ h
    | clear _ _ _ _ h | succeed _ _ _ _ _ _ h | fail _ _ _ _ _ _ h | panic _ _ _ _ _ _ h
    | release _ _ _ _ h | count _ _ _ h =>
      rw [h.shared.place_congr (·.built) rfl] at hbuilt
      exact .inl hbuilt

/-- What a worker relies on is left alone. -/
structure Spares (s s' : Prewarming levels A) (other : Fin levels.length) : Prop where
  duty : s'.duty other = s.duty other
  activity : s'.shared.activity other = s.shared.activity other
  built : ∀ artifact, (s.place other).built = some artifact → (s'.place other).built = some artifact
  vacant : (s.shared.activity other).held? = some (target other) → (s.place other).built = none →
    (s'.place other).built = none
  format : ∀ result, s.format = some result → s'.format = some result
  checker : s.checker = some other → s.format = none → s'.checker = some other ∧ s'.format = none

/-- **Workers spare each other.** -/
theorem Task.spares (htask : Task habit s s' worker) (hlocked : s.shared.Locked)
    (hmove : s.shared.Move s'.shared) (hother : other ≠ worker) : s.Spares s' other := by
  obtain ⟨duty, activity, place, happened, hshift⟩ := htask.shift
  refine ⟨hshift.duty_of_ne hother, hshift.activity_of_ne hother, fun _ => hmove.built_mono, ?_, ?_, ?_⟩
  · intro hheld hvacant
    cases hbuilt : (s'.place other).built with
    | none => rfl
    | some artifact =>
        rcases htask.published hbuilt with hold | ⟨htarget, hpublishes⟩
        · rw [Prewarming.place, hold] at hvacant
          cases hvacant
        · -- Both would hold the lock.
          have hworker : (s.shared.activity worker).held? = some (target other) := by
            rw [hpublishes.activity, htarget]
            rfl
          exact absurd (hlocked.unique hheld hworker) hother
  · intro result hresult
    cases htask.settling with
    | kept _ hformat _ => rw [hformat, hresult]
    | asked _ hformat | settled hformat =>
        rw [hformat] at hresult
        cases hresult
  · intro hchecker hnone
    cases htask.settling with
    | kept _ hformat hchecker' => exact ⟨hchecker'.trans hchecker, hformat.trans hnone⟩
    | asked _ _ hfree =>
        rw [hfree] at hchecker
        cases hchecker
    | settled _ hworker =>
        rw [hworker] at hchecker
        exact absurd (Option.some.inj hchecker).symm hother

/-- What a request has come to keeps agreeing with the handle, where what is built stays and the format is
not settled anew. -/
theorem Fits.mono {outcome : Outcome A} (hfits : s.Fits habit h worker outcome)
    (hbuilt : ∀ artifact, (s.place worker).built = some artifact →
      (s'.place worker).built = some artifact)
    (hformat : ∀ result, s.format = some result → s'.format = some result) :
    s'.Fits habit h worker outcome where
  meets := hfits.meets
  there artifact built houtcome := hbuilt artifact (hfits.there artifact built houtcome)
  settled hprospect := by
    obtain ⟨result, hresult⟩ := Option.isSome_iff_exists.mp (hfits.settled hprospect)
    rw [hformat result hresult]
    rfl

theorem Fits.spared {outcome : Outcome A} (hfits : s.Fits habit h other outcome)
    (hspares : s.Spares s' other) : s'.Fits habit h other outcome :=
  hfits.mono hspares.built hspares.format

/-- What the request of a worker has come to agrees with the handle. -/
theorem Standing.fits {outcome : Outcome A} (hs : s.Standing habit h worker)
    (hupshot : (s.duty worker).upshot? (s.shared.activity worker) = some outcome) :
    s.Fits habit h worker outcome := by
  cases hs with
  | returning found hduty hactivity hfits | counting found hduty hactivity hfits
    | done found hduty hactivity hfits =>
      rw [hduty, hactivity] at hupshot
      cases hupshot
      exact hfits
  | ready hduty hactivity | ensuring hduty hactivity _ | checking hduty hactivity _ _ _
    | building hduty hactivity _ _ | publishing _ hduty hactivity _ _ _ =>
      rw [hduty, hactivity] at hupshot
      cases hupshot
  | entering hduty hactivity =>
      rw [hduty] at hupshot
      cases hfrom : s.shared.activity worker with
      | finding _ | reading _ | waiting _ | rereading _ =>
          rw [hfrom] at hupshot
          cases hupshot
      | idle | building _ | publishing _ _ | releasing _ _ =>
          rw [hfrom] at hactivity
          cases hactivity

/-- **A worker that is spared stands where it stood.** -/
theorem Standing.spared (hs : s.Standing habit h other) (hspares : s.Spares s' other) :
    s'.Standing habit h other := by
  have hduty' := hspares.duty
  have hactivity' := hspares.activity
  cases hs with
  | ready hduty hactivity => exact .ready (hduty'.trans hduty) (hactivity'.trans hactivity)
  | entering hduty hactivity =>
      exact .entering (hduty'.trans hduty) (by rw [hactivity', hactivity])
  | ensuring hduty hactivity hvacant =>
      exact .ensuring (hduty'.trans hduty) (hactivity'.trans hactivity)
        (hspares.vacant (by rw [hactivity]; rfl) hvacant)
  | checking hduty hactivity hvacant hchecker hformat =>
      exact .checking (hduty'.trans hduty) (hactivity'.trans hactivity)
        (hspares.vacant (by rw [hactivity]; rfl) hvacant) (hspares.checker hchecker hformat).1
        (hspares.checker hchecker hformat).2
  | building hduty hactivity hvacant hformat =>
      exact .building (hduty'.trans hduty) (hactivity'.trans hactivity)
        (hspares.vacant (by rw [hactivity]; rfl) hvacant) (hspares.format _ hformat)
  | publishing artifact hduty hactivity hvacant hformat hfate =>
      exact .publishing artifact (hduty'.trans hduty) (hactivity'.trans hactivity)
        (hspares.vacant (by rw [hactivity]; rfl) hvacant) (hspares.format _ hformat) hfate
  | returning outcome hduty hactivity hfits =>
      exact .returning outcome (hduty'.trans hduty) (hactivity'.trans hactivity) (hfits.spared hspares)
  | counting outcome hduty hactivity hfits =>
      exact .counting outcome (hduty'.trans hduty) (hactivity'.trans hactivity) (hfits.spared hspares)
  | done outcome hduty hactivity hfits =>
      exact .done outcome (hduty'.trans hduty) (hactivity'.trans hactivity) (hfits.spared hspares)

/-! ### The invariant -/

/-- An artifact that the workers have made. -/
structure Made (habit : Habit A) (h : Handle A D) (s : Prewarming levels A) (level : Int32)
    (artifact : Built A) : Prop where
  prospect : h.prospect habit level = .builds
  fate : (habit.fate level).permits (.success artifact.value) = true
  settled : s.format.isSome = true

/-- What holds however workers interleave. -/
structure Orderly (habit : Habit A) (h : Handle A D) (s : Prewarming levels A) : Prop where
  locked : s.shared.Locked
  standing : ∀ worker, s.Standing habit h worker
  /-- What was built before is there. -/
  kept : ∀ level artifact, (h.slotOf level).built = some artifact →
    (s.shared.place (.level level)).built = some artifact
  /-- What is there was built before, or the workers have made it. -/
  grown : ∀ level artifact, (s.shared.place (.level level)).built = some artifact →
    (h.slotOf level).built = some artifact ∨ Made habit h s level artifact
  remembered : ∀ result, h.format = some result → s.format = some result
  known : ∀ result, s.format = some result → result = h.format.getD habit.check
  checker : ∀ worker, s.checker = some worker → s.duty worker = .checking
  /-- The format check is asked for only where a digest was missing. -/
  needed : h.format = none → (s.format.isSome || s.checker.isSome) = true →
    ∃ worker, h.prospect habit (levels.get worker) ≠ .cached
  starts : ∀ level, s.shared.journal.countP (·.isStart (.level level))
    = s.tally (past level Duty.hasStarted)
  successes : ∀ level, s.shared.journal.countP (·.isSuccess (.level level))
    = s.tally (past level Duty.hasSucceeded)
  makers : ∀ level, s.tally (past level Duty.hasPublished) = (fresh h s level).toNat
  ledger : ∀ e, Ledger h s e

/-- Where a worker finds nothing, nothing was built before. -/
theorem Orderly.vacant (hs : s.Orderly habit h) {level : Int32}
    (hvacant : (s.shared.place (.level level)).built = none) : (h.slotOf level).built = none := by
  cases hbuilt : (h.slotOf level).built with
  | none => rfl
  | some artifact =>
      rw [hs.kept level artifact hbuilt] at hvacant
      cases hvacant

/-- Where the format is not settled, it was not before. -/
theorem Orderly.format_eq_none (hs : s.Orderly habit h) (hnone : s.format = none) : h.format = none := by
  cases hbefore : h.format with
  | none => rfl
  | some result =>
      rw [hs.remembered result hbefore] at hnone
      cases hnone

/-- A digest that a worker finds is what was to be expected. -/
theorem Orderly.fits_found (hs : s.Orderly habit h) {artifact : Built A}
    (hbuilt : (s.place worker).built = some artifact) :
    s.Fits habit h worker (.returned artifact false) := by
  refine ⟨?_, fun _ _ houtcome => by cases houtcome; exact hbuilt, ?_⟩
  · rcases hs.grown _ artifact hbuilt with hold | hmade
    · rw [Handle.prospect_of_built hold]
      exact .hit artifact
    · rw [hmade.prospect]
      exact .late artifact
  · rcases hs.grown _ artifact hbuilt with hold | hmade
    · exact fun hprospect => absurd (Handle.prospect_of_built hold) hprospect
    · exact fun _ => hmade.settled

/-- An answer of the engine that is as it must be is what was to be expected. -/
theorem Orderly.prospect_of_permits (hs : s.Orderly habit h)
    (hvacant : (s.place worker).built = none) (hformat : s.format = some (.ok ()))
    {verdict : Verdict A} (hfate : (habit.fate (levels.get worker)).permits verdict = true) :
    h.prospect habit (levels.get worker) = verdict.prospect := by
  rw [Handle.prospect_of_ok (hs.vacant hvacant) (hs.known _ hformat).symm]
  exact Fate.prospect_of_permits hfate

/-! ### Preservation -/

/-- **A task leads a worker to where it may stand.** -/
theorem Orderly.moved (hs : s.Orderly habit h) (hmove : s.shared.Move s'.shared)
    (htask : Task habit s s' worker) : s'.Standing habit h worker := by
  have hcarried : ∀ {outcome}, s.Fits habit h worker outcome → s'.format = s.format →
      s'.Fits habit h worker outcome := by
    intro outcome hfits hformat
    exact hfits.mono (fun _ => hmove.built_mono) fun result hresult => hformat.trans hresult
  have hupshot : ∀ {outcome}, (s.duty worker).upshot? (s.shared.activity worker) = some outcome →
      s.Fits habit h worker outcome := (hs.standing worker).fits
  cases htask with
  | start _ _ hshift _ | find _ _ hshift _ | miss _ _ hshift _ | lock _ _ hshift _ =>
      exact .entering hshift.duty_self (by rw [hshift.shared.activity_self]; rfl)
  | hit artifact _ _ hbuilt hshift hquiet =>
      exact .counting _ hshift.duty_self hshift.shared.activity_self
        (hcarried (hs.fits_found hbuilt) hquiet.format)
  | rehit artifact _ _ hbuilt hshift hquiet =>
      exact .returning _ hshift.duty_self hshift.shared.activity_self
        (hcarried (hs.fits_found hbuilt) hquiet.format)
  | begin _ _ hbuilt hshift _ =>
      exact .ensuring hshift.duty_self hshift.shared.activity_self
        (by rw [place, hshift.shared.place_self, hbuilt])
  | check _ _ hvacant _ _ hshift hformat' hchecker' _ =>
      exact .checking hshift.duty_self hshift.shared.activity_self
        (by rw [place, hshift.shared.place_self, hvacant]) hchecker' hformat'
  | checked _ _ hvacant _ _ hshift _ _ _ =>
      exact .ensuring hshift.duty_self hshift.shared.activity_self
        (by rw [place, hshift.shared.place_self, hvacant])
  | clear _ _ hvacant hformat hshift hquiet =>
      exact .building hshift.duty_self hshift.shared.activity_self
        (by rw [place, hshift.shared.place_self, hvacant]) (hquiet.format.trans hformat)
  | succeed value _ _ hvacant hformat hfate hshift hquiet =>
      exact .publishing _ hshift.duty_self hshift.shared.activity_self
        (by rw [place, hshift.shared.place_self, hvacant]) (hquiet.format.trans hformat) hfate
  | refuse e _ _ hvacant hformat hshift hquiet =>
      refine .returning _ hshift.duty_self hshift.shared.activity_self ⟨?_, ?_, fun _ => ?_⟩
      · rw [Handle.prospect_of_error (hs.vacant hvacant) (hs.known _ hformat).symm]
        exact .failed e
      · intro _ _ hfound
        cases hfound
      · rw [hquiet.format, hformat]
        rfl
  | fail e _ _ hvacant hformat hfate hshift hquiet =>
      refine .returning _ hshift.duty_self hshift.shared.activity_self ⟨?_, ?_, fun _ => ?_⟩
      · rw [hs.prospect_of_permits hvacant hformat hfate]
        exact .failed e
      · intro _ _ hfound
        cases hfound
      · rw [hquiet.format, hformat]
        rfl
  | panic text _ _ hvacant hformat hfate hshift hquiet =>
      refine .returning _ hshift.duty_self hshift.shared.activity_self ⟨?_, ?_, fun _ => ?_⟩
      · rw [hs.prospect_of_permits hvacant hformat hfate]
        exact .panicked text
      · intro _ _ hfound
        cases hfound
      · rw [hquiet.format, hformat]
        rfl
  | publish artifact _ _ hvacant hformat hfate hshift hquiet =>
      refine .returning _ hshift.duty_self hshift.shared.activity_self ⟨?_, ?_, fun _ => ?_⟩
      · rw [hs.prospect_of_permits hvacant hformat hfate]
        exact .built artifact
      · intro found built houtcome
        cases houtcome
        rw [place, hshift.shared.place_self]
      · rw [hquiet.format, hformat]
        rfl
  | release outcome _ hduty hfrom hshift hquiet =>
      exact .counting outcome hshift.duty_self hshift.shared.activity_self
        (hcarried (hupshot (by rw [hduty, hfrom]; rfl)) hquiet.format)
  | count outcome hduty hfrom hshift hformat' _ _ =>
      exact .done outcome hshift.duty_self hshift.shared.activity_self
        (hcarried (hupshot (by rw [hduty]; rfl)) hformat')

/-- What is there was built before, or the workers have made it. -/
theorem Orderly.task_grown (hs : s.Orderly habit h) (htask : Task habit s s' worker) (level : Int32)
    (artifact : Built A) (hbuilt : (s'.shared.place (.level level)).built = some artifact) :
    (h.slotOf level).built = some artifact ∨ Made habit h s' level artifact := by
  have hsettled : s.format.isSome = true → s'.format.isSome = true := by
    intro hsome
    cases htask.settling with
    | kept _ hformat _ => rwa [hformat]
    | asked _ hformat | settled hformat =>
        rw [hformat] at hsome
        cases hsome
  rcases htask.published hbuilt with hold | ⟨htarget, hpublishes⟩
  · rcases hs.grown level artifact hold with hbase | hmade
    · exact .inl hbase
    · exact .inr ⟨hmade.prospect, hmade.fate, hsettled hmade.settled⟩
  · rw [BuildTarget.level.inj htarget]
    refine .inr ⟨?_, hpublishes.fate, hsettled ?_⟩
    · exact hs.prospect_of_permits hpublishes.vacant hpublishes.format hpublishes.fate
    · rw [hpublishes.format]
      rfl

/-- **A task keeps everything in order.** -/
theorem Orderly.task (hs : s.Orderly habit h) (hmove : s.shared.Move s'.shared)
    (htask : Task habit s s' worker) : s'.Orderly habit h where
  locked := hs.locked.move hmove
  standing other := by
    by_cases hother : other = worker
    · rw [hother]
      exact hs.moved hmove htask
    · exact (hs.standing other).spared (htask.spares hs.locked hmove hother)
  kept level artifact hbuilt := hmove.built_mono (hs.kept level artifact hbuilt)
  grown := hs.task_grown htask
  remembered result hresult := by
    have hsame := hs.remembered result hresult
    cases htask.settling with
    | kept _ hformat _ => rw [hformat, hsame]
    | asked _ hformat | settled hformat =>
        rw [hformat] at hsame
        cases hsame
  known result hresult := by
    cases htask.settling with
    | kept _ hformat _ => exact hs.known result (hformat.symm.trans hresult)
    | asked _ _ _ _ hformat' =>
        rw [hformat'] at hresult
        cases hresult
    | settled hformat _ hformat' _ =>
        rw [hformat'] at hresult
        cases hresult
        rw [hs.format_eq_none hformat]
        rfl
  checker other hother := by
    cases htask.settling with
    | kept hduty _ hchecker =>
        have hbefore := hs.checker other (hchecker.symm.trans hother)
        have hne : other ≠ worker := fun heq => hduty (heq ▸ hbefore)
        obtain ⟨_, _, _, _, hshift⟩ := htask.shift
        exact (hshift.duty_of_ne hne).trans hbefore
    | asked _ _ _ hduty' _ hchecker' =>
        rw [hchecker'] at hother
        cases hother
        exact hduty'
    | settled _ _ _ hchecker' =>
        rw [hchecker'] at hother
        cases hother
  needed hnone hsome := by
    cases htask.settling with
    | kept _ hformat hchecker =>
        rw [hformat, hchecker] at hsome
        exact hs.needed hnone hsome
    | asked hvacant =>
        exact ⟨worker, Handle.prospect_ne_cached (hs.vacant hvacant)⟩
    | settled _ hchecker =>
        refine hs.needed hnone ?_
        rw [hchecker, Option.isSome_some, Bool.or_true]
  starts _ := htask.starts (hs.starts _)
  successes _ := htask.successes (hs.successes _)
  makers level := by
    refine htask.makers (fun hsome => ?_) (hs.makers level)
    obtain ⟨artifact, hbuilt⟩ := Option.isSome_iff_exists.mp hsome
    rw [hs.kept level artifact hbuilt]
    rfl
  ledger e := htask.ledger hs.format_eq_none (hs.ledger e)

/-! ### Every run -/

/-- A worker that makes sure of the format moves its runner as a runner may move. -/
theorem move_ensureFormat (s : Prewarming levels A) (worker : Fin levels.length) :
    s.shared.Move (s.ensureFormat worker).shared := by
  unfold ensureFormat
  split
  · exact .rest rfl
  · rename_i e _
    exact s.shared.finish_move worker (.failed e)
  · split <;> exact .rest rfl

/-- **Workers move their runners as runners may move.** -/
theorem move_step (habit : Habit A) (s : Prewarming levels A) (event : WorkerEvent levels A) :
    s.shared.Move (s.step habit event).shared := by
  cases event with
  | advance worker =>
      show s.shared.Move (s.advance habit worker).shared
      unfold advance
      split
      · exact s.shared.step_move (.ask worker (target worker))
      · unfold ask
        split
        · exact s.move_ensureFormat worker
        · split <;> exact s.shared.advance_move worker
      · exact .rest rfl
      · exact .rest rfl
      · refine .rest ?_
        unfold count
        split <;> rfl
      · exact .rest rfl
  | finish worker verdict =>
      show s.shared.Move (s.finish habit worker verdict).shared
      unfold finish
      split
      · split
        · exact s.shared.finish_move worker verdict
        · exact .rest rfl
      · exact .rest rfl

/-- An event does nothing, or it is a task. -/
theorem Orderly.step_eq_or_task (hs : s.Orderly habit h) (event : WorkerEvent levels A) :
    s.step habit event = s ∨ ∃ worker, Task habit s (s.step habit event) worker := by
  cases event with
  | advance worker => exact (hs.standing worker).advance.imp And.left fun htask => ⟨worker, htask⟩
  | finish worker verdict =>
      exact ((hs.standing worker).finish verdict).imp_right fun htask => ⟨worker, htask⟩

theorem Orderly.step (hs : s.Orderly habit h) (event : WorkerEvent levels A) :
    (s.step habit event).Orderly habit h := by
  rcases hs.step_eq_or_task event with hsame | ⟨worker, htask⟩
  · rw [hsame]
    exact hs
  · exact hs.task (s.move_step habit event) htask

/-- **Everything stays in order however workers interleave.** -/
theorem Orderly.run (hs : s.Orderly habit h) (events : List (WorkerEvent levels A)) :
    (s.run habit events).Orderly habit h := by
  induction events generalizing s with
  | nil => exact hs
  | cons event events ih => exact ih (hs.step event)

/-- A place is as the handle has it before workers start. -/
theorem built_place_start (h : Handle A D) (poisoned : Int32 → Bool) (levels : List Int32)
    (level : Int32) :
    ((start h poisoned levels).shared.place (.level level)).built = (h.slotOf level).built := by
  have hplace : (start h poisoned levels).shared.place (.level level)
      = ((h.slot? level).map fun slot => ⟨slot.built, none, poisoned level⟩).getD .vacant := rfl
  rw [hplace, Handle.slotOf]
  cases h.slot? level <;> rfl

theorem holder_place_start (h : Handle A D) (poisoned : Int32 → Bool) (levels : List Int32)
    (asked : BuildTarget) : ((start h poisoned levels).shared.place asked).holder = none := by
  cases asked with
  | decoder => rfl
  | level level =>
      have hplace : (start h poisoned levels).shared.place (.level level)
          = ((h.slot? level).map fun slot => ⟨slot.built, none, poisoned level⟩).getD .vacant := rfl
      rw [hplace]
      cases h.slot? level <;> rfl

/-- Nothing was done before workers start. -/
theorem tally_start {h : Handle A D} {poisoned : Int32 → Bool} {levels : List Int32}
    {number : Fin levels.length → Duty A → Activity A → Nat}
    (hzero : ∀ worker, number worker .ready .idle = 0) : (start h poisoned levels).tally number = 0 :=
  Finset.sum_eq_zero fun worker _ => hzero worker

theorem past_ready (level : Int32) {far : Duty A → Activity A → Bool}
    (hfar : far .ready .idle = false) (worker : Fin levels.length) :
    past level far worker .ready .idle = 0 := by
  rw [past, hfar, Bool.and_false]
  rfl

theorem orderly_start (habit : Habit A) (h : Handle A D) (poisoned : Int32 → Bool)
    (levels : List Int32) : (start h poisoned levels).Orderly habit h where
  locked runner asked := by
    rw [holder_place_start]
    exact iff_of_false nofun nofun
  standing worker := .ready rfl rfl
  kept level artifact hbuilt := (built_place_start h poisoned levels level).trans hbuilt
  grown level artifact hbuilt := .inl ((built_place_start h poisoned levels level).symm.trans hbuilt)
  remembered _ hresult := hresult
  known result hresult := by
    have hformat : h.format = some result := hresult
    rw [hformat]
    rfl
  checker worker hworker := by cases hworker
  needed hnone hsome := by
    have hformat : (h.format.isSome || false) = true := hsome
    rw [hnone] at hformat
    cases hformat
  starts level := (tally_start (past_ready level rfl)).symm
  successes level := (tally_start (past_ready level rfl)).symm
  makers level := by
    have hfresh : fresh h (start h poisoned levels) level = false := by
      rw [fresh, built_place_start]
      cases (h.slotOf level).built <;> rfl
    rw [hfresh]
    exact tally_start (past_ready level rfl)
  ledger e := by
    have hchecks : checks h (start h poisoned levels) e = 0 := by
      show (e == .formatCheck && h.format.isNone && (h.format.isSome || false)).toNat = 0
      cases h.format <;> cases e <;> rfl
    have htally : (start h poisoned levels).tally (havingCounted e) = 0 := tally_start fun _ => rfl
    rw [Ledger, hchecks, htally]
    exact (UInt64.add_zero _).symm

/-- **Everything is in order however workers interleave.** -/
theorem orderly_run (habit : Habit A) (h : Handle A D) (poisoned : Int32 → Bool)
    (levels : List Int32) (events : List (WorkerEvent levels A)) :
    ((start h poisoned levels).run habit events).Orderly habit h :=
  (orderly_start habit h poisoned levels).run events

end Prewarming

end SharedDictionary
