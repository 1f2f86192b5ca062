import Mathlib.Algebra.Order.BigOperators.Group.Finset
import SharedDictionary.Proofs.Handle.Orderly

/-!
# Workers come to an end

Every task brings its worker closer to its end, or settles the format (`Task.remaining_lt`), so that no more
than a fixed number of events do anything (`Orderly.length_le_of_busy`).  As long as one worker is not done,
one of them can act (`Orderly.exists_task`): whoever it waits for, the engine, the holder of the lock or the
worker that has asked for the format check, can.  So workers never block each other for good, and however they
have interleaved so far, they can all be done (`Orderly.exists_finished`).
-/

namespace SharedDictionary

variable {A D : Type}

/-- How far a worker is from its end. -/
def Duty.ahead : Duty A → Activity A → Nat
  | .ready, _ => 12
  | .asking, .finding _ => 11
  | .asking, .reading _ => 10
  | .asking, .waiting _ => 9
  | .asking, .rereading _ => 8
  | .asking, .building _ => 7
  | .checking, _ => 6
  | .building, _ => 5
  | .asking, .publishing _ _ => 4
  | .asking, .releasing _ _ => 3
  | .asking, .idle => 2
  | .counting _, _ => 1
  | .done _, _ => 0

theorem Duty.ahead_le (duty : Duty A) (activity : Activity A) : duty.ahead activity ≤ 12 := by
  unfold ahead
  split <;> omega

/-- The engine has an answer for every build. -/
def Habit.Able (habit : Habit A) : Prop :=
  ∀ level, ∃ verdict, (habit.fate level).permits verdict = true

theorem Engine.Keeps.able {σ : Type} {E : Engine σ A D} {habit : Habit A} {content : ByteArray}
    {isRaw : Bool} (hkeeps : E.Keeps habit content isRaw) (state : σ) : habit.Able :=
  fun level => ⟨_, hkeeps.build state level⟩

namespace Prewarming

variable {levels : List Int32} {habit : Habit A} {h : Handle A D} {s s' : Prewarming levels A}
  {worker : Fin levels.length}

/-! ### Every task counts -/

/-- How far workers are from their end.  A worker that has asked for the format check goes back to make sure
of the format, which is settled then. -/
def remaining (s : Prewarming levels A) : Nat :=
  s.tally (fun _ => Duty.ahead) + if s.format.isNone then 2 else 0

/-- **Every task brings workers closer to their end.** -/
theorem Task.remaining_lt (htask : Task habit s s' worker) : s'.remaining < s.remaining := by
  have hcloser : ∀ {duty activity place happened},
      s.Shift s' worker duty activity place happened → s'.format = s.format →
      duty.ahead activity < (s.duty worker).ahead (s.shared.activity worker) →
      s'.remaining < s.remaining := by
    intro duty activity place happened hshift hformat hlt
    have htally := hshift.tally fun _ => Duty.ahead
    rw [remaining, remaining, hformat]
    omega
  cases htask with
  | checked hduty hfrom _ hformat _ hshift hformat' _ _ =>
      have htally := hshift.tally fun _ => Duty.ahead
      rw [hduty, hfrom] at htally
      have hback : s'.tally (fun _ => Duty.ahead) + 6 = s.tally (fun _ => Duty.ahead) + 7 := htally
      rw [remaining, remaining, hformat, hformat']
      simp only [Option.isNone_none, Option.isNone_some, if_true, Bool.false_eq_true, if_false]
      omega
  | check hduty hfrom _ hformat _ hshift hformat' _ _ =>
      refine hcloser hshift (hformat'.trans hformat.symm) ?_
      rw [hduty, hfrom]
      exact Nat.le_of_ble_eq_true rfl
  | count _ hduty hfrom hshift hformat' _ _ =>
      refine hcloser hshift hformat' ?_
      rw [hduty, hfrom]
      exact Nat.le_of_ble_eq_true rfl
  | start hduty hfrom hshift hquiet | find hduty hfrom hshift hquiet | miss hduty hfrom hshift hquiet
    | lock hduty hfrom hshift hquiet | hit _ hduty hfrom _ hshift hquiet
    | rehit _ hduty hfrom _ hshift hquiet | begin hduty hfrom _ hshift hquiet
    | refuse _ hduty hfrom _ _ hshift hquiet | clear hduty hfrom _ _ hshift hquiet
    | succeed _ hduty hfrom _ _ _ hshift hquiet | fail _ hduty hfrom _ _ _ hshift hquiet
    | panic _ hduty hfrom _ _ _ hshift hquiet | publish _ hduty hfrom _ _ _ hshift hquiet
    | release _ _ hduty hfrom hshift hquiet =>
      refine hcloser hshift hquiet.format ?_
      rw [hduty, hfrom]
      exact Nat.le_of_ble_eq_true rfl

/-- Each of some events does something. -/
def Busy (habit : Habit A) (s : Prewarming levels A) : List (WorkerEvent levels A) → Prop
  | [] => True
  | event :: events => s.step habit event ≠ s ∧ Busy habit (s.step habit event) events

/-- **Only so many events do anything.** -/
theorem Orderly.length_le_of_busy (hs : s.Orderly habit h) {events : List (WorkerEvent levels A)}
    (hbusy : Busy habit s events) : events.length ≤ s.remaining := by
  induction events generalizing s with
  | nil => exact Nat.zero_le _
  | cons event events ih =>
      obtain ⟨hchanged, hrest⟩ := hbusy
      obtain ⟨worker, htask⟩ := (hs.step_eq_or_task event).resolve_left hchanged
      exact (Nat.succ_le_succ (ih (hs.step event) hrest)).trans htask.remaining_lt

theorem remaining_start_le (h : Handle A D) (poisoned : Int32 → Bool) (levels : List Int32) :
    (start h poisoned levels).remaining ≤ 12 * levels.length + 2 := by
  have htally : (start h poisoned levels).tally (fun _ => Duty.ahead) ≤ 12 * levels.length := by
    refine (Finset.sum_le_card_nsmul Finset.univ _ 12 fun worker _ => Duty.ahead_le _ _).trans ?_
    rw [Finset.card_univ, Fintype.card_fin, Nat.nsmul_eq_mul, Nat.mul_comm]
  rw [remaining]
  split <;> omega

/-! ### There is always something to do -/

/-- Some worker has a task. -/
def Acts (habit : Habit A) (s : Prewarming levels A) : Prop :=
  ∃ event worker, Task habit s (s.step habit event) worker

/-- Whoever waits for the engine has an answer. -/
theorem Orderly.acts_of_building (hs : s.Orderly habit h) (hable : habit.Able)
    (hduty : s.duty worker = .building) : s.Acts habit := by
  obtain ⟨verdict, hfate⟩ := hable (levels.get worker)
  exact ⟨.finish worker verdict, worker, (hs.standing worker).task_of_permits hduty hfate⟩

/-- The worker that has asked for the format check can act. -/
theorem Orderly.acts_of_checker (hs : s.Orderly habit h) (hchecker : s.checker = some worker) :
    s.Acts habit := by
  have hchecking := hs.checker worker hchecker
  rcases (hs.standing worker).advance with ⟨-, hwaits⟩ | htask
  · cases hwaits with
    | lock holder hactivity hholder =>
        cases hs.standing worker with
        | checking _ hbuilding =>
            rw [hbuilding] at hactivity
            cases hactivity
        | ready hduty _ | entering hduty _ | ensuring hduty _ _ | building hduty _ _ _
          | publishing _ hduty _ _ _ _ | returning _ hduty _ _ | counting _ hduty _ _
          | done _ hduty _ _ =>
            rw [hduty] at hchecking
            cases hchecking
    | engine hduty | check _ hduty _ | done _ hduty _ =>
        rw [hduty] at hchecking
        cases hchecking
  · exact ⟨.advance worker, worker, htask⟩

/-- Whoever holds a lock can act, or somebody it waits for. -/
theorem Orderly.acts_of_held (hs : s.Orderly habit h) (hable : habit.Able) {asked : BuildTarget}
    (hheld : (s.shared.activity worker).held? = some asked) : s.Acts habit := by
  rcases (hs.standing worker).advance with ⟨-, hwaits⟩ | htask
  · cases hwaits with
    | engine hduty => exact hs.acts_of_building hable hduty
    | check checker _ hchecker => exact hs.acts_of_checker hchecker
    | lock _ hactivity _ | done _ _ hactivity =>
        rw [hactivity] at hheld
        cases hheld
  · exact ⟨.advance worker, worker, htask⟩

/-- All workers are done. -/
def Finished (s : Prewarming levels A) : Prop :=
  ∀ worker, ∃ outcome, s.duty worker = .done outcome

/-- **Workers never block each other**: as long as one is not done, one of them can act. -/
theorem Orderly.exists_task (hs : s.Orderly habit h) (hable : habit.Able) (hunfinished : ¬s.Finished) :
    s.Acts habit := by
  obtain ⟨worker, hworker⟩ := not_forall.mp hunfinished
  rcases (hs.standing worker).advance with ⟨-, hwaits⟩ | htask
  · cases hwaits with
    | engine hduty => exact hs.acts_of_building hable hduty
    | lock holder _ hholder => exact hs.acts_of_held hable ((hs.locked holder _).mpr hholder)
    | check checker _ hchecker => exact hs.acts_of_checker hchecker
    | done outcome hduty => exact absurd ⟨outcome, hduty⟩ hworker
  · exact ⟨.advance worker, worker, htask⟩

/-- As long as a worker is not done, some event does something. -/
theorem Orderly.exists_step_ne (hs : s.Orderly habit h) (hable : habit.Able)
    (hunfinished : ¬s.Finished) : ∃ event, s.step habit event ≠ s := by
  obtain ⟨event, worker, htask⟩ := hs.exists_task hable hunfinished
  refine ⟨event, fun hsame => ?_⟩
  have hlt := htask.remaining_lt
  rw [hsame] at hlt
  exact Nat.lt_irrefl _ hlt

/-- **However workers have interleaved, they can all be done.** -/
theorem Orderly.exists_finished (hs : s.Orderly habit h) (hable : habit.Able) :
    ∃ events, (s.run habit events).Finished := by
  -- On what remains: as long as a worker is not done, some event brings them closer to their end.
  induction hremaining : s.remaining using Nat.strong_induction_on generalizing s with
  | _ remaining ih =>
      by_cases hfinished : s.Finished
      · exact ⟨[], hfinished⟩
      · obtain ⟨event, worker, htask⟩ := hs.exists_task hable hfinished
        have hlt := htask.remaining_lt
        rw [hremaining] at hlt
        obtain ⟨events, hdone⟩ := ih _ hlt (hs.step event) rfl
        exact ⟨event :: events, hdone⟩

end Prewarming

end SharedDictionary
