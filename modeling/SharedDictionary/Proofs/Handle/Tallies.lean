import Mathlib.Algebra.BigOperators.Group.Finset.Basic
import Mathlib.Data.Fintype.Basic
import SharedDictionary.Proofs.Handle.Accounting
import SharedDictionary.Proofs.Handle.Workers

/-!
# What workers amount to

How often something happens to workers is known from where they stand.  Every worker is given a number, by
what it is about and where its runner stands, and the numbers are added up (`Prewarming.tally`).  A task
changes one of them.

So the builds of a level that have started, and those that have succeeded, are as many as there are workers
past these points (`Task.starts`, `Task.successes`).  A level that was not cached before is cached exactly if
there is one worker that has built it, and otherwise there is none (`Task.makers`).  The counters hold what
the workers have counted, and the format check if it was asked for (`Task.ledger`).
-/

namespace SharedDictionary

variable {A D : Type}

/-! ### How far a worker has come -/

/-- What a request has come to. -/
def Duty.upshot? : Duty A → Activity A → Option (Outcome A)
  | .asking, .releasing _ outcome => some outcome
  | .counting outcome, _ | .done outcome, _ => some outcome
  | _, _ => none

/-- A call that comes to this has started a build. -/
def Outcome.startsBuild : Outcome A → Bool
  | returned _ built => built
  | failed _ | panicked _ => true

/-- A call that comes to this has built what it returns. -/
def Outcome.hasBuilt : Outcome A → Bool
  | returned _ built => built
  | failed _ | panicked _ => false

/-- What outcomes count as. -/
theorem Outcome.mem_of_counts {outcome : Outcome A} {e : CounterEvent}
    (hcounts : outcome.counts = some e) : e ∈ [CounterEvent.digestBuilt, .digestHit, .digestFailure] := by
  cases outcome with
  | returned artifact built => cases built <;> cases hcounts <;> decide
  | failed error =>
      cases hcounts
      decide
  | panicked text => cases hcounts

/-- A worker has started a build. -/
def Duty.hasStarted : Duty A → Activity A → Bool
  | .checking, _ | .building, _ | .asking, .building _ | .asking, .publishing _ _ => true
  | duty, activity => (duty.upshot? activity).any Outcome.startsBuild

/-- The build of a worker has succeeded. -/
def Duty.hasSucceeded : Duty A → Activity A → Bool
  | .asking, .publishing _ _ => true
  | duty, activity => (duty.upshot? activity).any Outcome.hasBuilt

/-- A worker has published what it has built. -/
def Duty.hasPublished (duty : Duty A) (activity : Activity A) : Bool :=
  (duty.upshot? activity).any Outcome.hasBuilt

/-- What a worker has counted. -/
def Duty.counted? : Duty A → Option CounterEvent
  | .done outcome => outcome.counts
  | _ => none

namespace Prewarming

variable {levels : List Int32} {habit : Habit A} {h : Handle A D} {s s' : Prewarming levels A}
  {worker : Fin levels.length}

/-! ### Numbers added up -/

/-- A number for where each worker stands, added up. -/
def tally (s : Prewarming levels A) (number : Fin levels.length → Duty A → Activity A → Nat) : Nat :=
  ∑ worker, number worker (s.duty worker) (s.shared.activity worker)

/-- The workers for a level that have come so far. -/
def past (level : Int32) (far : Duty A → Activity A → Bool) (worker : Fin levels.length)
    (duty : Duty A) (activity : Activity A) : Nat :=
  (levels.get worker == level && far duty activity).toNat

/-- The workers that have counted an event. -/
def havingCounted (e : CounterEvent) (_worker : Fin levels.length) (duty : Duty A)
    (_activity : Activity A) : Nat :=
  if duty.counted? = some e then 1 else 0

/-- Sums that differ in one place only differ by the difference in that place. -/
private theorem sum_add_eq_of_ne {n : Nat} {f g : Fin n → Nat} (i : Fin n)
    (hsame : ∀ j, j ≠ i → g j = f j) : (∑ j, g j) + f i = (∑ j, f j) + g i := by
  have hrest : ∑ j ∈ Finset.univ.erase i, g j = ∑ j ∈ Finset.univ.erase i, f j :=
    Finset.sum_congr rfl fun j hj => hsame j (Finset.ne_of_mem_erase hj)
  have hf := Finset.add_sum_erase Finset.univ f (Finset.mem_univ i)
  have hg := Finset.add_sum_erase Finset.univ g (Finset.mem_univ i)
  omega

variable {duty : Duty A} {activity : Activity A} {place : Place (Fin levels.length) A}
  {happened : List (Occurrence (Fin levels.length) A)}

theorem Shift.duty_self (h : s.Shift s' worker duty activity place happened) :
    s'.duty worker = duty := (h.duty worker).trans (if_pos rfl)

theorem Shift.duty_of_ne (h : s.Shift s' worker duty activity place happened)
    {other : Fin levels.length} (hother : other ≠ worker) : s'.duty other = s.duty other :=
  (h.duty other).trans (if_neg hother)

theorem Shift.activity_of_ne (h : s.Shift s' worker duty activity place happened)
    {other : Fin levels.length} (hother : other ≠ worker) :
    s'.shared.activity other = s.shared.activity other :=
  (h.shared.activity other).trans (if_neg hother)

/-- **One worker has moved, and so one number has changed.** -/
theorem Shift.tally (h : s.Shift s' worker duty activity place happened)
    (number : Fin levels.length → Duty A → Activity A → Nat) :
    s'.tally number + number worker (s.duty worker) (s.shared.activity worker)
      = s.tally number + number worker duty activity := by
  have hself : number worker (s'.duty worker) (s'.shared.activity worker)
      = number worker duty activity := by
    rw [h.duty_self, h.shared.activity_self]
  have hothers : ∀ other, other ≠ worker →
      number other (s'.duty other) (s'.shared.activity other)
        = number other (s.duty other) (s.shared.activity other) := by
    intro other hother
    rw [h.duty_of_ne hother, h.activity_of_ne hother]
  rw [← hself]
  exact sum_add_eq_of_ne worker hothers

/-- What workers amount to stays what has happened, if it does so for the one that moves. -/
theorem Shift.balance (h : s.Shift s' worker duty activity place happened)
    {number : Fin levels.length → Duty A → Activity A → Nat}
    {kind : Occurrence (Fin levels.length) A → Bool}
    (hs : s.shared.journal.countP kind = s.tally number)
    (hmover : happened.countP kind + number worker (s.duty worker) (s.shared.activity worker)
      = number worker duty activity) :
    s'.shared.journal.countP kind = s'.tally number := by
  have htally := h.tally number
  rw [h.shared.journal, List.countP_append, hs]
  omega

/-! ### What a task changes -/

theorem beq_target (worker : Fin levels.length) (level : Int32) :
    (target worker == .level level) = (levels.get worker == level) := by
  rw [Bool.eq_iff_iff, beq_iff_eq, beq_iff_eq, target, BuildTarget.level.injEq]

/-- As many builds of a level have started as there are workers that have started one. -/
theorem Task.starts (htask : Task habit s s' worker) {level : Int32}
    (hs : s.shared.journal.countP (·.isStart (.level level)) = s.tally (past level Duty.hasStarted)) :
    s'.shared.journal.countP (·.isStart (.level level)) = s'.tally (past level Duty.hasStarted) := by
  cases htask with
  | begin hduty hfrom _ h =>
      refine h.balance hs ?_
      have hstart : Occurrence.isStart (.level level)
          (.started worker (target worker) : Occurrence (Fin levels.length) A)
            = (levels.get worker == level) := beq_target worker level
      rw [hduty, hfrom, List.countP_singleton, hstart]
      show _ + (levels.get worker == level && false).toNat = (levels.get worker == level && true).toNat
      cases levels.get worker == level <;> rfl
  | start hduty hfrom h | find hduty hfrom h | miss hduty hfrom h | lock hduty hfrom h
    | hit _ hduty hfrom _ h | rehit _ hduty hfrom _ h | check hduty hfrom _ _ _ h
    | checked hduty hfrom _ _ _ h | refuse _ hduty hfrom _ _ h | clear hduty hfrom _ _ h
    | succeed _ hduty hfrom _ _ _ h | fail _ hduty hfrom _ _ _ h | panic _ hduty hfrom _ _ _ h
    | publish _ hduty hfrom _ _ _ h | release _ _ hduty hfrom h | count _ hduty hfrom h =>
      refine h.balance hs ?_
      rw [hduty, hfrom]
      exact Nat.zero_add _

/-- As many builds of a level have succeeded as there are workers whose build has. -/
theorem Task.successes (htask : Task habit s s' worker) {level : Int32}
    (hs : s.shared.journal.countP (·.isSuccess (.level level))
      = s.tally (past level Duty.hasSucceeded)) :
    s'.shared.journal.countP (·.isSuccess (.level level))
      = s'.tally (past level Duty.hasSucceeded) := by
  cases htask with
  | succeed _ hduty hfrom _ _ _ h =>
      refine h.balance hs ?_
      have hsuccess : Occurrence.isSuccess (.level level)
          (.ended worker (target worker) true : Occurrence (Fin levels.length) A)
            = (levels.get worker == level) := beq_target worker level
      rw [hduty, hfrom, List.countP_singleton, hsuccess]
      show _ + (levels.get worker == level && false).toNat = (levels.get worker == level && true).toNat
      cases levels.get worker == level <;> rfl
  | start hduty hfrom h | find hduty hfrom h | miss hduty hfrom h | lock hduty hfrom h
    | hit _ hduty hfrom _ h | rehit _ hduty hfrom _ h | begin hduty hfrom _ h
    | check hduty hfrom _ _ _ h | checked hduty hfrom _ _ _ h | refuse _ hduty hfrom _ _ h
    | clear hduty hfrom _ _ h | fail _ hduty hfrom _ _ _ h | panic _ hduty hfrom _ _ _ h
    | publish _ hduty hfrom _ _ _ h | release _ _ hduty hfrom h | count _ hduty hfrom h =>
      refine h.balance hs ?_
      rw [hduty, hfrom]
      exact Nat.zero_add _

/-- A level was not cached before the workers started, and is. -/
def fresh (h : Handle A D) (s : Prewarming levels A) (level : Int32) : Bool :=
  (h.slotOf level).built.isNone && (s.shared.place (.level level)).built.isSome

/-- A level that was not cached before has been built by one worker, once it is. -/
theorem Task.makers (htask : Task habit s s' worker) {level : Int32}
    (hkept : (h.slotOf level).built.isSome = true →
      (s.shared.place (.level level)).built.isSome = true)
    (hs : s.tally (past level Duty.hasPublished) = (fresh h s level).toNat) :
    s'.tally (past level Duty.hasPublished) = (fresh h s' level).toNat := by
  have hsame : ∀ {duty activity place happened},
      s.Shift s' worker duty activity place happened →
      (s'.shared.place (.level level)).built = (s.shared.place (.level level)).built →
      past level Duty.hasPublished worker (s.duty worker) (s.shared.activity worker)
        = past level Duty.hasPublished worker duty activity →
      s'.tally (past level Duty.hasPublished) = (fresh h s' level).toNat := by
    intro duty activity place happened hshift hbuilt hmover
    have htally := hshift.tally (past level Duty.hasPublished)
    rw [fresh, hbuilt, ← fresh, ← hs]
    omega
  cases htask with
  | publish artifact hduty hfrom hvacant _ _ hshift =>
      by_cases hlevel : levels.get worker = level
      · have htarget : BuildTarget.level level = target worker := by rw [target, hlevel]
        have hbase : (h.slotOf level).built.isNone = true := by
          rw [place, ← htarget] at hvacant
          rw [hvacant] at hkept
          cases hslot : (h.slotOf level).built with
          | none => rfl
          | some old =>
              rw [hslot] at hkept
              cases hkept rfl
        have hbefore : fresh h s level = false := by
          rw [place, ← htarget] at hvacant
          rw [fresh, hvacant, Option.isSome_none, Bool.and_false]
        have hafter : fresh h s' level = true := by
          rw [fresh, hbase, htarget, hshift.shared.place_self]
          rfl
        have htally := hshift.tally (past level Duty.hasPublished)
        rw [hduty, hfrom] at htally
        rw [hbefore] at hs
        rw [hafter]
        simp only [past, hlevel, beq_self_eq_true, Bool.true_and] at htally
        exact htally.trans (by rw [hs]; rfl)
      · have hother : (levels.get worker == level) = false := beq_false_of_ne hlevel
        have htarget : BuildTarget.level level ≠ target worker :=
          fun heq => hlevel (BuildTarget.level.inj heq).symm
        refine hsame hshift ?_ ?_
        · rw [hshift.shared.place, if_neg htarget]
        · rw [past, past, hother, Bool.false_and, Bool.false_and]
  | start hduty hfrom h | find hduty hfrom h | miss hduty hfrom h | lock hduty hfrom h
    | hit _ hduty hfrom _ h | rehit _ hduty hfrom _ h | begin hduty hfrom _ h
    | check hduty hfrom _ _ _ h | checked hduty hfrom _ _ _ h | refuse _ hduty hfrom _ _ h
    | clear hduty hfrom _ _ h | succeed _ hduty hfrom _ _ _ h | fail _ hduty hfrom _ _ _ h
    | panic _ hduty hfrom _ _ _ h | release _ _ hduty hfrom h | count _ hduty hfrom h =>
      refine hsame h (h.shared.place_congr (·.built) rfl _) ?_
      rw [hduty, hfrom]
      rfl

/-! ### Counters -/

/-- The format check, if it was asked for. -/
def checks (h : Handle A D) (s : Prewarming levels A) (e : CounterEvent) : Nat :=
  (e == .formatCheck && h.format.isNone && (s.format.isSome || s.checker.isSome)).toNat

/-- The counters hold what was counted. -/
def Ledger (h : Handle A D) (s : Prewarming levels A) (e : CounterEvent) : Prop :=
  s.counters.get e = h.counters.get e + UInt64.ofNat (checks h s e + s.tally (havingCounted e))

theorem get_count (s : Prewarming levels A) (outcome : Outcome A) (e : CounterEvent) :
    (s.count outcome).counters.get e
      = s.counters.get e + UInt64.ofNat (if outcome.counts = some e then 1 else 0) := by
  rw [count]
  cases hcounts : outcome.counts with
  | none => exact (UInt64.add_zero _).symm
  | some event =>
      rw [Counters.get_record]
      by_cases he : event = e
      · rw [if_pos he, if_pos (congrArg some he)]
        rfl
      · rw [if_neg he, if_neg fun hsome => he (Option.some.inj hsome)]
        exact (UInt64.add_zero _).symm

/-- The counters keep holding what was counted, if what is new is paid for. -/
theorem Shift.ledger (hshift : s.Shift s' worker duty activity place happened) {e : CounterEvent}
    (hs : Ledger h s e) (paid : Nat)
    (hcounters : s'.counters.get e = s.counters.get e + UInt64.ofNat paid)
    (hpaid : checks h s' e + havingCounted e worker duty activity
      = checks h s e + havingCounted e worker (s.duty worker) (s.shared.activity worker) + paid) :
    Ledger h s' e := by
  have htally := hshift.tally (havingCounted e)
  have htotal : checks h s' e + s'.tally (havingCounted e)
      = checks h s e + s.tally (havingCounted e) + paid := by
    omega
  rw [Ledger] at hs ⊢
  rw [htotal, UInt64.ofNat_add _ paid, ← UInt64.add_assoc, ← hs, hcounters]

/-- Nothing is counted where the counters and what is remembered of the format stay as they are. -/
theorem Shift.ledger_of_quiet (hshift : s.Shift s' worker duty activity place happened)
    {e : CounterEvent} (hs : Ledger h s e) (hquiet : s.Quiet s')
    (hmover : duty.counted? = (s.duty worker).counted?) : Ledger h s' e := by
  refine hshift.ledger hs 0 ?_ ?_
  · rw [hquiet.counters]
    exact (UInt64.add_zero _).symm
  · rw [checks, hquiet.format, hquiet.checker, ← checks, havingCounted, hmover]
    rfl

/-- **The counters hold what was counted.** -/
theorem Task.ledger (htask : Task habit s s' worker) {e : CounterEvent}
    (hformat : s.format = none → h.format = none) (hs : Ledger h s e) : Ledger h s' e := by
  cases htask with
  | check hduty hfrom _ hnone hchecker hshift hformat' hchecker' hcounters =>
      have hbefore : checks h s e = 0 := by
        rw [checks, hnone, hchecker, Option.isSome_none, Option.isSome_none, Bool.or_false,
          Bool.and_false]
        rfl
      have hafter : checks h s' e = if CounterEvent.formatCheck = e then 1 else 0 := by
        rw [checks, hformat hnone, hformat', hchecker']
        cases e <;> rfl
      refine hshift.ledger hs (if CounterEvent.formatCheck = e then 1 else 0) ?_ ?_
      · rw [hcounters, Counters.get_record]
        split
        · rfl
        · exact (UInt64.add_zero _).symm
      · rw [hbefore, hafter, hduty, hfrom, Nat.zero_add, Nat.add_comm]
        rfl
  | checked hduty hfrom _ hnone hchecker hshift hformat' hchecker' hcounters =>
      have hchecks : checks h s' e = checks h s e := by
        rw [checks, checks, hnone, hchecker, hformat', hchecker']
        rfl
      refine hshift.ledger hs 0 ?_ ?_
      · rw [hcounters]
        exact (UInt64.add_zero _).symm
      · rw [hchecks, hduty, hfrom]
        rfl
  | count outcome hduty hfrom hshift hformat' hchecker' hcounters =>
      refine hshift.ledger hs (if outcome.counts = some e then 1 else 0) ?_ ?_
      · rw [hcounters, get_count]
      · rw [checks, hformat', hchecker', ← checks, hduty]
        rfl
  | start hduty hfrom h hquiet | find hduty hfrom h hquiet | miss hduty hfrom h hquiet
    | lock hduty hfrom h hquiet | hit _ hduty hfrom _ h hquiet | rehit _ hduty hfrom _ h hquiet
    | begin hduty hfrom _ h hquiet | refuse _ hduty hfrom _ _ h hquiet
    | clear hduty hfrom _ _ h hquiet | succeed _ hduty hfrom _ _ _ h hquiet
    | fail _ hduty hfrom _ _ _ h hquiet | panic _ hduty hfrom _ _ _ h hquiet
    | publish _ hduty hfrom _ _ _ h hquiet | release _ _ hduty hfrom h hquiet =>
      exact h.ledger_of_quiet hs hquiet (congrArg Duty.counted? hduty).symm

end Prewarming

end SharedDictionary
