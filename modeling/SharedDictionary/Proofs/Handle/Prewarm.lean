import Mathlib.Algebra.BigOperators.Fin
import Mathlib.Algebra.BigOperators.Ring.Finset
import Mathlib.Tactic.Choose
import SharedDictionary.Proofs.Handle.Completion
import SharedDictionary.Proofs.Handle.Sequence

/-!
# Workers come to what requests come to, one after the other

Once all workers are done, what they have come to is what was to be expected (`Orderly.prewarmed`,
`Orderly.result?_eq`), and every level that was to be built was built once (`Orderly.once`).  What requests come
to, one after the other, is what was to be expected, too.  That leaves nothing open, and so both come to the
same, however the workers interleave (`Prewarming.Refines`).
-/

namespace SharedDictionary

variable {σ A D : Type}

namespace Prewarming

variable {levels : List Int32} {habit : Habit A} {h : Handle A D} {s : Prewarming levels A}
  {worker : Fin levels.length}

/-! ### Adding up over levels -/

/-- Workers are as many as there are positions of the list. -/
theorem sum_toNat_get (levels : List Int32) (p : Int32 → Bool) :
    ∑ worker : Fin levels.length, (p (levels.get worker)).toNat = levels.countP p := by
  induction levels with
  | nil => rfl
  | cons level levels ih =>
      rw [List.countP_cons, ← ih]
      refine (Fin.sum_univ_succ _).trans ((Nat.add_comm _ _).trans (congrArg _ ?_))
      show (p level).toNat = _
      cases p level <;> rfl

/-- Each worker is for one level. -/
theorem tally_eq_sum_past (s : Prewarming levels A) (far : Duty A → Activity A → Bool) :
    s.tally (fun _ duty activity => (far duty activity).toNat)
      = ∑ level ∈ levels.toFinset, s.tally (past level far) := by
  unfold tally
  rw [Finset.sum_comm]
  refine Finset.sum_congr rfl fun worker _ => ?_
  have hmem : levels.get worker ∈ levels.toFinset :=
    List.mem_toFinset.mpr (List.get_mem levels worker)
  rw [Finset.sum_eq_single_of_mem _ hmem]
  · rw [past, beq_self_eq_true, Bool.true_and]
  · intro other _ hother
    rw [past, beq_false_of_ne hother.symm, Bool.false_and]
    rfl

/-- What workers have made was asked for. -/
theorem Orderly.mem_of_made (hs : s.Orderly habit h) {level : Int32} {artifact : Built A}
    (hbuilt : (s.shared.place (.level level)).built = some artifact)
    (hmade : Made habit h s level artifact) : level ∈ levels := by
  have hbase : (h.slotOf level).built = none := by
    cases hold : (h.slotOf level).built with
    | none => rfl
    | some old =>
        have hbuilds := hmade.prospect
        rw [Handle.prospect_of_built hold] at hbuilds
        cases hbuilds
  have hmaker : s.tally (past level Duty.hasPublished) = 1 := by
    rw [hs.makers, fresh, hbase, hbuilt]
    rfl
  obtain ⟨worker, -, hworker⟩ :=
    Finset.exists_ne_zero_of_sum_ne_zero (hmaker.trans_ne Nat.one_ne_zero)
  have hlevel : levels.get worker = level := by
    by_contra hother
    rw [past, beq_false_of_ne hother, Bool.false_and] at hworker
    exact hworker rfl
  exact hlevel ▸ List.get_mem levels worker

/-! ### All workers are done -/

section Finished

variable (hs : s.Orderly habit h) (hfinished : s.Finished)

include hs hfinished

/-- What was to be expected has come. -/
theorem Orderly.exists_done (worker : Fin levels.length) :
    ∃ outcome, s.duty worker = .done outcome ∧ s.Fits habit h worker outcome := by
  obtain ⟨outcome, hdone⟩ := hfinished worker
  refine ⟨outcome, hdone, (hs.standing worker).fits ?_⟩
  rw [hdone]
  rfl

theorem Orderly.checker_eq_none : s.checker = none := by
  cases hchecker : s.checker with
  | none => rfl
  | some worker =>
      obtain ⟨outcome, hdone⟩ := hfinished worker
      have hchecking := hs.checker worker hchecker
      rw [hdone] at hchecking
      cases hchecking

/-- What is remembered of the format is settled. -/
theorem Orderly.format_eq :
    s.format = if h.misses habit levels then some (h.format.getD habit.check) else h.format := by
  split
  · rename_i hmisses
    obtain ⟨level, hmem, hmissing⟩ := List.any_eq_true.mp hmisses
    obtain ⟨worker, rfl⟩ := List.mem_iff_get.mp hmem
    obtain ⟨outcome, -, hfits⟩ := hs.exists_done hfinished worker
    obtain ⟨result, hresult⟩ := Option.isSome_iff_exists.mp (hfits.settled (bne_iff_ne.mp hmissing))
    rw [hresult, hs.known result hresult]
  · rename_i hmisses
    cases hbefore : h.format with
    | some result => exact hs.remembered result hbefore
    | none =>
        cases hformat : s.format with
        | none => rfl
        | some result =>
            obtain ⟨worker, hmissing⟩ := hs.needed hbefore (by rw [hformat]; rfl)
            exact absurd (Handle.misses_of_mem (List.get_mem levels worker) hmissing) hmisses

theorem Orderly.checks_eq :
    checks h s .formatCheck = (h.format.isNone && h.misses habit levels).toNat := by
  rw [checks, hs.checker_eq_none hfinished, hs.format_eq hfinished]
  cases h.misses habit levels <;> cases h.format <;> rfl

/-- Numbers that agree on what was to be expected add up to the same. -/
theorem Orderly.tally_congr {number number' : Fin levels.length → Duty A → Activity A → Nat}
    (hsame : ∀ worker outcome activity, outcome.Meets (h.prospect habit (levels.get worker)) →
      number worker (.done outcome) activity = number' worker (.done outcome) activity) :
    s.tally number = s.tally number' := by
  refine Finset.sum_congr rfl fun worker _ => ?_
  obtain ⟨outcome, hdone, hfits⟩ := hs.exists_done hfinished worker
  rw [hdone]
  exact hsame worker outcome _ hfits.meets

/-- What was to be built is there. -/
theorem Orderly.isSome_built {level : Int32} (hmem : level ∈ levels)
    (hbuilds : h.prospect habit level = .builds) :
    (s.shared.place (.level level)).built.isSome = true := by
  obtain ⟨worker, rfl⟩ := List.mem_iff_get.mp hmem
  obtain ⟨outcome, -, hfits⟩ := hs.exists_done hfinished worker
  have hmeets := hfits.meets
  rw [hbuilds] at hmeets
  cases hmeets with
  | late artifact | built artifact =>
      have hthere := hfits.there artifact _ rfl
      rw [place, target] at hthere
      rw [hthere]
      rfl

/-- A level that was asked for is fresh if it was to be built. -/
theorem Orderly.fresh_eq {level : Int32} (hmem : level ∈ levels) :
    fresh h s level = (h.prospect habit level == .builds) := by
  cases hbuilt : (h.slotOf level).built with
  | some artifact =>
      rw [fresh, hbuilt, Handle.prospect_of_built hbuilt]
      rfl
  | none =>
      rw [fresh, hbuilt]
      by_cases hbuilds : h.prospect habit level = .builds
      · rw [hs.isSome_built hfinished hmem hbuilds, hbuilds]
        rfl
      · rw [beq_false_of_ne hbuilds]
        cases hplace : (s.shared.place (.level level)).built with
        | none => rfl
        | some artifact =>
            rcases hs.grown level artifact hplace with hold | hmade
            · rw [hbuilt] at hold
              cases hold
            · exact absurd hmade.prospect hbuilds

/-- **Workers have built as many digests as there are levels to be built.** -/
theorem Orderly.tally_digestBuilt : s.tally (havingCounted .digestBuilt) = (h.due habit levels).card := by
  have hpublished : s.tally (havingCounted .digestBuilt)
      = s.tally fun _ duty activity => (duty.hasPublished activity).toNat := by
    refine hs.tally_congr hfinished fun worker outcome activity _ => ?_
    cases outcome with
    | returned artifact built => cases built <;> rfl
    | failed e => rfl
    | panicked text => rfl
  rw [hpublished, tally_eq_sum_past, Handle.due, Finset.card_filter]
  refine Finset.sum_congr rfl fun level hmem => ?_
  rw [hs.makers, hs.fresh_eq hfinished (List.mem_toFinset.mp hmem)]
  split
  · rename_i hbuilds
    rw [hbuilds]
    rfl
  · rename_i hbuilds
    rw [beq_false_of_ne hbuilds]
    rfl

/-- **Those that have not built a digest have found it**, where it was to be had. -/
theorem Orderly.tally_found :
    s.tally (havingCounted .digestBuilt) + s.tally (havingCounted .digestHit)
      = levels.countP fun level => (h.prospect habit level).isFound := by
  have hsum : s.tally (havingCounted .digestBuilt) + s.tally (havingCounted .digestHit)
      = s.tally fun worker duty activity =>
        havingCounted .digestBuilt worker duty activity + havingCounted .digestHit worker duty activity :=
    Finset.sum_add_distrib.symm
  have hfound : s.tally (fun worker duty activity =>
        havingCounted .digestBuilt worker duty activity + havingCounted .digestHit worker duty activity)
      = s.tally fun worker _ _ => (h.prospect habit (levels.get worker)).isFound.toNat := by
    refine hs.tally_congr hfinished fun worker outcome activity hmeets => ?_
    generalize h.prospect habit (levels.get worker) = p at hmeets
    cases hmeets <;> rfl
  rw [hsum, hfound]
  exact sum_toNat_get levels fun level => (h.prospect habit level).isFound

theorem Orderly.tally_digestFailure :
    s.tally (havingCounted .digestFailure)
      = levels.countP fun level => (h.prospect habit level).isFailure := by
  have hfailed : s.tally (havingCounted .digestFailure)
      = s.tally fun worker _ _ => (h.prospect habit (levels.get worker)).isFailure.toNat := by
    refine hs.tally_congr hfinished fun worker outcome activity hmeets => ?_
    generalize h.prospect habit (levels.get worker) = p at hmeets
    cases hmeets <;> rfl
  rw [hfailed]
  exact sum_toNat_get levels fun level => (h.prospect habit level).isFailure

/-- What no outcome counts as was not counted. -/
theorem Orderly.tally_eq_zero {e : CounterEvent}
    (he : e ∉ [CounterEvent.digestBuilt, .digestHit, .digestFailure]) : s.tally (havingCounted e) = 0 := by
  have hzero : s.tally (havingCounted e) = s.tally fun _ _ _ => 0 :=
    hs.tally_congr hfinished fun _ outcome _ _ =>
      if_neg fun hcounts => he (Outcome.mem_of_counts hcounts)
  exact hzero.trans Finset.sum_const_zero

/-- **What workers have counted is what was to be expected.** -/
theorem Orderly.costs :
    h.Costs habit levels fun e => checks h s e + s.tally (havingCounted e) where
  formatCheck := by
    rw [hs.checks_eq hfinished, hs.tally_eq_zero hfinished (by decide), Nat.add_zero]
  digestBuilt := (Nat.zero_add _).trans (hs.tally_digestBuilt hfinished)
  found := by
    have hfound := hs.tally_found hfinished
    have hbuilt : checks h s .digestBuilt = 0 := rfl
    have hhit : checks h s .digestHit = 0 := rfl
    omega
  digestFailure := (Nat.zero_add _).trans (hs.tally_digestFailure hfinished)
  decoderBuilt := (Nat.zero_add _).trans (hs.tally_eq_zero hfinished (by decide))
  undigestedLoad := (Nat.zero_add _).trans (hs.tally_eq_zero hfinished (by decide))
  prefixLoad := (Nat.zero_add _).trans (hs.tally_eq_zero hfinished (by decide))

/-- **Once all workers are done, it is as was to be expected.** -/
theorem Orderly.prewarmed :
    h.Prewarmed habit levels s.format s.counters fun level => (s.shared.place (.level level)).built where
  format := hs.format_eq hfinished
  counters := ⟨_, hs.costs hfinished, hs.ledger⟩
  kept := hs.kept
  grown level artifact hbuilt := by
    rcases hs.grown level artifact hbuilt with hold | hmade
    · exact .inl hold
    · exact .inr ⟨hs.mem_of_made hbuilt hmade, hmade.prospect, hmade.fate⟩
  there level hmem hbuilds := hs.isSome_built hfinished hmem hbuilds

/-- **Every level that is to be built is built once**: one build of it starts, and that one succeeds. -/
theorem Orderly.once {level : Int32} (hmem : level ∈ levels)
    (hbuilds : h.prospect habit level = .builds) :
    s.shared.journal.countP (·.isStart (.level level)) = 1
      ∧ s.shared.journal.countP (·.isSuccess (.level level)) = 1 := by
  have hmaker : s.tally (past level Duty.hasPublished) = 1 := by
    rw [hs.makers, hs.fresh_eq hfinished hmem, hbuilds]
    rfl
  rw [hs.starts, hs.successes]
  refine ⟨?_, ?_⟩
  · refine (hs.tally_congr hfinished fun worker outcome activity hmeets => ?_).trans hmaker
    by_cases hlevel : levels.get worker = level
    · rw [hlevel, hbuilds] at hmeets
      cases hmeets <;> rfl
    · rw [past, past, beq_false_of_ne hlevel, Bool.false_and, Bool.false_and]
  · have hpublished : s.tally (past level Duty.hasSucceeded) = s.tally (past level Duty.hasPublished) :=
      hs.tally_congr hfinished fun _ _ _ _ => rfl
    exact hpublished.trans hmaker

end Finished

/-! ### What is returned -/

theorem firstFailure_eq_ok_iff (results : List (Except DictError Unit)) :
    firstFailure results = .ok () ↔ ∀ result ∈ results, result = .ok () := by
  induction results with
  | nil => exact iff_of_true rfl nofun
  | cons result results ih =>
      rw [List.forall_mem_cons, ← ih]
      rcases result with e | ⟨⟨⟩⟩
      · exact iff_of_false nofun fun hok => by cases hok.1
      · exact ⟨fun hrest => ⟨rfl, hrest⟩, And.right⟩

theorem firstFailure_eq_error_iff (results : List (Except DictError Unit)) (e : DictError) :
    firstFailure results = .error e
      ↔ ∃ before after, results = before ++ .error e :: after ∧ ∀ result ∈ before, result = .ok () := by
  induction results with
  | nil => exact iff_of_false nofun fun ⟨before, after, heq, _⟩ => by cases before <;> cases heq
  | cons result results ih =>
      rcases result with e' | ⟨⟨⟩⟩
      · constructor
        · intro hfirst
          cases hfirst
          exact ⟨[], results, rfl, nofun⟩
        · rintro ⟨before, after, heq, hbefore⟩
          cases before with
          | nil =>
              cases heq
              rfl
          | cons first before =>
              cases heq
              cases hbefore _ List.mem_cons_self
      · refine ih.trans ⟨?_, ?_⟩
        · rintro ⟨before, after, rfl, hbefore⟩
          exact ⟨.ok () :: before, after, rfl, List.forall_mem_cons.mpr ⟨rfl, hbefore⟩⟩
        · rintro ⟨before, after, heq, hbefore⟩
          cases before with
          | nil => cases heq
          | cons first before =>
              cases heq
              exact ⟨before, after, rfl, fun result hmem => hbefore result (List.mem_cons_of_mem _ hmem)⟩

theorem firstFailure_map_eq_error_iff {outcome : Int32 → Except DictError Unit} {e : DictError} :
    firstFailure (levels.map outcome) = .error e ↔ ∃ before level after,
      levels = before ++ level :: after ∧ (∀ earlier ∈ before, outcome earlier = .ok ())
        ∧ outcome level = .error e := by
  rw [firstFailure_eq_error_iff]
  constructor
  · rintro ⟨before, after, heq, hbefore⟩
    obtain ⟨before, rest, rfl, rfl, hrest⟩ := List.map_eq_append_iff.mp heq
    obtain ⟨level, after, rfl, hlevel, rfl⟩ := List.map_eq_cons_iff.mp hrest
    exact ⟨before, level, after, rfl, List.forall_mem_map.mp hbefore, hlevel⟩
  · rintro ⟨before, level, after, rfl, hbefore, hlevel⟩
    refine ⟨before.map outcome, after.map outcome, ?_, List.forall_mem_map.mpr hbefore⟩
    rw [List.map_append, List.map_cons, hlevel]

/-- Where every worker has an outcome, all of them are had. -/
private theorem mapM_id_map_some {α : Type} (values : List α) :
    (values.map some).mapM id = some values := by
  induction values with
  | nil => rfl
  | cons value values ih =>
      rw [List.map_cons, List.mapM_cons, ih]
      rfl

private theorem isSome_of_mapM_id {α : Type} {options : List (Option α)} {values : List α}
    (hall : options.mapM id = some values) : ∀ option ∈ options, option.isSome = true := by
  induction options generalizing values with
  | nil => nofun
  | cons first options ih =>
      rw [List.mapM_cons] at hall
      cases first with
      | none => cases hall
      | some value =>
          cases hrest : options.mapM id with
          | none =>
              rw [hrest] at hall
              cases hall
          | some rest => exact List.forall_mem_cons.mpr ⟨rfl, ih hrest⟩

/-- There is a result only once all workers are done. -/
theorem finished_of_result? {result : Except DictError Unit} (hresult : s.result? = some result) :
    s.Finished := by
  obtain ⟨outcomes, hall, -⟩ := Option.map_eq_some_iff.mp hresult
  intro worker
  have hsome := isSome_of_mapM_id hall (s.outcome? worker) (List.mem_ofFn.mpr ⟨worker, rfl⟩)
  unfold outcome? at hsome
  split at hsome
  · exact ⟨_, ‹_›⟩
  · cases hsome

/-- **Once all workers are done, the first failure that was to be expected is returned.** -/
theorem Orderly.result?_eq (hs : s.Orderly habit h) (hfinished : s.Finished) :
    s.result? = some (firstFailure (levels.map fun level => (h.prospect habit level).joined)) := by
  choose outcome hdone hfits using hs.exists_done hfinished
  have houtcomes : List.ofFn s.outcome? = (List.ofFn outcome).map some := by
    rw [List.map_ofFn]
    congr 1
    funext worker
    rw [outcome?, hdone]
    rfl
  have hjoined : (List.ofFn outcome).map Outcome.joined
      = levels.map fun level => (h.prospect habit level).joined := by
    conv_rhs => rw [← List.ofFn_get levels]
    rw [List.map_ofFn, List.map_ofFn]
    congr 1
    funext worker
    exact (hfits worker).meets.joined
  rw [result?, houtcomes, mapM_id_map_some, Option.map_some, hjoined]

/-! ### Any interleaving, and one after the other -/

/-- What workers have come to is what was to be expected, and what requests come to, one after the other. -/
structure Refines (habit : Habit A) (h : Handle A D) (s : Prewarming levels A)
    (result : Except DictError Unit) (sequence : Except DictError Unit × World σ A D) : Prop where
  ok_iff : result = .ok () ↔ ∀ level ∈ levels,
    h.prospect habit level ≠ .panics ∧ ∀ e, h.prospect habit level ≠ .fails e
  /-- The first failure in the order of the list is returned. -/
  error_iff : ∀ e, result = .error e ↔ ∃ before level after, levels = before ++ level :: after
    ∧ (∀ earlier ∈ before, (h.prospect habit earlier).joined = .ok ())
    ∧ (h.prospect habit level).joined = .error e
  cached_iff : ∀ level, (s.shared.place (.level level)).built.isSome = true
    ↔ (h.slotOf level).built.isSome = true ∨ level ∈ levels ∧ h.prospect habit level = .builds
  /-- One build of a level starts, and it succeeds. -/
  once : ∀ level ∈ levels, h.prospect habit level = .builds →
    s.shared.journal.countP (·.isStart (.level level)) = 1
      ∧ s.shared.journal.countP (·.isSuccess (.level level)) = 1
  result_eq : result = sequence.1
  cached_eq : ∀ level, (s.shared.place (.level level)).built.isSome
    = (sequence.2.handle.slotOf level).built.isSome
  /-- An artifact that was there is the same, and others are of the same make. -/
  artifacts : ∀ level artifact artifact', (s.shared.place (.level level)).built = some artifact →
    (sequence.2.handle.slotOf level).built = some artifact' →
    artifact = artifact' ∧ (h.slotOf level).built = some artifact
      ∨ (habit.fate level).permits (.success artifact.value) = true
        ∧ (habit.fate level).permits (.success artifact'.value) = true
  format_eq : s.format = sequence.2.handle.format
  counters_eq : s.counters = sequence.2.handle.counters

/-- What was to be expected leaves nothing open. -/
theorem Orderly.refines (hs : s.Orderly habit h) (hfinished : s.Finished)
    {outcomes : List (Except DictError Unit)} {sequence : Except DictError Unit × World σ A D}
    (hserves : h.Serves habit levels outcomes sequence.2.handle)
    (hresult : sequence.1 = firstFailure (levels.map fun level => (h.prospect habit level).joined)) :
    Refines habit h s (firstFailure (levels.map fun level => (h.prospect habit level).joined))
      sequence where
  ok_iff := by
    rw [firstFailure_eq_ok_iff, List.forall_mem_map]
    exact forall₂_congr fun level _ => Prospect.joined_eq_ok_iff
  error_iff _ := firstFailure_map_eq_error_iff
  cached_iff := (hs.prewarmed hfinished).isSome_built
  once level hmem hbuilds := hs.once hfinished hmem hbuilds
  result_eq := hresult.symm
  cached_eq level := by
    rw [Bool.eq_iff_iff, (hs.prewarmed hfinished).isSome_built, hserves.prewarmed.isSome_built]
  artifacts level artifact artifact' hworkers hsequence := by
    rcases (hs.prewarmed hfinished).grown level artifact hworkers with hold | ⟨-, hbuilds, hfate⟩
    · rw [hserves.prewarmed.kept level artifact hold] at hsequence
      exact .inl ⟨Option.some.inj hsequence, hold⟩
    · rcases hserves.prewarmed.grown level artifact' hsequence with hold | ⟨-, -, hfate'⟩
      · rw [Handle.prospect_of_built hold] at hbuilds
        cases hbuilds
      · exact .inr ⟨hfate, hfate'⟩
  format_eq := (hs.prewarmed hfinished).format.trans hserves.prewarmed.format.symm
  counters_eq := (hs.prewarmed hfinished).counters_unique hserves.prewarmed

/-- **Building digests ahead with workers comes to what requests come to, one after the other.**  Workers on
a handle where nothing is being built, and whose engine always does the same, have only so much to do, and
until all of them are done there is something to do.  Then the first failure in the order of the list is
returned, if there is one, and what is cached, what is remembered of the format and what the counters hold is
as if their levels had been asked for one after the other.  Where the handle agrees with its engine, a level
fails if the engine says so. -/
theorem refines_prewarm {E : Engine σ A D} (hkeeps : E.Keeps habit h.content h.isRaw) (hrest : h.AtRest)
    (poisoned : Int32 → Bool) (depth : Nat) (engine : σ) (events : List (WorkerEvent levels A)) :
    (Busy habit (start h poisoned levels) events → events.length ≤ 12 * levels.length + 2)
      ∧ (((start h poisoned levels).run habit events).result? = none →
        ∃ event, ((start h poisoned levels).run habit events).step habit event
          ≠ (start h poisoned levels).run habit events)
      ∧ (∀ result, ((start h poisoned levels).run habit events).result? = some result →
        Refines habit h ((start h poisoned levels).run habit events) result
          (prewarm E (depth + 1) levels ⟨h, engine⟩))
      ∧ (h.Accords habit → ∀ level, (h.prospect habit level).joined = habit.joined level) := by
  have hs := orderly_run habit h poisoned levels events
  refine ⟨fun hbusy => ?_, fun hnone => ?_, fun result hresult => ?_, Handle.Accords.joined_prospect⟩
  · exact ((orderly_start habit h poisoned levels).length_le_of_busy hbusy).trans
      (remaining_start_le h poisoned levels)
  · refine hs.exists_step_ne (hkeeps.able engine) fun hfinished => ?_
    rw [hs.result?_eq hfinished] at hnone
    cases hnone
  · have hfinished := finished_of_result? hresult
    rw [hs.result?_eq hfinished] at hresult
    rw [← Option.some.inj hresult]
    exact hs.refines hfinished (hkeeps.serveAll hrest depth levels engine)
      (hkeeps.prewarm_eq hrest depth levels engine)

/-- Three workers, two of them for the same level, and the build of the other level breaks off.  All three
find nothing and one has to wait for the lock; the build that breaks off has to wait for the format check. -/
theorem refines_prewarm_contended :
    let habit : Habit Unit := ⟨.ok (), fun level => if level = 2 then .panics else .builds fun _ => true⟩
    let E : Engine Unit Unit Unit :=
      { check := fun _ _ _ => (.success (), ())
        prepare := fun _ _ _ => ([], ())
        build := fun _ _ level => (if level = 2 then .panicked "broken" else .success (), ())
        buildDecoder := fun _ _ => (.success (), ()) }
    let h : Handle Unit Unit := .new .empty true
    let events : List (WorkerEvent [1, 2, 1] Unit) :=
      [.advance 0, .advance 1, .advance 2, .advance 0, .advance 1, .advance 2, .advance 0, .advance 1,
        .advance 2, .advance 0, .advance 1, .advance 2, .advance 0, .advance 1, .advance 0, .advance 1,
        .advance 0, .advance 0, .advance 1, .finish 1 (.panicked "broken"), .finish 0 (.success ()),
        .advance 1, .advance 1, .advance 0, .advance 0, .advance 0, .advance 2, .advance 2, .advance 2,
        .advance 2]
    let s := (start h (fun _ => false) [1, 2, 1]).run habit events
    let result : Except DictError Unit := .error (.state "prewarm worker panicked")
    E.Keeps habit h.content h.isRaw ∧ h.AtRest ∧ s.result? = some result
      ∧ Refines habit h s result (prewarm E 1 [1, 2, 1] ⟨h, ()⟩) := by
  intro habit E h events s result
  have hkeeps : E.Keeps habit h.content h.isRaw :=
    { check := fun _ => rfl
      prepare := fun _ _ _ => rfl
      build := fun _ level => by
        show Fate.permits (if level = 2 then _ else _) (if level = 2 then _ else _) = true
        split <;> rfl }
  have hrest : h.AtRest := fun _ => rfl
  have hresult : s.result? = some result := by decide +kernel
  exact ⟨hkeeps, hrest, hresult,
    (refines_prewarm hkeeps hrest (fun _ => false) 0 () events).2.2.1 result hresult⟩

end Prewarming

end SharedDictionary
