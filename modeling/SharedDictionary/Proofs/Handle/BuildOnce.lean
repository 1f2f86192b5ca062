import SharedDictionary.Proofs.Handle.Solo
import SharedDictionary.Proofs.Handle.Soundness

/-!
# Every artifact is built once

However the steps of runners interleave, and whatever becomes of the builds that they start, the
artifact of a target is built at most once, and everyone who gets it gets the same one.  A build that
fails or breaks off leaves the place as it was, apart from the mark on the lock, and whoever comes
next can build.

The main result is `buildsOnce_run`.
-/

namespace SharedDictionary

variable {τ α : Type}

namespace Shared

variable [DecidableEq τ] {s : Shared τ α} {runner : τ} {target : BuildTarget}

/-! ### Building after a failure -/

/-- A runner, moving alone, comes to return the artifact of a target, built by itself and of a given
value. -/
def Builds (s : Shared τ α) (runner : τ) (target : BuildTarget) (value : α) : Prop :=
  ∃ events, (∀ event ∈ events, event.runner = runner) ∧ ∃ artifact, artifact.value = value
    ∧ ((s.run events).place target).built = some artifact
    ∧ .returned runner target (.returned artifact true) ∈ (s.run events).journal

/-- **Where nothing is built and the lock is free, whoever has not taken it yet can build.** -/
theorem builds_of_open (hbuilt : (s.place target).built = none)
    (hfree : (s.place target).holder = none) (hheld : (s.activity runner).held? = none)
    (htarget : ∀ other, (s.activity runner).target? = some other → other = target) (value : α) :
    s.Builds runner target value := by
  have hcomes := (comes_building rfl hbuilt hfree hheld htarget).trans fun s' hlands => by
    have hplace := (hlands.place target).trans (if_pos rfl)
    have hactivity := (hlands.activity runner).trans (if_pos rfl)
    have hback := comes_built hactivity hplace hbuilt value
    rw [hlands.nextStamp] at hback
    exact hback
  obtain ⟨events, hevents, hlands⟩ := hcomes
  refine ⟨events, hevents, ⟨value, s.nextStamp⟩, rfl, ?_, hlands.journal⟩
  rw [hlands.place, if_pos rfl]

/-! ### What a failure leaves -/

/-- A runner that has failed to build leaves an open place, with a mark on the lock if it broke
off. -/
theorem Sound.release_of_ne_returned (hs : s.Sound) {outcome : Outcome α}
    (hfrom : s.activity runner = .releasing target outcome)
    (houtcome : ∀ artifact built, outcome ≠ .returned artifact built) :
    (s.step (.advance runner)).place target
      = ⟨none, none, (s.place target).poisoned || outcome.isPanic⟩ := by
  have hunpublished : (s.activity runner).unpublished? = some target := by
    rw [hfrom]
    cases outcome with
    | returned artifact built => exact (houtcome artifact built rfl).elim
    | failed e => rfl
    | panicked text => rfl
  have hbuilt := hs.unbuilt runner target hunpublished
  have hstep : s.step (.advance runner)
      = (s.setPlace target ⟨none, none, (s.place target).poisoned || outcome.isPanic⟩).reply runner
        target outcome := by
    simp only [step, advance, hfrom, hbuilt]
  rw [hstep]
  exact (s.place_setPlace target target _).trans (if_pos rfl)

/-! ### The result -/

/-- Every artifact is built once, and everyone who gets it gets the same one. -/
structure BuildsOnce (s : Shared τ α) : Prop where
  /-- At most one build of a target is in progress. -/
  exclusive : ∀ runner other target, s.activity runner = .building target →
    s.activity other = .building target → runner = other
  /-- At most one build of a target has succeeded. -/
  success_le : ∀ target, s.journal.countP (·.isSuccess target) ≤ 1
  /-- No build of a target has started after one has succeeded. -/
  settled : ∀ later earlier occurrence target, s.journal = later ++ occurrence :: earlier →
    occurrence.isSuccess target = true → ∀ next ∈ later, next.isStart target = false
  /-- All calls for a target have returned the same artifact. -/
  same : ∀ target runner artifact built other artifact' built',
    .returned runner target (.returned artifact built) ∈ s.journal →
    .returned other target (.returned artifact' built') ∈ s.journal → artifact = artifact'
  /-- Two views share what they hold exactly if they are for the same level. -/
  shares : ∀ runner level artifact built other level' artifact' built',
    .returned runner (.level level) (.returned artifact built) ∈ s.journal →
    .returned other (.level level') (.returned artifact' built') ∈ s.journal →
    (DictView.shares (.digested (some level) artifact) (.digested (some level') artifact') = true
      ↔ level = level')
  /-- At most one call for a target has returned and had built. -/
  builder_le : ∀ target, s.journal.countP (·.isBuilder target) ≤ 1
  /-- Once the artifact of a target is there and every call for it has returned, there is one. -/
  builder_eq : ∀ target, (s.place target).built.isSome →
    (∀ runner, (s.activity runner).target? ≠ some target) →
    s.journal.countP (·.isBuilder target) = 1
  /-- A build that fails publishes nothing. -/
  fails : ∀ runner target e, s.activity runner = .building target →
    (s.step (.finish runner (.failed e))).activity runner = .releasing target (.failed e)
      ∧ ∀ other, (s.step (.finish runner (.failed e))).place other = s.place other
  /-- A build that breaks off publishes nothing. -/
  breaksOff : ∀ runner target text, s.activity runner = .building target →
    (s.step (.finish runner (.panicked text))).activity runner = .releasing target (.panicked text)
      ∧ ∀ other, (s.step (.finish runner (.panicked text))).place other = s.place other
  /-- Whoever has not built leaves the place open, and the lock poisoned if it broke off. -/
  recovers : ∀ runner target outcome, s.activity runner = .releasing target outcome →
    (∀ artifact built, outcome ≠ .returned artifact built) →
    (s.step (.advance runner)).place target
      = ⟨none, none, (s.place target).poisoned || outcome.isPanic⟩
  /-- Where a place is open, whoever is idle or on the way to it can build. -/
  retries : ∀ target, (s.place target).built = none → (s.place target).holder = none →
    ∀ runner, (∀ other, (s.activity runner).target? = some other → other = target) →
    ∀ value, s.Builds runner target value

/-- A list in which whatever comes before an element is not like it has at most one like it. -/
private theorem countP_le_one {β : Type} {p : β → Bool} {l : List β}
    (h : l.Pairwise fun a b => p b = true → p a = false) : l.countP p ≤ 1 := by
  induction l with
  | nil => exact Nat.zero_le 1
  | cons a l ih =>
      obtain ⟨hhead, htail⟩ := List.pairwise_cons.mp h
      rw [List.countP_cons]
      by_cases ha : p a = true
      · have hnone : l.countP p = 0 := by
          refine List.countP_eq_zero.mpr fun b hmem hb => ?_
          rw [hhead b hmem hb] at ha
          cases ha
        exact Nat.le_of_eq (by rw [hnone, if_pos ha])
      · rw [if_neg ha]
        exact ih htail

theorem Sound.buildsOnce (hs : s.Sound) : s.BuildsOnce where
  exclusive runner other target hrunner hother := by
    have hheld : (s.activity runner).held? = some target := by
      rw [hrunner]
      rfl
    have hheld' : (s.activity other).held? = some target := by
      rw [hother]
      rfl
    exact hs.holder_unique hheld hheld'
  success_le target := countP_le_one (hs.once.imp fun hpair hsuccess => (hpair target hsuccess).2)
  settled later earlier occurrence target hjournal hsuccess next hmem := by
    have honce := hs.once
    rw [hjournal, List.pairwise_append] at honce
    exact (honce.2.2 next hmem occurrence List.mem_cons_self target hsuccess).1
  same target runner artifact built other artifact' built' hmem hmem' := by
    have hbuilt := hs.returned runner target artifact built hmem
    rw [hs.returned other target artifact' built' hmem'] at hbuilt
    exact (Option.some.inj hbuilt).symm
  shares runner level artifact built other level' artifact' built' hmem hmem' := by
    have hbuilt := hs.returned runner (.level level) artifact built hmem
    have hbuilt' := hs.returned other (.level level') artifact' built' hmem'
    constructor
    · intro hshares
      have htarget := hs.stamp_inj _ artifact _ artifact' (Or.inl hbuilt) (Or.inl hbuilt')
        (eq_of_beq hshares)
      exact BuildTarget.level.inj htarget
    · rintro rfl
      rw [hbuilt] at hbuilt'
      cases hbuilt'
      exact beq_self_eq_true artifact.stamp
  builder_le target := by
    rcases hs.counted target with ⟨-, hcount⟩ | ⟨-, -, hcount⟩
    · exact hcount ▸ Nat.zero_le 1
    · exact Nat.le_of_eq hcount
  builder_eq target hbuilt hreturned := by
    rcases hs.counted target with ⟨hnone | ⟨runner, howed⟩, -⟩ | ⟨-, -, hcount⟩
    · rw [hnone] at hbuilt
      cases hbuilt
    · have hheld := Activity.held?_of_owed? howed
      exact (hreturned runner (Activity.target?_of_held? hheld)).elim
    · exact hcount
  fails runner target e hfrom := by
    rw [step_finish_failed hfrom]
    exact ⟨if_pos rfl, fun _ => rfl⟩
  breaksOff runner target text hfrom := by
    rw [step_finish_panicked hfrom]
    exact ⟨if_pos rfl, fun _ => rfl⟩
  recovers _ _ _ hfrom houtcome := hs.release_of_ne_returned hfrom houtcome
  retries target hbuilt hfree runner htarget value := by
    refine builds_of_open hbuilt hfree ?_ htarget value
    cases hheld : (s.activity runner).held? with
    | none => rfl
    | some other =>
        -- It would hold this very lock, which is free.
        cases htarget other (Activity.target?_of_held? hheld)
        rw [hs.locked, hfree] at hheld
        cases hheld

/-- **Every artifact is built once**, by any number of runners, whatever they ask for, however their
steps interleave, and whatever becomes of the builds. -/
theorem buildsOnce_run (events : List (Event τ α)) :
    (initial.run events : Shared τ α).BuildsOnce :=
  (sound_run events).buildsOnce

/-- Two runners ask for one level before either has taken the lock. -/
example :
    (initial.run [.ask 0 (.level 3), .ask 1 (.level 3), .advance 0, .advance 1, .advance 0,
      .advance 1, .advance 0, .advance 1, .advance 0, .finish 0 (.success 7), .advance 0,
      .advance 0, .advance 1, .advance 1, .advance 1] : Shared Nat Nat).journal
    = [.returned 1 (.level 3) (.returned ⟨7, 0⟩ false),
        .returned 0 (.level 3) (.returned ⟨7, 0⟩ true),
        .ended 0 (.level 3) true, .started 0 (.level 3)] := rfl

end Shared

end SharedDictionary
