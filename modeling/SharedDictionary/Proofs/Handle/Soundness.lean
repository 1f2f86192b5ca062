import Mathlib.Data.List.Induction
import SharedDictionary.Proofs.Handle.Moves

/-!
# What holds however runners interleave

The invariant of runners that share places is `Shared.Sound`.  The lock carries it: a runner that
has started a build has found nothing built, and as long as it holds the lock nobody else publishes.
What is published is never replaced (`Move.built_mono`), and so what a runner has read, with or
without the lock, stays true.

Each fact is shown to be preserved by every move, one after the other; `sound_run` puts them
together.
-/

namespace SharedDictionary

variable {τ α : Type}

/-- The target of a build that is in progress, or that has ended and not been published. -/
def Activity.unpublished? : Activity α → Option BuildTarget
  | .building target | .publishing target _ => some target
  | .releasing target (.failed _) | .releasing target (.panicked _) => some target
  | _ => none

theorem Activity.held?_of_unpublished? {activity : Activity α} {target : BuildTarget}
    (h : activity.unpublished? = some target) : activity.held? = some target := by
  unfold unpublished? at h
  split at h <;> first | exact h | cases h

/-- The target whose artifact a runner has built and is about to return. -/
def Activity.owed? : Activity α → Option BuildTarget
  | .releasing target (.returned _ true) => some target
  | _ => none

theorem Activity.held?_of_owed? {activity : Activity α} {target : BuildTarget}
    (h : activity.owed? = some target) : activity.held? = some target := by
  unfold owed? at h
  split at h
  · exact h
  · cases h

theorem Activity.owed?_eq_none_of_held? {activity : Activity α} (h : activity.held? = none) :
    activity.owed? = none := by
  rcases howed : activity.owed? with _ | target
  · rfl
  · rw [held?_of_owed? howed] at h
    cases h

/-- A build of a target starts. -/
def Occurrence.isStart (target : BuildTarget) : Occurrence τ α → Bool
  | .started _ other => other == target
  | _ => false

/-- A build of a target succeeds. -/
def Occurrence.isSuccess (target : BuildTarget) : Occurrence τ α → Bool
  | .ended _ other true => other == target
  | _ => false

/-- A call returns the artifact of a target and has built it. -/
def Occurrence.isBuilder (target : BuildTarget) : Occurrence τ α → Bool
  | .returned _ other (.returned _ true) => other == target
  | _ => false

namespace Shared

/-- An artifact is that of a target, or is about to be. -/
def Owns (s : Shared τ α) (target : BuildTarget) (artifact : Built α) : Prop :=
  (s.place target).built = some artifact ∨ ∃ runner, s.activity runner = .publishing target artifact

/-- The call that has built the artifact of a target has not returned yet. -/
def Owed (s : Shared τ α) (target : BuildTarget) : Prop :=
  ∃ runner, (s.activity runner).owed? = some target

/-- A lock is held by the runner that stands inside. -/
def Locked (s : Shared τ α) : Prop :=
  ∀ runner target, (s.activity runner).held? = some target ↔ (s.place target).holder = some runner

/-- What holds however runners interleave. -/
structure Sound (s : Shared τ α) : Prop where
  /-- A lock is held by the runner that stands inside. -/
  locked : ∀ runner target,
    (s.activity runner).held? = some target ↔ (s.place target).holder = some runner
  /-- While a build is not published, nothing is. -/
  unbuilt : ∀ runner target, (s.activity runner).unpublished? = some target →
    (s.place target).built = none
  /-- What a runner is about to return is the artifact of its target. -/
  served : ∀ runner target artifact built,
    s.activity runner = .releasing target (.returned artifact built) →
    (s.place target).built = some artifact
  /-- What was returned is the artifact of its target. -/
  returned : ∀ runner target artifact built,
    .returned runner target (.returned artifact built) ∈ s.journal →
    (s.place target).built = some artifact
  /-- What has succeeded is published or about to be. -/
  succeeded : ∀ occurrence ∈ s.journal, ∀ target, occurrence.isSuccess target = true →
    ∃ artifact, s.Owns target artifact
  /-- After a success nothing is built. -/
  once : s.journal.Pairwise fun later earlier => ∀ target, earlier.isSuccess target = true →
    later.isStart target = false ∧ later.isSuccess target = false
  stamp_lt : ∀ target artifact, s.Owns target artifact → artifact.stamp < s.nextStamp
  stamp_inj : ∀ target artifact other artifact', s.Owns target artifact →
    s.Owns other artifact' → artifact.stamp = artifact'.stamp → target = other
  /-- Once the call that has built has returned, it is the only one that has, and before there is
  none. -/
  counted : ∀ target,
    (((s.place target).built = none ∨ s.Owed target)
        ∧ s.journal.countP (·.isBuilder target) = 0)
      ∨ ((s.place target).built.isSome ∧ ¬s.Owed target
        ∧ s.journal.countP (·.isBuilder target) = 1)

theorem sound_initial : (initial : Shared τ α).Sound := by
  have hplace : ∀ target, (initial : Shared τ α).place target = .vacant := by
    intro target
    unfold Shared.place initial
    dsimp only
    split <;> rfl
  have howns : ∀ target artifact, ¬(initial : Shared τ α).Owns target artifact := by
    rintro target artifact (hbuilt | ⟨runner, hpublishing⟩)
    · rw [hplace] at hbuilt
      cases hbuilt
    · cases hpublishing
  constructor
  · intro runner target
    rw [hplace]
    exact iff_of_false (fun hheld => by cases hheld) (fun hholder => by cases hholder)
  · intro runner target hunpublished
    cases hunpublished
  · intro runner target artifact built hreleasing
    cases hreleasing
  · intro runner target artifact built hreturned
    cases hreturned
  · intro occurrence hmem
    cases hmem
  · exact List.Pairwise.nil
  · exact fun target artifact howned => (howns target artifact howned).elim
  · exact fun target artifact _ _ howned => (howns target artifact howned).elim
  · intro target
    rw [hplace]
    exact Or.inl ⟨Or.inl rfl, rfl⟩

variable {s s' : Shared τ α}

/-- At most one runner holds the lock of a target. -/
theorem Locked.unique (hs : s.Locked) {runner other : τ} {target : BuildTarget}
    (hrunner : (s.activity runner).held? = some target)
    (hother : (s.activity other).held? = some target) : runner = other := by
  rw [hs] at hrunner hother
  exact Option.some.inj (hrunner.symm.trans hother)

theorem Sound.holder_unique (hs : s.Sound) {runner other : τ} {target : BuildTarget}
    (hrunner : (s.activity runner).held? = some target)
    (hother : (s.activity other).held? = some target) : runner = other :=
  Locked.unique hs.locked hrunner hother

/-- Where the holder of the lock has found nothing and has nothing to publish, nobody has. -/
theorem Sound.not_owns (hs : s.Sound) {runner : τ} {target : BuildTarget}
    (hheld : (s.activity runner).held? = some target)
    (hempty : ∀ artifact, s.activity runner ≠ .publishing target artifact)
    (hbuilt : (s.place target).built = none) (artifact : Built α) : ¬s.Owns target artifact := by
  rintro (hsome | ⟨other, hpublishing⟩)
  · rw [hbuilt] at hsome
    cases hsome
  · have hother : (s.activity other).held? = some target := by
      rw [hpublishing]
      rfl
    rw [← hs.holder_unique hheld hother] at hpublishing
    exact hempty artifact hpublishing

variable [DecidableEq τ]

/-! ### Preservation, one fact at a time -/

/-- **What is built stays.** -/
theorem Move.built_mono (hmove : s.Move s') {target : BuildTarget} {artifact : Built α}
    (hbuilt : (s.place target).built = some artifact) :
    (s'.place target).built = some artifact := by
  have hkept : ∀ {runner activity other place happened},
      s.Changes s' runner activity other place happened →
      place.built = (s.place other).built → (s'.place target).built = some artifact := by
    intro runner activity other place happened h hplace
    rw [h.place_congr (·.built) hplace]
    exact hbuilt
  cases hmove with
  | rest hsame => rwa [hsame]
  | pass _ _ _ _ _ h => exact hkept h rfl
  | hit _ _ _ _ _ h => exact hkept h rfl
  | lock _ _ _ _ h => exact hkept h rfl
  | rehit _ _ _ _ _ h => exact hkept h rfl
  | start _ _ _ _ h => exact hkept h rfl
  | succeed _ _ _ _ h => exact hkept h rfl
  | fail _ _ _ _ _ h => exact hkept h rfl
  | publish _ other _ _ h =>
      rw [h.place]
      by_cases htarget : target = other
      · rw [if_pos htarget, ← htarget, hbuilt]
        rfl
      · rw [if_neg htarget]
        exact hbuilt
  | release _ _ _ _ _ h => exact hkept h rfl

/-- **No move breaks a lock.** -/
theorem Locked.move (hs : s.Locked) (hmove : s.Move s') : s'.Locked := by
  intro runner target
  have hkept : ∀ {mover activity other place happened},
      s.Changes s' mover activity other place happened →
      activity.held? = (s.activity mover).held? → place.holder = (s.place other).holder →
      ((s'.activity runner).held? = some target ↔ (s'.place target).holder = some runner) := by
    intro mover activity other place happened h hheld hholder
    rw [h.activity_congr (·.held?) hheld, h.place_congr (·.holder) hholder]
    exact hs runner target
  cases hmove with
  | rest hsame =>
      rw [hsame]
      exact hs runner target
  | pass mover activity other hfrom hto h => exact hkept h (hto.trans hfrom.symm) rfl
  | hit mover other artifact hfrom hbuilt h => exact hkept h (by rw [hfrom]; rfl) rfl
  | lock mover other hfrom hfree h =>
      -- The lock was free, so nobody held it, and the runner that takes it held none.
      rw [h.activity, h.place]
      by_cases hrunner : runner = mover <;> by_cases htarget : target = other
      · rw [if_pos hrunner, if_pos htarget, hrunner, htarget]
        exact iff_of_true rfl rfl
      · rw [if_pos hrunner, if_neg htarget, ← hs, hrunner, hfrom]
        exact iff_of_false (fun hheld => htarget (Option.some.inj hheld).symm)
          (fun hheld => by cases hheld)
      · rw [if_neg hrunner, if_pos htarget, htarget, hs, hfree]
        exact iff_of_false (fun hholder => by cases hholder)
          (fun hholder => hrunner (Option.some.inj hholder).symm)
      · rw [if_neg hrunner, if_neg htarget]
        exact hs runner target
  | rehit mover other artifact hfrom hbuilt h => exact hkept h (by rw [hfrom]; rfl) rfl
  | start mover other hfrom hbuilt h => exact hkept h (by rw [hfrom]; rfl) rfl
  | succeed mover other value hfrom h => exact hkept h (by rw [hfrom]; rfl) rfl
  | fail mover other outcome hfrom houtcome h => exact hkept h (by rw [hfrom]; rfl) rfl
  | publish mover other artifact hfrom h => exact hkept h (by rw [hfrom]; rfl) rfl
  | release mover other outcome poisoned hfrom h =>
      -- The runner held this lock and no other, and nobody else held it.
      have hheld : (s.activity mover).held? = some other := by
        rw [hfrom]
        rfl
      rw [h.activity, h.place]
      by_cases hrunner : runner = mover <;> by_cases htarget : target = other
      · rw [if_pos hrunner, if_pos htarget]
        exact iff_of_false (fun hheld => by cases hheld) (fun hholder => by cases hholder)
      · rw [if_pos hrunner, if_neg htarget, ← hs, hrunner, hheld]
        exact iff_of_false (fun hidle => by cases hidle)
          (fun hsame => htarget (Option.some.inj hsame).symm)
      · rw [if_neg hrunner, if_pos htarget, htarget]
        exact iff_of_false (fun hother => hrunner (hs.unique hother hheld))
          (fun hholder => by cases hholder)
      · rw [if_neg hrunner, if_neg htarget]
        exact hs runner target

theorem Sound.move_unbuilt (hs : s.Sound) (hmove : s.Move s') (runner : τ) (target : BuildTarget)
    (hunpublished : (s'.activity runner).unpublished? = some target) :
    (s'.place target).built = none := by
  have hkept : ∀ {mover activity other place happened},
      s.Changes s' mover activity other place happened → place.built = (s.place other).built →
      (activity.unpublished? = some target → (s.place target).built = none) →
      (s'.place target).built = none := by
    intro mover activity other place happened h hplace hnew
    rw [h.place_congr (·.built) hplace]
    rw [h.activity] at hunpublished
    split at hunpublished
    · exact hnew hunpublished
    · exact hs.unbuilt runner target hunpublished
  -- A build that ends was in progress, and so nothing was built.
  have hended : ∀ {mover other} {activity : Activity α}, s.activity mover = .building other →
      activity.held? = some other → activity.unpublished? = some target →
      (s.place target).built = none := by
    intro mover other activity hfrom hto hnew
    have hsame := (Activity.held?_of_unpublished? hnew).symm.trans hto
    refine hs.unbuilt mover target ?_
    rw [hfrom]
    exact hsame.symm
  cases hmove with
  | rest hsame =>
      rw [hsame] at hunpublished ⊢
      exact hs.unbuilt runner target hunpublished
  | pass mover activity other hfrom hto h =>
      refine hkept h rfl fun hnew => ?_
      rw [Activity.held?_of_unpublished? hnew] at hto
      cases hto
  | hit mover other artifact hfrom hbuilt h => exact hkept h rfl fun hnew => by cases hnew
  | lock mover other hfrom hfree h => exact hkept h rfl fun hnew => by cases hnew
  | rehit mover other artifact hfrom hbuilt h => exact hkept h rfl fun hnew => by cases hnew
  | start mover other hfrom hbuilt h =>
      refine hkept h rfl fun hnew => ?_
      cases hnew
      exact hbuilt
  | succeed mover other value hfrom h => exact hkept h rfl (hended hfrom rfl)
  | fail mover other outcome hfrom houtcome h => exact hkept h rfl (hended hfrom rfl)
  | publish mover other artifact hfrom h =>
      rw [h.activity] at hunpublished
      split at hunpublished
      · cases hunpublished
      · rename_i hrunner
        rw [h.place]
        split
        · -- Two runners would hold the lock.
          rename_i htarget
          have hheld : (s.activity mover).held? = some target := by
            rw [hfrom, htarget]
            rfl
          exact (hrunner
            (hs.holder_unique (Activity.held?_of_unpublished? hunpublished) hheld)).elim
        · exact hs.unbuilt runner target hunpublished
  | release mover other outcome poisoned hfrom h => exact hkept h rfl fun hnew => by cases hnew

theorem Sound.move_served (hs : s.Sound) (hmove : s.Move s') (runner : τ) (target : BuildTarget)
    (artifact : Built α) (built : Bool)
    (hserved : s'.activity runner = .releasing target (.returned artifact built)) :
    (s'.place target).built = some artifact := by
  have hkept : ∀ {mover activity other place happened},
      s.Changes s' mover activity other place happened →
      (activity = .releasing target (.returned artifact built) →
        (s'.place target).built = some artifact) →
      (s'.place target).built = some artifact := by
    intro mover activity other place happened h hnew
    rw [h.activity] at hserved
    split at hserved
    · exact hnew hserved
    · exact hmove.built_mono (hs.served runner target artifact built hserved)
  cases id hmove with
  | rest hsame =>
      rw [hsame] at hserved ⊢
      exact hs.served runner target artifact built hserved
  | pass mover activity other hfrom hto h =>
      refine hkept h fun hnew => ?_
      rw [hnew] at hto
      cases hto
  | hit mover other found hfrom hbuilt h => exact hkept h fun hnew => by cases hnew
  | lock mover other hfrom hfree h => exact hkept h fun hnew => by cases hnew
  | rehit mover other found hfrom hbuilt h =>
      refine hkept h fun hnew => ?_
      cases hnew
      exact hmove.built_mono hbuilt
  | start mover other hfrom hbuilt h => exact hkept h fun hnew => by cases hnew
  | succeed mover other value hfrom h => exact hkept h fun hnew => by cases hnew
  | fail mover other outcome hfrom houtcome h =>
      refine hkept h fun hnew => ?_
      cases hnew
      exact (houtcome artifact built rfl).elim
  | publish mover other new hfrom h =>
      refine hkept h fun hnew => ?_
      cases hnew
      rw [h.place, if_pos rfl]
  | release mover other outcome poisoned hfrom h => exact hkept h fun hnew => by cases hnew

theorem Sound.move_returned (hs : s.Sound) (hmove : s.Move s') (runner : τ) (target : BuildTarget)
    (artifact : Built α) (built : Bool)
    (hreturned : .returned runner target (.returned artifact built) ∈ s'.journal) :
    (s'.place target).built = some artifact := by
  refine hmove.built_mono ?_
  have hkept : ∀ {mover activity other place happened},
      s.Changes s' mover activity other place happened →
      (.returned runner target (.returned artifact built) ∈ happened →
        (s.place target).built = some artifact) →
      (s.place target).built = some artifact := by
    intro mover activity other place happened h hnew
    rw [h.journal] at hreturned
    rcases List.mem_append.mp hreturned with hlate | hearly
    · exact hnew hlate
    · exact hs.returned runner target artifact built hearly
  cases hmove with
  | rest hsame =>
      rw [hsame] at hreturned
      exact hs.returned runner target artifact built hreturned
  | pass mover activity other hfrom hto h => exact hkept h fun hnew => by cases hnew
  | hit mover other found hfrom hbuilt h =>
      refine hkept h fun hnew => ?_
      cases List.mem_singleton.mp hnew
      exact hbuilt
  | lock mover other hfrom hfree h => exact hkept h fun hnew => by cases hnew
  | rehit mover other found hfrom hbuilt h => exact hkept h fun hnew => by cases hnew
  | start mover other hfrom hbuilt h =>
      exact hkept h fun hnew => by cases List.mem_singleton.mp hnew
  | succeed mover other value hfrom h =>
      exact hkept h fun hnew => by cases List.mem_singleton.mp hnew
  | fail mover other outcome hfrom houtcome h =>
      exact hkept h fun hnew => by cases List.mem_singleton.mp hnew
  | publish mover other new hfrom h => exact hkept h fun hnew => by cases hnew
  | release mover other outcome poisoned hfrom h =>
      refine hkept h fun hnew => ?_
      cases List.mem_singleton.mp hnew
      exact hs.served runner target artifact built hfrom

/-- What is owned was owned before, or is what has just been built. -/
theorem Sound.move_owns (hs : s.Sound) (hmove : s.Move s') :
    ∃ fresh, ∀ target artifact, s'.Owns target artifact → s.Owns target artifact
      ∨ (target = fresh ∧ artifact.stamp = s.nextStamp ∧ s.nextStamp < s'.nextStamp) := by
  have hkept : ∀ {mover activity other place happened},
      s.Changes s' mover activity other place happened → place.built = (s.place other).built →
      (∀ target artifact, activity ≠ .publishing target artifact) →
      ∃ fresh, ∀ target artifact, s'.Owns target artifact → s.Owns target artifact
        ∨ (target = fresh ∧ artifact.stamp = s.nextStamp ∧ s.nextStamp < s'.nextStamp) := by
    intro mover activity other place happened h hplace hactivity
    refine ⟨other, ?_⟩
    rintro target artifact (hbuilt | ⟨runner, hpublishing⟩)
    · rw [h.place_congr (·.built) hplace] at hbuilt
      exact Or.inl (Or.inl hbuilt)
    · rw [h.activity] at hpublishing
      split at hpublishing
      · exact (hactivity target artifact hpublishing).elim
      · exact Or.inl (Or.inr ⟨runner, hpublishing⟩)
  cases hmove with
  | rest hsame =>
      rw [hsame]
      exact ⟨.decoder, fun _ _ => Or.inl⟩
  | pass mover activity other hfrom hto h =>
      refine hkept h rfl fun target artifact hnew => ?_
      rw [hnew] at hto
      cases hto
  | hit mover other artifact hfrom hbuilt h => exact hkept h rfl fun _ _ hnew => by cases hnew
  | lock mover other hfrom hfree h => exact hkept h rfl fun _ _ hnew => by cases hnew
  | rehit mover other artifact hfrom hbuilt h => exact hkept h rfl fun _ _ hnew => by cases hnew
  | start mover other hfrom hbuilt h => exact hkept h rfl fun _ _ hnew => by cases hnew
  | succeed mover other value hfrom h hstamp =>
      refine ⟨other, ?_⟩
      rintro target artifact (hbuilt | ⟨runner, hpublishing⟩)
      · rw [h.place_congr (·.built) rfl] at hbuilt
        exact Or.inl (Or.inl hbuilt)
      · rw [h.activity] at hpublishing
        split at hpublishing
        · cases hpublishing
          exact Or.inr ⟨rfl, rfl, hstamp⟩
        · exact Or.inl (Or.inr ⟨runner, hpublishing⟩)
  | fail mover other outcome hfrom houtcome h => exact hkept h rfl fun _ _ hnew => by cases hnew
  | publish mover other new hfrom h =>
      have hbuilt : (s.place other).built = none := by
        refine hs.unbuilt mover other ?_
        rw [hfrom]
        rfl
      rw [hbuilt] at h
      refine ⟨other, ?_⟩
      rintro target artifact (hsome | ⟨runner, hpublishing⟩)
      · rw [h.place] at hsome
        split at hsome
        · rename_i htarget
          cases hsome
          rw [htarget]
          exact Or.inl (Or.inr ⟨mover, hfrom⟩)
        · exact Or.inl (Or.inl hsome)
      · rw [h.activity] at hpublishing
        split at hpublishing
        · cases hpublishing
        · exact Or.inl (Or.inr ⟨runner, hpublishing⟩)
  | release mover other outcome poisoned hfrom h =>
      exact hkept h rfl fun _ _ hnew => by cases hnew

theorem Move.nextStamp_le (hmove : s.Move s') : s.nextStamp ≤ s'.nextStamp := by
  cases hmove with
  | rest hsame => exact Nat.le_of_eq (by rw [hsame])
  | pass _ _ _ _ _ h => exact h.nextStamp
  | hit _ _ _ _ _ h => exact h.nextStamp
  | lock _ _ _ _ h => exact h.nextStamp
  | rehit _ _ _ _ _ h => exact h.nextStamp
  | start _ _ _ _ h => exact h.nextStamp
  | succeed _ _ _ _ h => exact h.nextStamp
  | fail _ _ _ _ _ h => exact h.nextStamp
  | publish _ _ _ _ h => exact h.nextStamp
  | release _ _ _ _ _ h => exact h.nextStamp

theorem Sound.move_stamp_lt (hs : s.Sound) (hmove : s.Move s') (target : BuildTarget)
    (artifact : Built α) (howns : s'.Owns target artifact) : artifact.stamp < s'.nextStamp := by
  obtain ⟨fresh, hfresh⟩ := hs.move_owns hmove
  rcases hfresh target artifact howns with hold | ⟨-, hstamp, hnext⟩
  · exact Nat.lt_of_lt_of_le (hs.stamp_lt target artifact hold) hmove.nextStamp_le
  · rwa [hstamp]

theorem Sound.move_stamp_inj (hs : s.Sound) (hmove : s.Move s') (target : BuildTarget)
    (artifact : Built α) (other : BuildTarget) (artifact' : Built α)
    (howns : s'.Owns target artifact) (howns' : s'.Owns other artifact')
    (hstamp : artifact.stamp = artifact'.stamp) : target = other := by
  obtain ⟨fresh, hfresh⟩ := hs.move_owns hmove
  rcases hfresh target artifact howns with hold | ⟨htarget, hnew, -⟩ <;>
    rcases hfresh other artifact' howns' with hold' | ⟨hother, hnew', -⟩
  · exact hs.stamp_inj target artifact other artifact' hold hold' hstamp
  · exact absurd (hstamp.trans hnew') (Nat.ne_of_lt (hs.stamp_lt target artifact hold))
  · exact absurd (hstamp.symm.trans hnew) (Nat.ne_of_lt (hs.stamp_lt other artifact' hold'))
  · rw [htarget, hother]

/-- What is owned stays owned. -/
theorem Move.owns_mono (hmove : s.Move s') {target : BuildTarget}
    (howns : ∃ artifact, s.Owns target artifact) : ∃ artifact, s'.Owns target artifact := by
  obtain ⟨artifact, hbuilt | ⟨runner, hpublishing⟩⟩ := howns
  · exact ⟨artifact, Or.inl (hmove.built_mono hbuilt)⟩
  have hkept : ∀ {mover activity other place happened},
      s.Changes s' mover activity other place happened →
      (∀ artifact, s.activity mover ≠ .publishing target artifact) →
      ∃ artifact, s'.Owns target artifact := by
    intro mover activity other place happened h hfrom
    have hrunner : runner ≠ mover := by
      rintro rfl
      exact hfrom artifact hpublishing
    refine ⟨artifact, Or.inr ⟨runner, ?_⟩⟩
    rw [h.activity, if_neg hrunner]
    exact hpublishing
  cases hmove with
  | rest hsame =>
      rw [hsame]
      exact ⟨artifact, Or.inr ⟨runner, hpublishing⟩⟩
  | pass mover activity other hfrom hto h =>
      refine hkept h fun artifact hsame => ?_
      rw [hsame] at hfrom
      cases hfrom
  | hit mover other found hfrom hbuilt h =>
      exact hkept h fun artifact hsame => by rw [hfrom] at hsame; cases hsame
  | lock mover other hfrom hfree h =>
      exact hkept h fun artifact hsame => by rw [hfrom] at hsame; cases hsame
  | rehit mover other found hfrom hbuilt h =>
      exact hkept h fun artifact hsame => by rw [hfrom] at hsame; cases hsame
  | start mover other hfrom hbuilt h =>
      exact hkept h fun artifact hsame => by rw [hfrom] at hsame; cases hsame
  | succeed mover other value hfrom h =>
      exact hkept h fun artifact hsame => by rw [hfrom] at hsame; cases hsame
  | fail mover other outcome hfrom houtcome h =>
      exact hkept h fun artifact hsame => by rw [hfrom] at hsame; cases hsame
  | publish mover other new hfrom h =>
      by_cases hrunner : runner = mover
      · rw [hrunner, hfrom] at hpublishing
        cases hpublishing
        refine ⟨(s.place target).built.getD artifact, Or.inl ?_⟩
        rw [h.place, if_pos rfl]
      · refine ⟨artifact, Or.inr ⟨runner, ?_⟩⟩
        rw [h.activity, if_neg hrunner]
        exact hpublishing
  | release mover other outcome poisoned hfrom h =>
      exact hkept h fun artifact hsame => by rw [hfrom] at hsame; cases hsame

theorem Sound.move_succeeded (hs : s.Sound) (hmove : s.Move s') (occurrence : Occurrence τ α)
    (hmem : occurrence ∈ s'.journal) (target : BuildTarget)
    (hsuccess : occurrence.isSuccess target = true) : ∃ artifact, s'.Owns target artifact := by
  have hkept : ∀ {mover activity other place happened},
      s.Changes s' mover activity other place happened →
      (occurrence ∈ happened → ∃ artifact, s'.Owns target artifact) →
      ∃ artifact, s'.Owns target artifact := by
    intro mover activity other place happened h hnew
    rw [h.journal] at hmem
    rcases List.mem_append.mp hmem with hlate | hearly
    · exact hnew hlate
    · exact hmove.owns_mono (hs.succeeded occurrence hearly target hsuccess)
  -- Only the success of a build is one.
  have hother : ∀ other : Occurrence τ α, other.isSuccess target = false → occurrence ≠ other := by
    rintro other hfalse rfl
    rw [hfalse] at hsuccess
    cases hsuccess
  cases id hmove with
  | rest hsame =>
      rw [hsame] at hmem ⊢
      exact hs.succeeded occurrence hmem target hsuccess
  | pass mover activity other hfrom hto h => exact hkept h fun hnew => by cases hnew
  | hit mover other found hfrom hbuilt h =>
      exact hkept h fun hnew => (hother _ rfl (List.mem_singleton.mp hnew)).elim
  | lock mover other hfrom hfree h => exact hkept h fun hnew => by cases hnew
  | rehit mover other found hfrom hbuilt h => exact hkept h fun hnew => by cases hnew
  | start mover other hfrom hbuilt h =>
      exact hkept h fun hnew => (hother _ rfl (List.mem_singleton.mp hnew)).elim
  | succeed mover other value hfrom h =>
      refine hkept h fun hnew => ?_
      rw [List.mem_singleton.mp hnew] at hsuccess
      have htarget : other = target := eq_of_beq hsuccess
      refine ⟨⟨value, s.nextStamp⟩, Or.inr ⟨mover, ?_⟩⟩
      rw [h.activity, if_pos rfl, htarget]
  | fail mover other outcome hfrom houtcome h =>
      exact hkept h fun hnew => (hother _ rfl (List.mem_singleton.mp hnew)).elim
  | publish mover other new hfrom h => exact hkept h fun hnew => by cases hnew
  | release mover other outcome poisoned hfrom h =>
      exact hkept h fun hnew => (hother _ rfl (List.mem_singleton.mp hnew)).elim

theorem Sound.move_once (hs : s.Sound) (hmove : s.Move s') :
    s'.journal.Pairwise fun later earlier => ∀ target, earlier.isSuccess target = true →
      later.isStart target = false ∧ later.isSuccess target = false := by
  have hnoted : ∀ {mover activity other place occurrence},
      s.Changes s' mover activity other place [occurrence] →
      (∀ target, (∃ artifact, s.Owns target artifact) →
        occurrence.isStart target = false ∧ occurrence.isSuccess target = false) →
      s'.journal.Pairwise fun later earlier => ∀ target, earlier.isSuccess target = true →
        later.isStart target = false ∧ later.isSuccess target = false := by
    intro mover activity other place occurrence h hnew
    rw [h.journal]
    refine List.Pairwise.cons ?_ hs.once
    intro earlier hmem target hsuccess
    exact hnew target (hs.succeeded earlier hmem target hsuccess)
  have hkept : s'.journal = s.journal →
      s'.journal.Pairwise fun later earlier => ∀ target, earlier.isSuccess target = true →
        later.isStart target = false ∧ later.isSuccess target = false := by
    intro hjournal
    rw [hjournal]
    exact hs.once
  -- Nothing is owned where a runner holds the lock and has found nothing.
  have hempty : ∀ (mover : τ) {other}, (s.activity mover).held? = some other →
      (∀ artifact, s.activity mover ≠ .publishing other artifact) →
      (s.place other).built = none → ∀ target, (∃ artifact, s.Owns target artifact) →
      (other == target) = false := by
    rintro mover other hheld hactivity hbuilt target ⟨artifact, howns⟩
    refine beq_eq_false_iff_ne.mpr ?_
    rintro rfl
    exact hs.not_owns hheld hactivity hbuilt artifact howns
  cases hmove with
  | rest hsame => exact hkept (by rw [hsame])
  | pass mover activity other hfrom hto h => exact hkept h.journal
  | hit mover other found hfrom hbuilt h => exact hnoted h fun _ _ => ⟨rfl, rfl⟩
  | lock mover other hfrom hfree h => exact hkept h.journal
  | rehit mover other found hfrom hbuilt h => exact hkept h.journal
  | start mover other hfrom hbuilt h =>
      refine hnoted h fun target howns => ⟨hempty mover ?_ ?_ hbuilt target howns, rfl⟩
      · rw [hfrom]
        rfl
      · rw [hfrom]
        exact fun _ hsame => by cases hsame
  | succeed mover other value hfrom h =>
      have hbuilt : (s.place other).built = none := by
        refine hs.unbuilt mover other ?_
        rw [hfrom]
        rfl
      refine hnoted h fun target howns => ⟨rfl, hempty mover ?_ ?_ hbuilt target howns⟩
      · rw [hfrom]
        rfl
      · rw [hfrom]
        exact fun _ hsame => by cases hsame
  | fail mover other outcome hfrom houtcome h => exact hnoted h fun _ _ => ⟨rfl, rfl⟩
  | publish mover other new hfrom h => exact hkept h.journal
  | release mover other outcome poisoned hfrom h => exact hnoted h fun _ _ => ⟨rfl, rfl⟩

theorem Sound.move_counted (hs : s.Sound) (hmove : s.Move s') (target : BuildTarget) :
    (((s'.place target).built = none ∨ s'.Owed target)
        ∧ s'.journal.countP (·.isBuilder target) = 0)
      ∨ ((s'.place target).built.isSome ∧ ¬s'.Owed target
        ∧ s'.journal.countP (·.isBuilder target) = 1) := by
  have hkept : ∀ {mover activity other place happened},
      s.Changes s' mover activity other place happened →
      (s'.place target).built = (s.place target).built →
      (s'.Owed target ↔ s.Owed target) → happened.countP (·.isBuilder target) = 0 →
      (((s'.place target).built = none ∨ s'.Owed target)
          ∧ s'.journal.countP (·.isBuilder target) = 0)
        ∨ ((s'.place target).built.isSome ∧ ¬s'.Owed target
          ∧ s'.journal.countP (·.isBuilder target) = 1) := by
    intro mover activity other place happened h hbuilt howed hcount
    rw [hbuilt, howed, h.journal, List.countP_append, hcount, Nat.zero_add]
    exact hs.counted target
  have howed : ∀ {mover activity other place happened},
      s.Changes s' mover activity other place happened →
      activity.owed? = (s.activity mover).owed? → (s'.Owed target ↔ s.Owed target) := by
    intro mover activity other place happened h hsame
    exact exists_congr fun runner => by rw [h.activity_congr (·.owed?) hsame]
  cases hmove with
  | rest hsame =>
      rw [hsame]
      exact hs.counted target
  | pass mover activity other hfrom hto h =>
      refine hkept h (h.place_congr (·.built) rfl target) (howed h ?_) rfl
      rw [Activity.owed?_eq_none_of_held? hfrom, Activity.owed?_eq_none_of_held? hto]
  | hit mover other found hfrom hbuilt h =>
      exact hkept h (h.place_congr (·.built) rfl target) (howed h (by rw [hfrom]; rfl)) rfl
  | lock mover other hfrom hfree h =>
      exact hkept h (h.place_congr (·.built) rfl target) (howed h (by rw [hfrom]; rfl)) rfl
  | rehit mover other found hfrom hbuilt h =>
      exact hkept h (h.place_congr (·.built) rfl target) (howed h (by rw [hfrom]; rfl)) rfl
  | start mover other hfrom hbuilt h =>
      exact hkept h (h.place_congr (·.built) rfl target) (howed h (by rw [hfrom]; rfl)) rfl
  | succeed mover other value hfrom h =>
      exact hkept h (h.place_congr (·.built) rfl target) (howed h (by rw [hfrom]; rfl)) rfl
  | fail mover other outcome hfrom houtcome h =>
      refine hkept h (h.place_congr (·.built) rfl target) (howed h ?_) rfl
      rw [hfrom]
      cases outcome with
      | returned artifact built => exact (houtcome artifact built rfl).elim
      | failed e => rfl
      | panicked text => rfl
  | publish mover other new hfrom h =>
      by_cases htarget : target = other
      · -- Nothing was built, so nobody has claimed to have built it; the runner will.
        subst htarget
        have hbuilt : (s.place target).built = none := by
          refine hs.unbuilt mover target ?_
          rw [hfrom]
          rfl
        rcases hs.counted target with ⟨-, hcount⟩ | ⟨hsome, -⟩
        · refine Or.inl ⟨Or.inr ⟨mover, ?_⟩, ?_⟩
          · rw [h.activity_self]
            rfl
          · rw [h.journal]
            exact hcount
        · rw [hbuilt] at hsome
          cases hsome
      · -- What is owed now is of another target.
        refine hkept h ?_ (exists_congr fun runner => ?_) rfl
        · rw [h.place, if_neg htarget]
        · rw [h.activity]
          split
          · rename_i hrunner
            rw [hrunner, hfrom]
            exact iff_of_false (fun hnew => htarget (Option.some.inj hnew).symm)
              (fun hold => by cases hold)
          · rfl
  | release mover other outcome poisoned hfrom h =>
      by_cases howing : (s.activity mover).owed? = some target
      · -- The runner that has built returns, and nobody else holds the lock.
        have hheld := Activity.held?_of_owed? howing
        have hpaid : ¬s'.Owed target := by
          rintro ⟨holder, hholder⟩
          rw [h.activity] at hholder
          split at hholder
          · cases hholder
          · rename_i hother
            exact hother (hs.holder_unique (Activity.held?_of_owed? hholder) hheld)
        have hcount : s.journal.countP (·.isBuilder target) = 0 := by
          rcases hs.counted target with ⟨-, hcount⟩ | ⟨-, hnone, -⟩
          · exact hcount
          · exact (hnone ⟨mover, howing⟩).elim
        rw [hfrom] at howing
        unfold Activity.owed? at howing
        split at howing
        · rename_i built artifact hreleasing
          cases hreleasing
          cases howing
          have hbuilt := hs.served mover target artifact true hfrom
          refine Or.inr ⟨?_, hpaid, ?_⟩
          · rw [h.place_congr (·.built) rfl, hbuilt]
            rfl
          · rw [h.journal, List.countP_append, hcount, Nat.add_zero]
            exact List.countP_singleton.trans (if_pos (beq_self_eq_true target))
        · cases howing
      · refine hkept h (h.place_congr (·.built) rfl target) (exists_congr fun runner => ?_) ?_
        · rw [h.activity]
          split
          · rename_i hrunner
            rw [hrunner]
            exact iff_of_false (fun hidle => by cases hidle) howing
          · rfl
        · refine List.countP_singleton.trans (if_neg fun hbuilder => howing ?_)
          unfold Occurrence.isBuilder at hbuilder
          split at hbuilder
          · rename_i hreturned
            cases hreturned
            rw [hfrom, ← eq_of_beq hbuilder]
            rfl
          · cases hbuilder

/-- **Every move keeps things sound.** -/
theorem Sound.move (hs : s.Sound) (hmove : s.Move s') : s'.Sound where
  locked := Locked.move hs.locked hmove
  unbuilt := hs.move_unbuilt hmove
  served := hs.move_served hmove
  returned := hs.move_returned hmove
  succeeded := hs.move_succeeded hmove
  once := hs.move_once hmove
  stamp_lt := hs.move_stamp_lt hmove
  stamp_inj := hs.move_stamp_inj hmove
  counted := hs.move_counted hmove

/-- **Things are sound however runners interleave.** -/
theorem sound_run (events : List (Event τ α)) : (initial.run events : Shared τ α).Sound := by
  induction events using List.reverseRecOn with
  | nil => exact sound_initial
  | append_singleton events event ih =>
      unfold run
      rw [List.foldl_append]
      exact ih.move (step_move _ event)

end Shared

end SharedDictionary
