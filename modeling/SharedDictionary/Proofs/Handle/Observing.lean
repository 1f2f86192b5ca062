import SharedDictionary.Handle.Observation
import SharedDictionary.Proofs.Handle.Soundness

/-!
# What a report of an observer means

A level that an observer reports as cached has been built: artifacts come from builds that have succeeded,
and stay (`Shared.Earned`).  A level that it reports as materializing had its lock taken, at the very moment
of the report.  Who had taken it is another question.  An observer tells that a lock is free by taking it, and
so it may be the probe of another observer that is in the way, where nobody builds.

An observer that is left alone reports the state of a slot (`Observed.reports_alone`).

The steps of observers are listed once, in `Observed.Reaction`; what they keep is `Observed.Honest`.  The main
result is `Observed.reports_explained`, and `Observed.materializing_without_build` is a run of two observers
that meet at a level whose only build has failed.
-/

namespace SharedDictionary

variable {τ ω α : Type}

/-! ### Artifacts come from builds -/

namespace Shared

/-- Whatever is built, or about to be published, comes from a build that has succeeded. -/
def Earned (s : Shared τ α) : Prop :=
  ∀ target artifact, s.Owns target artifact → ∃ runner, .ended runner target true ∈ s.journal

theorem earned_initial : (initial : Shared τ α).Earned := by
  rintro target artifact (hbuilt | ⟨runner, hpublishing⟩)
  · cases target <;> cases hbuilt
  · cases hpublishing

variable [DecidableEq τ] {s s' : Shared τ α}

/-- What has happened stays in the journal. -/
theorem Move.journal_mono (hmove : s.Move s') {occurrence : Occurrence τ α}
    (h : occurrence ∈ s.journal) : occurrence ∈ s'.journal := by
  have hkept : ∀ {mover activity other place happened},
      s.Changes s' mover activity other place happened → occurrence ∈ s'.journal := by
    intro mover activity other place happened hchanges
    rw [hchanges.journal]
    exact List.mem_append_right happened h
  cases hmove with
  | rest hsame => rwa [hsame]
  | pass _ _ _ _ _ h => exact hkept h
  | hit _ _ _ _ _ h => exact hkept h
  | lock _ _ _ _ h => exact hkept h
  | rehit _ _ _ _ _ h => exact hkept h
  | start _ _ _ _ h => exact hkept h
  | succeed _ _ _ _ h => exact hkept h
  | fail _ _ _ _ _ h => exact hkept h
  | publish _ _ _ _ h => exact hkept h
  | release _ _ _ _ _ h => exact hkept h

/-- What is owned was owned before, or a build of it has just succeeded. -/
theorem Move.owns_or_succeeds (hmove : s.Move s') {target : BuildTarget}
    {artifact : Built α} (howns : s'.Owns target artifact) :
    (∃ artifact, s.Owns target artifact) ∨ ∃ runner, .ended runner target true ∈ s'.journal := by
  have hkept : ∀ {mover activity other place happened},
      s.Changes s' mover activity other place happened → place.built = (s.place other).built →
      (∀ artifact, activity ≠ .publishing target artifact) →
      (∃ artifact, s.Owns target artifact) ∨ ∃ runner, .ended runner target true ∈ s'.journal := by
    intro mover activity other place happened h hplace hactivity
    obtain hbuilt | ⟨runner, hpublishing⟩ := howns
    · rw [h.place_congr (·.built) hplace] at hbuilt
      exact Or.inl ⟨artifact, Or.inl hbuilt⟩
    · rw [h.activity] at hpublishing
      split at hpublishing
      · exact absurd hpublishing (hactivity artifact)
      · exact Or.inl ⟨artifact, Or.inr ⟨runner, hpublishing⟩⟩
  cases hmove with
  | rest hsame =>
      rw [hsame] at howns
      exact Or.inl ⟨artifact, howns⟩
  | pass mover activity other hfrom hto h =>
      refine hkept h rfl fun artifact hnew => ?_
      rw [hnew] at hto
      cases hto
  | hit mover other found hfrom hbuilt h => exact hkept h rfl nofun
  | lock mover other hfrom hfree h => exact hkept h rfl nofun
  | rehit mover other found hfrom hbuilt h => exact hkept h rfl nofun
  | start mover other hfrom hbuilt h => exact hkept h rfl nofun
  | succeed mover other value hfrom h =>
      by_cases htarget : other = target
      · refine Or.inr ⟨mover, ?_⟩
        rw [h.journal, htarget]
        exact List.mem_cons_self
      · refine hkept h rfl fun artifact hnew => htarget ?_
        cases hnew
        rfl
  | fail mover other outcome hfrom houtcome h => exact hkept h rfl nofun
  | publish mover other new hfrom h =>
      by_cases htarget : other = target
      · exact Or.inl ⟨new, Or.inr ⟨mover, htarget ▸ hfrom⟩⟩
      · obtain hbuilt | ⟨runner, hpublishing⟩ := howns
        · rw [h.place, if_neg (Ne.symm htarget)] at hbuilt
          exact Or.inl ⟨artifact, Or.inl hbuilt⟩
        · rw [h.activity] at hpublishing
          split at hpublishing
          · cases hpublishing
          · exact Or.inl ⟨artifact, Or.inr ⟨runner, hpublishing⟩⟩
  | release mover other outcome poisoned hfrom h => exact hkept h rfl nofun

theorem Earned.move (he : s.Earned) (hmove : s.Move s') : s'.Earned := by
  intro target artifact howns
  obtain ⟨artifact', howned⟩ | hsucceeds := hmove.owns_or_succeeds howns
  · obtain ⟨runner, hended⟩ := he target artifact' howned
    exact ⟨runner, hmove.journal_mono hended⟩
  · exact hsucceeds

end Shared

/-! ### What holds at every moment -/

/-- The target whose lock an observer holds. -/
def Glance.probed? : Glance → Option BuildTarget
  | .rereading level | .releasing level _ => some (.level level)
  | _ => none

namespace Observed

/-- What holds however observers and runners interleave. -/
structure Honest (s : Observed τ ω α) : Prop where
  sound : s.shared.Sound
  earned : s.shared.Earned
  /-- A lock that is probed is held by an observer that stands inside. -/
  probing : ∀ target observer, s.probe target = some observer →
    (s.glance observer).probed? = some target
  /-- What an observer is about to return from inside is no guess, and still true. -/
  settled : ∀ observer level state, s.glance observer = .releasing level state →
    state ≠ .materializing
      ∧ (state = .cached → (s.shared.place (.level level)).built.isSome = true)
  asked_le : ∀ observer, s.asked observer ≤ s.clock

theorem honest_initial : (initial : Observed τ ω α).Honest where
  sound := Shared.sound_initial
  earned := Shared.earned_initial
  probing _ _ h := by cases h
  settled _ _ _ h := by cases h
  asked_le _ := Nat.le_refl 0

/-- What is built comes from a build that has succeeded. -/
theorem Honest.succeeded {s : Observed τ ω α} (hs : s.Honest) {level : Int32}
    (h : (s.shared.place (.level level)).built.isSome = true) :
    ∃ runner, .ended runner (.level level) true ∈ s.shared.journal := by
  obtain ⟨artifact, hbuilt⟩ := Option.isSome_iff_exists.mp h
  exact hs.earned _ artifact (Or.inl hbuilt)

/-- A lock that an observer finds taken is held by a runner, or by another observer. -/
theorem Honest.held_of_isLocked {s : Observed τ ω α} (hs : s.Honest) {observer : ω} {target : BuildTarget}
    (hfrom : (s.glance observer).probed? = none) (h : s.isLocked target = true) :
    (∃ runner, (s.shared.activity runner).held? = some target)
      ∨ ∃ other, other ≠ observer ∧ s.probe target = some other := by
  rw [isLocked, Bool.or_eq_true, Option.isSome_iff_exists, Option.isSome_iff_exists] at h
  obtain ⟨runner, hholder⟩ | ⟨other, hprobe⟩ := h
  · exact Or.inl ⟨runner, (hs.sound.locked runner target).mpr hholder⟩
  · refine Or.inr ⟨other, ?_, hprobe⟩
    rintro rfl
    rw [hs.probing target other hprobe] at hfrom
    cases hfrom

/-! ### The steps of observers -/

/-- A state is what an observer sees without taking the lock. -/
structure Shows (s : Observed τ ω α) (level : Int32) (state : DigestState) : Prop where
  materializing : state = .materializing → s.isLocked (.level level) = true
  cached : state = .cached → (s.shared.place (.level level)).built.isSome = true

variable [DecidableEq ω]

theorem glance_turn (s : Observed τ ω α) (observer other : ω) (glance : Glance) :
    (s.turn observer glance).glance other = if other = observer then glance else s.glance other :=
  rfl

variable [DecidableEq τ]

/-- What an event may do. -/
inductive Reaction (s s' : Observed τ ω α) : Prop
  /-- Nothing. -/
  | rest (h : s' = s)
  /-- A runner moves. -/
  | runner (event : Event τ α) (h : s' = { s with shared := s.shared.step event })
  /-- An observer asks. -/
  | ask (observer : ω) (level : Int32) (hfrom : s.glance observer = .idle)
      (h : s' = s.ask observer level)
  /-- An observer that holds no lock moves on without one. -/
  | pass (observer : ω) (glance : Glance) (hfrom : (s.glance observer).probed? = none)
      (hto : glance.probed? = none) (h : s' = s.turn observer glance)
  /-- An observer that holds no lock returns what it sees. -/
  | answer (observer : ω) (level : Int32) (state : DigestState)
      (hfrom : (s.glance observer).probed? = none) (hshows : s.Shows level state)
      (h : s' = s.report observer level state)
  /-- An observer takes a free lock. -/
  | probe (observer : ω) (level : Int32) (hfrom : s.glance observer = .trying level)
      (hfree : s.isLocked (.level level) = false)
      (h : s' = (s.setProbe (.level level) (some observer)).turn observer (.rereading level))
  /-- An observer reads the place with the lock. -/
  | reread (observer : ω) (level : Int32) (state : DigestState)
      (hfrom : s.glance observer = .rereading level) (hstate : state ≠ .materializing)
      (hshows : s.Shows level state) (h : s' = s.turn observer (.releasing level state))
  /-- An observer lets go of the lock and returns what it has seen. -/
  | release (observer : ω) (level : Int32) (state : DigestState)
      (hfrom : s.glance observer = .releasing level state)
      (h : s' = (s.setProbe (.level level) none).report observer level state)

/-- The next step of an observer is a reaction. -/
theorem advance_reaction (s : Observed τ ω α) (observer : ω) : s.Reaction (s.advance observer) := by
  unfold advance
  split
  · exact .rest rfl
  · rename_i level hfrom
    have hnone : (s.glance observer).probed? = none := by
      rw [hfrom]
      rfl
    split
    · exact .answer observer level .absent hnone ⟨nofun, nofun⟩ rfl
    · exact .pass observer (.reading level) hnone rfl rfl
  · rename_i level hfrom
    have hnone : (s.glance observer).probed? = none := by
      rw [hfrom]
      rfl
    split
    · rename_i hbuilt
      exact .answer observer level .cached hnone ⟨nofun, fun _ => hbuilt⟩ rfl
    · exact .pass observer (.trying level) hnone rfl rfl
  · rename_i level hfrom
    split
    · rename_i hlocked
      refine .answer observer level .materializing ?_ ⟨fun _ => hlocked, nofun⟩ rfl
      rw [hfrom]
      rfl
    · rename_i hfree
      exact .probe observer level hfrom (Bool.eq_false_iff.mpr hfree) rfl
  · rename_i level hfrom
    by_cases hbuilt : (s.shared.place (.level level)).built.isSome = true
    · rw [if_pos hbuilt]
      exact .reread observer level .cached hfrom nofun ⟨nofun, fun _ => hbuilt⟩ rfl
    · rw [if_neg hbuilt]
      exact .reread observer level .absent hfrom nofun ⟨nofun, nofun⟩ rfl
  · rename_i level state hfrom
    exact .release observer level state hfrom rfl

/-- **Every event is a reaction.** -/
theorem react_reaction (s : Observed τ ω α) (event : ObservedEvent τ ω α) :
    s.Reaction (s.react event) := by
  cases event with
  | runner event =>
      unfold react
      dsimp only
      split
      · exact .runner event rfl
      · exact .rest rfl
  | look observer level =>
      unfold react
      dsimp only
      split
      · rename_i hfrom
        exact .ask observer level hfrom rfl
      · exact .rest rfl
  | glance observer => exact s.advance_reaction observer

/-! ### What the steps keep -/

variable {s s' : Observed τ ω α}

theorem Honest.react_probing (hs : s.Honest) (hreact : s.Reaction s') (target : BuildTarget)
    (observer : ω) (hprobe : s'.probe target = some observer) :
    (s'.glance observer).probed? = some target := by
  -- Where no probe is new, an observer may move as long as it keeps the lock that it holds.
  have hturn : ∀ mover glance, glance.probed? = (s.glance mover).probed? →
      s.probe target = some observer →
      ((s.turn mover glance).glance observer).probed? = some target := by
    intro mover glance hsame hold
    have hprobed := hs.probing target observer hold
    rw [glance_turn]
    by_cases hmover : observer = mover
    · rw [if_pos hmover, hsame, ← hmover]
      exact hprobed
    · rw [if_neg hmover]
      exact hprobed
  -- An observer that holds another lock, or none, is not the one that moves.
  have hother : ∀ mover glance, (s.glance mover).probed? ≠ some target →
      s.probe target = some observer →
      ((s.turn mover glance).glance observer).probed? = some target := by
    intro mover glance hnot hold
    have hprobed := hs.probing target observer hold
    rw [glance_turn, if_neg]
    · exact hprobed
    · rintro rfl
      exact hnot hprobed
  cases hreact with
  | rest h =>
      subst h
      exact hs.probing target observer hprobe
  | runner event h =>
      subst h
      exact hs.probing target observer hprobe
  | ask mover level hfrom h =>
      subst h
      exact hturn mover (.finding level) (by rw [hfrom]; rfl) hprobe
  | pass mover glance hfrom hto h =>
      subst h
      exact hturn mover glance (hto.trans hfrom.symm) hprobe
  | answer mover level state hfrom hshows h =>
      subst h
      exact hturn mover .idle hfrom.symm hprobe
  | probe mover level hfrom hfree h =>
      subst h
      by_cases htarget : target = .level level
      · obtain rfl : mover = observer := Option.some.inj ((if_pos htarget).symm.trans hprobe)
        rw [glance_turn, if_pos rfl, htarget]
        rfl
      · exact hother mover (.rereading level) (by rw [hfrom]; nofun)
          ((if_neg htarget).symm.trans hprobe)
  | reread mover level state hfrom hstate hshows h =>
      subst h
      exact hturn mover (.releasing level state) (by rw [hfrom]; rfl) hprobe
  | release mover level state hfrom h =>
      subst h
      by_cases htarget : target = .level level
      · cases (if_pos htarget).symm.trans hprobe
      · refine hother mover .idle ?_ ((if_neg htarget).symm.trans hprobe)
        rw [hfrom]
        exact fun hsame => htarget (Option.some.inj hsame).symm

theorem Honest.react_settled (hs : s.Honest) (hreact : s.Reaction s') (observer : ω) (level : Int32)
    (state : DigestState) (hreleasing : s'.glance observer = .releasing level state) :
    state ≠ .materializing
      ∧ (state = .cached → (s'.shared.place (.level level)).built.isSome = true) := by
  have hturn : ∀ mover glance, (∀ level state, glance ≠ .releasing level state) →
      (s.turn mover glance).glance observer = .releasing level state →
      state ≠ .materializing
        ∧ (state = .cached → (s.shared.place (.level level)).built.isSome = true) := by
    intro mover glance hnot hnew
    rw [glance_turn] at hnew
    split at hnew
    · exact absurd hnew (hnot level state)
    · exact hs.settled observer level state hnew
  cases hreact with
  | rest h =>
      subst h
      exact hs.settled observer level state hreleasing
  | runner event h =>
      subst h
      obtain ⟨hstate, hcached⟩ := hs.settled observer level state hreleasing
      refine ⟨hstate, fun heq => ?_⟩
      obtain ⟨artifact, hbuilt⟩ := Option.isSome_iff_exists.mp (hcached heq)
      exact Option.isSome_iff_exists.mpr
        ⟨artifact, (Shared.step_move s.shared event).built_mono hbuilt⟩
  | ask mover other hfrom h =>
      subst h
      exact hturn mover (.finding other) nofun hreleasing
  | pass mover glance hfrom hto h =>
      subst h
      refine hturn mover glance (fun other state' hsame => ?_) hreleasing
      rw [hsame] at hto
      cases hto
  | answer mover other state' hfrom hshows h =>
      subst h
      exact hturn mover .idle nofun hreleasing
  | probe mover other hfrom hfree h =>
      subst h
      exact hturn mover (.rereading other) nofun hreleasing
  | reread mover other state' hfrom hstate hshows h =>
      subst h
      rw [glance_turn] at hreleasing
      split at hreleasing
      · cases hreleasing
        exact ⟨hstate, hshows.cached⟩
      · exact hs.settled observer level state hreleasing
  | release mover other state' hfrom h =>
      subst h
      exact hturn mover .idle nofun hreleasing

theorem Honest.react_asked (hs : s.Honest) (hreact : s.Reaction s') (observer : ω) :
    s'.asked observer ≤ s.clock := by
  cases hreact with
  | ask mover level hfrom h =>
      subst h
      show (if observer = mover then s.clock else s.asked observer) ≤ s.clock
      split
      · exact Nat.le_refl _
      · exact hs.asked_le observer
  | rest h | runner _ h | pass _ _ _ _ h | answer _ _ _ _ _ h | probe _ _ _ _ h
    | reread _ _ _ _ _ _ h | release _ _ _ _ h =>
      subst h
      exact hs.asked_le observer

theorem Reaction.shared_move (hreact : s.Reaction s') : s.shared.Move s'.shared := by
  cases hreact with
  | runner event h =>
      subst h
      exact Shared.step_move s.shared event
  | rest h | ask _ _ _ h | pass _ _ _ _ h | answer _ _ _ _ _ h | probe _ _ _ _ h
    | reread _ _ _ _ _ _ h | release _ _ _ _ h =>
      subst h
      exact .rest rfl

/-- **Every event keeps observers honest.** -/
theorem Honest.step (hs : s.Honest) (event : ObservedEvent τ ω α) : (s.step event).Honest where
  sound := hs.sound.move (s.react_reaction event).shared_move
  earned := hs.earned.move (s.react_reaction event).shared_move
  probing target observer hprobe :=
    hs.react_probing (s.react_reaction event) target observer hprobe
  settled observer level state hreleasing :=
    hs.react_settled (s.react_reaction event) observer level state hreleasing
  asked_le observer := Nat.le_succ_of_le (hs.react_asked (s.react_reaction event) observer)

/-! ### Reports -/

/-- **An observer that is left alone reports the state of the slot**: what the place holds, and whether a
runner holds its lock. -/
theorem reports_alone (s : Observed τ ω α) {observer : ω} {level : Int32}
    (hidle : s.glance observer = .idle) (hfree : s.probe (.level level) = none) :
    ∃ asked returned,
      (s.run (.look observer level :: List.replicate 5 (.glance observer))).reports
        = ⟨observer, level, asked, returned, Slot.state ⟨(s.shared.place (.level level)).built,
            (s.shared.place (.level level)).holder.isSome⟩⟩ :: s.reports := by
  rcases hplace : s.shared.places (.level level) with _ | ⟨built, holder, poisoned⟩
  · have hvacant : s.shared.place (.level level) = .vacant := by
      rw [Shared.place, hplace]
      rfl
    refine ⟨s.clock, s.clock + 1, ?_⟩
    simp [run, step, react, ask, advance, turn, report, hidle, hplace, hvacant, Place.vacant,
      Slot.state]
  · have hthere : s.shared.place (.level level) = ⟨built, holder, poisoned⟩ := by
      rw [Shared.place, hplace]
      rfl
    rcases built with _ | artifact
    · rcases holder with _ | runner
      · refine ⟨s.clock, s.clock + 5, ?_⟩
        simp [run, step, react, ask, advance, turn, report, setProbe, isLocked, hidle, hfree, hplace,
          hthere, Slot.state]
      · refine ⟨s.clock, s.clock + 3, ?_⟩
        simp [run, step, react, ask, advance, turn, report, isLocked, hidle, hfree, hplace, hthere,
          Slot.state]
    · refine ⟨s.clock, s.clock + 2, ?_⟩
      simp [run, step, react, ask, advance, turn, report, hidle, hplace, hthere, Slot.state]

/-- What a report says is so at the moment when it is made, as far as it can be told from outside: a level
that is materializing has its lock taken, by a runner or by another observer, and of one that is cached a
build has succeeded. -/
structure Accurate (s : Observed τ ω α) (report : Report ω) : Prop where
  asked_le : report.asked ≤ report.returned
  materializing : report.state = .materializing →
    (∃ runner, (s.shared.activity runner).held? = some (.level report.level))
      ∨ ∃ other, other ≠ report.observer ∧ s.probe (.level report.level) = some other
  cached : report.state = .cached →
    ∃ runner, .ended runner (.level report.level) true ∈ s.shared.journal

/-- **A report that is new is accurate.** -/
theorem Honest.accurate (hs : s.Honest) (hreact : s.Reaction s') {report : Report ω}
    (h : report ∈ s'.reports) :
    report ∈ s.reports ∨ (report.returned = s.clock ∧ s.Accurate report) := by
  cases hreact with
  | answer observer level state hfrom hshows hsame =>
      subst hsame
      obtain rfl | hold := List.mem_cons.mp h
      · exact Or.inr ⟨rfl, hs.asked_le observer,
          fun hstate => hs.held_of_isLocked hfrom (hshows.materializing hstate),
          fun hstate => hs.succeeded (hshows.cached hstate)⟩
      · exact Or.inl hold
  | release observer level state hfrom hsame =>
      subst hsame
      obtain rfl | hold := List.mem_cons.mp h
      · obtain ⟨hstate, hcached⟩ := hs.settled observer level state hfrom
        exact Or.inr ⟨rfl, hs.asked_le observer, fun hnot => absurd hnot hstate,
          fun heq => hs.succeeded (hcached heq)⟩
      · exact Or.inl hold
  | rest hsame | runner _ hsame | ask _ _ _ hsame | pass _ _ _ _ hsame | probe _ _ _ _ hsame
    | reread _ _ _ _ _ _ hsame =>
      subst hsame
      exact Or.inl h

theorem run_concat (s : Observed τ ω α) (events : List (ObservedEvent τ ω α))
    (event : ObservedEvent τ ω α) : s.run (events ++ [event]) = (s.run events).step event :=
  List.foldl_append

theorem honest_run (events : List (ObservedEvent τ ω α)) :
    (initial.run events : Observed τ ω α).Honest := by
  induction events using List.reverseRecOn with
  | nil => exact honest_initial
  | append_singleton events event ih =>
      rw [run_concat]
      exact ih.step event

/-- The clock counts the events. -/
theorem clock_run (events : List (ObservedEvent τ ω α)) :
    (initial.run events : Observed τ ω α).clock = events.length := by
  induction events using List.reverseRecOn with
  | nil => rfl
  | append_singleton events event ih =>
      rw [run_concat, List.length_append]
      exact congrArg Nat.succ ih

/-- **What the reports of observers mean.**  However any number of observers and runners interleave, whatever
they ask for and whatever becomes of the builds: whenever an observer reports a level as materializing, it has
found the lock of the level taken at that moment, by a runner that asks for the level or by another observer
that looks at it; and whenever it reports a level as cached, a build of the level has succeeded. -/
theorem reports_explained (events : List (ObservedEvent τ ω α)) :
    ∀ report ∈ (initial.run events : Observed τ ω α).reports, report.returned < events.length
      ∧ (initial.run (events.take report.returned)).Accurate report := by
  induction events using List.reverseRecOn with
  | nil => nofun
  | append_singleton events event ih =>
      intro report hmem
      rw [run_concat] at hmem
      rw [List.length_append]
      obtain hold | ⟨hreturned, haccurate⟩ :=
        (honest_run events).accurate (react_reaction _ event) hmem
      · obtain ⟨hlt, haccurate⟩ := ih report hold
        rw [List.take_append_of_le_length (Nat.le_of_lt hlt)]
        exact ⟨Nat.lt_add_right 1 hlt, haccurate⟩
      · rw [clock_run] at hreturned
        rw [hreturned, List.take_left]
        exact ⟨Nat.lt_succ_self _, haccurate⟩

/-- An observer looks at a level that is being built, and again when it is there. -/
theorem reports_explained_building :
    let events : List (ObservedEvent Unit Unit Nat) :=
      [.runner (.ask () (.level 3)), .runner (.advance ()), .runner (.advance ()),
        .runner (.advance ()), .runner (.advance ()), .look () 3, .glance (), .glance (), .glance (),
        .runner (.finish () (.success 7)), .runner (.advance ()), .runner (.advance ()), .look () 3,
        .glance (), .glance ()]
    (initial.run events).reports = [⟨(), 3, 12, 14, .cached⟩, ⟨(), 3, 5, 8, .materializing⟩]
      ∧ ∀ report ∈ [(⟨(), 3, 12, 14, .cached⟩ : Report Unit), ⟨(), 3, 5, 8, .materializing⟩],
        report.returned < 15 ∧ (initial.run (events.take report.returned)).Accurate report := by
  intro events
  have hreports : (initial.run events).reports
      = [⟨(), 3, 12, 14, .cached⟩, ⟨(), 3, 5, 8, .materializing⟩] := rfl
  have hexplained := reports_explained events
  rw [hreports] at hexplained
  exact ⟨hreports, hexplained⟩

/-- **A level is reported as materializing though nobody builds it.**  The only build of the level fails, and
its runner lets go of the lock and returns.  Then two observers look.  The first has taken the lock when the
second tries it, and at no moment of the second call does a runner hold the lock. -/
theorem materializing_without_build :
    let events : List (ObservedEvent Unit Bool Nat) :=
      [.runner (.ask () (.level 3)), .runner (.advance ()), .runner (.advance ()),
        .runner (.advance ()), .runner (.advance ()), .runner (.finish () (.failed (.state ""))),
        .runner (.advance ()), .look false 3, .glance false, .glance false, .glance false,
        .look true 3, .glance true, .glance true, .glance true]
    (initial.run events).reports = [⟨true, 3, 11, 14, .materializing⟩]
      ∧ ∀ n ≤ events.length, 11 ≤ n →
        ∀ runner, ((initial.run (events.take n)).shared.activity runner).held? ≠ some (.level 3) := by
  intro events
  have hfree : ∀ n ≤ 15, 11 ≤ n →
      ((initial.run (events.take n)).shared.activity ()).held? ≠ some (.level 3) := by decide
  exact ⟨rfl, fun n hle hge runner => hfree n hle hge⟩

end Observed

end SharedDictionary
