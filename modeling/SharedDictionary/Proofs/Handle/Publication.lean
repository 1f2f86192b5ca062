import Mathlib.Data.Finset.Card
import Mathlib.Data.Fintype.Card
import SharedDictionary.Proofs.Handle.Ownership

/-!
# What is published, and what is counted

A thread publishes what it has built, and only later counts it.  In between it owes the count
(`Station.owes`).  What a step does to this is said once, in `Threads.Deed`.

A build starts when its slot was found empty, under the lock of the slot, so it is still empty when the build
ends.  Every level that is published has a slot.  So what is published is new, and at every moment the builds
of levels that were counted and those that are owed are the levels that are cached (`Threads.Books`).
-/

namespace SharedDictionary

variable {τ α : Type}

/-! ### What stations say -/

/-- The target that a thread builds, once it has found its slot empty. -/
def Station.begun? : Station α → Option BuildTarget
  | .ensuring target? | .announcing target? | .checking target? => target?
  | .building target | .publishing target _ => some target
  | _ => none

/-- The target whose slot a thread has got, and may build. -/
def Station.placed? : Station α → Option BuildTarget
  | .reading target | .waiting target | .rereading target => some target
  | station => station.begun?

theorem Station.placed?_of_begun? {station : Station α} {target : BuildTarget}
    (h : station.begun? = some target) : station.placed? = some target := by
  cases station <;> first | exact h | cases h

/-- A thread has published a level, and has not counted it yet. -/
def Station.owes : Station α → Bool
  | .releasing (.level _) (.returned _ true) | .counting (.level _) (.returned _ true) => true
  | _ => false

/-- Who has begun to build holds the lock of the slot. -/
theorem Station.lock_mem_held {station : Station α} {target : BuildTarget}
    (h : station.begun? = some target) : .lock target ∈ station.held := by
  cases station with
  | ensuring target? => exact List.mem_map_of_mem (Option.mem_toList.mpr h)
  | announcing target? | checking target? =>
      exact .tail _ (List.mem_map_of_mem (Option.mem_toList.mpr h))
  | building _ | publishing _ _ =>
      cases h
      exact .head _
  | _ => cases h

/-- A thread has begun to build a target, and may have called the handle back since. -/
def Thread.Begun (x : Thread α) (target : BuildTarget) : Prop :=
  x.station.begun? = some target ∨ target ∈ x.pending

/-- A thread has got the slot of a target that it may build. -/
def Thread.Placed (x : Thread α) (target : BuildTarget) : Prop :=
  x.station.placed? = some target ∨ target ∈ x.pending

/-- What is begun, or got, after a step: where the thread goes on, by calling the handle back, or before. -/
theorem Thread.of_follow (f : Station α → Option BuildTarget) (hidle : f .idle = none)
    (hentering : ∀ errand, f (.entering errand) = none)
    (hbuilding : ∀ target, f (.building target) = some target) {x : Thread α} {next : Next α}
    {target : BuildTarget} (h : f (x.follow next).station = some target ∨ target ∈ (x.follow next).pending) :
    (∃ station, next = .goes station ∧ f station = some target) ∨ (∃ level, next = .calls target level)
      ∨ target ∈ x.pending := by
  cases next with
  | goes station => exact h.imp (fun h => ⟨station, rfl, h⟩) .inr
  | calls outer level =>
      rcases h with h | h
      · cases (hentering _).symm.trans h
      · rcases List.mem_cons.mp h with rfl | h
        · exact .inr (.inl ⟨level, rfl⟩)
        · exact .inr (.inr h)
  | returns answer =>
      refine .inr (.inr ?_)
      rw [follow] at h
      cases hpending : x.pending with
      | nil =>
          rw [hpending] at h
          exact h.elim (fun h => by cases hidle.symm.trans h) id
      | cons outer pending =>
          rw [hpending] at h
          rcases h with h | h
          · cases (hbuilding outer).symm.trans h
            exact .head _
          · exact .tail _ h

theorem Thread.Begun.lock_mem_held {x : Thread α} {target : BuildTarget} (h : x.Begun target) :
    .lock target ∈ x.held :=
  List.mem_append.mpr (h.imp Station.lock_mem_held List.mem_map_of_mem)

/-- A thread owes a count after a step. -/
def Next.owes : Next α → Bool
  | goes station => station.owes
  | _ => false

theorem Thread.owes_follow (x : Thread α) (next : Next α) : (x.follow next).station.owes = next.owes := by
  cases next with
  | goes station => rfl
  | calls target level => rfl
  | returns answer =>
      rw [follow]
      cases x.pending <;> rfl

/-- A step counts that a level was built. -/
def Effect.pays : Effect α → Bool
  | count .digestBuilt => true
  | _ => false

/-- What a step publishes. -/
def Effect.published? : Effect α → Option BuildTarget
  | publish target _ => some target
  | _ => none

/-- A step publishes a level. -/
def Effect.adds (effect : Effect α) : Bool :=
  match effect.published? with
  | some (.level _) => true
  | _ => false

namespace Threads

/-! ### What a step does -/

/-- What a step does to builds.  A slot is got when it is inserted, and a build begins when its slot is empty.
Only what was begun is published, and what is published is owed until it is counted. -/
structure Deed (s : Threads τ α) (station : Station α) (effect : Effect α) (next : Next α) : Prop where
  placed : ∀ station', next = .goes station' → ∀ level, station'.placed? = some (.level level) →
    station.placed? = some (.level level) ∨ effect = .insert level
  begun : ∀ station', next = .goes station' → ∀ target, station'.begun? = some target →
    station.begun? = some target ∨ s.built target = none
  publishes : ∀ target, effect.published? = some target →
    station.begun? = some target ∧ ∃ station', next = .goes station' ∧ station'.begun? = none
  balance : next.owes.toNat + effect.pays.toNat = station.owes.toNat + effect.adds.toNat

section Deed

variable {nests : BuildTarget → Int32 → Bool} {s : Threads τ α} {station station' : Station α}
  {effect : Effect α} {next : Next α}

theorem Effect.adds_eq_false {effect : Effect α} (h : effect.published? = none) : effect.adds = false := by
  rw [Effect.adds, h]

/-- A call goes on, and publishes and counts nothing. -/
theorem Deed.goes (hpublished : effect.published? = none) (hpays : effect.pays = false)
    (hplaced : station'.placed? = station.placed? ∨ station'.placed? = none)
    (hbegun : station'.begun? = station.begun? ∨ station'.begun? = none)
    (howes : station'.owes = station.owes) : s.Deed station effect (.goes station') where
  placed _ hnext level hlevel := by
    cases hnext
    rcases hplaced with hsame | hnone
    · exact .inl (hsame ▸ hlevel)
    · cases hnone.symm.trans hlevel
  begun _ hnext target htarget := by
    cases hnext
    rcases hbegun with hsame | hnone
    · exact .inl (hsame ▸ htarget)
    · cases hnone.symm.trans htarget
  publishes target htarget := by cases hpublished.symm.trans htarget
  balance := by rw [Effect.adds_eq_false hpublished, hpays, Next.owes, howes]

/-- A call that ends counts what it owes. -/
theorem Deed.returns {answer : Answer α} (hpublished : effect.published? = none)
    (howes : effect.pays = station.owes) : s.Deed station effect (.returns answer) where
  placed := nofun
  begun := nofun
  publishes target htarget := by cases hpublished.symm.trans htarget
  balance := by
    rw [Effect.adds_eq_false hpublished, howes]
    exact Nat.zero_add _

theorem deed_taking? {resource : Resource} (h : s.taking? resource station' = some (effect, next))
    (hplaced : station'.placed? = station.placed? ∨ station'.placed? = none)
    (hbegun : station'.begun? = station.begun? ∨ station'.begun? = none)
    (howes : station'.owes = station.owes) : s.Deed station effect next := by
  rw [taking?] at h
  split at h <;> cases h
  exact .goes rfl rfl hplaced hbegun howes

/-- What a call does to builds once the format is known. -/
theorem deed_afterCheck {target? : Option BuildTarget} {verdict : Verdict Unit}
    (hpublished : effect.published? = none) (hpays : effect.pays = false)
    (hplaced : station.placed? = target?) (hbegun : station.begun? = target?) (howes : station.owes = false) :
    s.Deed station effect (afterCheck target? verdict) := by
  cases target? with
  | none =>
      cases verdict with
      | success => exact .goes hpublished hpays (.inr rfl) (.inr rfl) howes.symm
      | _ => exact .returns hpublished (hpays.trans howes.symm)
  | some target =>
      cases verdict with
      | success => exact .goes hpublished hpays (.inl hplaced.symm) (.inl hbegun.symm) howes.symm
      | _ => exact .goes hpublished hpays (.inr rfl) (.inr rfl) (.trans (by cases target <;> rfl) howes.symm)

theorem deed_advance? (h : s.advance? station = some (effect, next)) : s.Deed station effect next := by
  cases station with
  | idle | checking _ | building _ => cases h
  | entering errand => exact deed_taking? h (.inl rfl) (.inl rfl) rfl
  | waiting target => exact deed_taking? h (.inl rfl) (.inl rfl) rfl
  | inside errand =>
      cases errand with
      | slot level =>
          cases h
          refine ⟨fun _ hnext other hlevel => ?_, fun _ hnext _ htarget => ?_, fun _ h => (by cases h), rfl⟩
          · cases hnext
            cases hlevel
            exact .inr rfl
          · cases hnext
            cases htarget
      | look level =>
          cases h
          split
          · exact .goes rfl rfl (.inl rfl) (.inl rfl) rfl
          · exact .returns rfl rfl
      | list counters =>
          cases h
          exact .goes rfl rfl (.inl rfl) (.inl rfl) rfl
  | surveying counters left found =>
      cases left with
      | nil =>
          cases h
          split
          · exact .goes rfl rfl (.inl rfl) (.inl rfl) rfl
          · exact .returns rfl rfl
      | cons level left => cases h
  | reading target =>
      rw [advance?] at h
      split at h <;> cases h
      · exact .goes rfl rfl (.inr rfl) (.inl rfl) (by cases target <;> rfl)
      · exact .goes rfl rfl (.inl rfl) (.inl rfl) rfl
  | rereading target =>
      rw [advance?] at h
      split at h <;> cases h
      · exact .goes rfl rfl (.inr rfl) (.inl rfl) (by cases target <;> rfl)
      · refine ⟨fun _ hnext level hlevel => ?_, fun _ hnext other hother => ?_, fun _ h => (by cases h), rfl⟩
        · cases hnext
          exact .inl hlevel
        · cases hnext
          cases hother
          exact .inr ‹_›
  | ensuring target? =>
      rw [advance?] at h
      split at h
      · cases h
        exact deed_afterCheck rfl rfl rfl rfl rfl
      · exact deed_taking? h (.inl rfl) (.inl rfl) rfl
  | announcing target? =>
      cases h
      exact .goes rfl rfl (.inl rfl) (.inl rfl) rfl
  | publishing target artifact =>
      cases h
      refine ⟨fun _ hnext _ hlevel => ?_, fun _ hnext _ htarget => ?_, fun _ htarget => ?_, ?_⟩
      · cases hnext
        cases hlevel
      · cases hnext
        cases htarget
      · cases htarget
        exact ⟨rfl, _, rfl, rfl⟩
      · cases target <;> rfl
  | releasing target outcome =>
      cases h
      refine .goes rfl rfl (.inl rfl) (.inl rfl) ?_
      cases target <;> rcases outcome with ⟨_, _ | _⟩ | _ | _ <;> rfl
  | counting target outcome =>
      cases h
      refine .returns ?_ ?_
      · cases outcome.countsFor target <;> rfl
      · cases target <;> rcases outcome with ⟨_, _ | _⟩ | _ | _ <;> rfl
  | loading | prefixing =>
      cases h
      exact .returns rfl rfl
  | glancing level =>
      cases h
      split
      · exact .returns rfl rfl
      · exact .goes rfl rfl (.inl rfl) (.inl rfl) rfl
  | trying level =>
      rw [advance?] at h
      cases htaking : s.taking? (.lock (.level level)) (.peeking level) with
      | none =>
          rw [htaking] at h
          cases h
          exact .returns rfl rfl
      | some plan =>
          rw [htaking] at h
          exact deed_taking? (htaking.trans h) (.inl rfl) (.inl rfl) rfl
  | peeking level =>
      cases h
      exact .goes rfl rfl (.inl rfl) (.inl rfl) rfl
  | withdrawing level state =>
      cases h
      exact .returns rfl rfl
  | copying levels seen left =>
      cases left <;> cases h
      · exact .returns rfl rfl
      · exact .goes rfl rfl (.inl rfl) (.inl rfl) rfl

/-- **What a step does** to builds. -/
theorem deed_plan? {event : ThreadEvent α} (h : s.plan? nests station event = some (effect, next)) :
    s.Deed station effect next := by
  unfold plan? at h
  split at h
  · rename_i call
    cases h
    cases call with
    | request request =>
        cases request with
        | decoder =>
            refine ⟨fun _ hnext _ hlevel => ?_, fun _ hnext _ htarget => ?_, fun _ h => (by cases h), rfl⟩
            · cases hnext
              cases hlevel
            · cases hnext
              cases htarget
        | _ => exact .goes rfl rfl (.inr rfl) (.inr rfl) rfl
    | _ => exact .goes rfl rfl (.inr rfl) (.inr rfl) rfl
  · exact deed_advance? h
  · split at h <;> cases h
    exact .goes rfl rfl (.inl rfl) (.inl rfl) rfl
  · cases h
    exact deed_afterCheck rfl rfl rfl rfl rfl
  · split at h <;> cases h
    exact ⟨nofun, nofun, nofun, rfl⟩
  · rename_i target verdict
    cases verdict <;> cases h
    · exact .goes rfl rfl (.inl rfl) (.inl rfl) rfl
    · exact .goes rfl rfl (.inr rfl) (.inr rfl) (by cases target <;> rfl)
    · exact .goes rfl rfl (.inr rfl) (.inr rfl) (by cases target <;> rfl)
  · cases h

end Deed

/-! ### What is shared after a step -/

theorem keys_apply (s : Threads τ α) (thread : τ) (effect : Effect α) (level : Int32) :
    level ∈ (s.apply thread effect).keys ↔ level ∈ s.keys ∨ effect = .insert level := by
  cases effect with
  | insert other =>
      show level ∈ (if other ∈ s.keys then s.keys else other :: s.keys) ↔ _
      split
      · refine ⟨.inl, fun h => h.elim id fun hsame => ?_⟩
        cases hsame
        assumption
      · rw [List.mem_cons, or_comm, Effect.insert.injEq, eq_comm]
  | _ => exact (or_iff_left nofun).symm

theorem nodup_keys_apply {s : Threads τ α} (hs : s.keys.Nodup) (thread : τ) (effect : Effect α) :
    (s.apply thread effect).keys.Nodup := by
  cases effect with
  | insert level =>
      show (if level ∈ s.keys then s.keys else level :: s.keys).Nodup
      split
      · exact hs
      · exact .cons ‹_› hs
  | _ => exact hs

/-- A slot is filled when its target is published, and stays so. -/
theorem isSome_built_apply (s : Threads τ α) (thread : τ) (effect : Effect α) (target : BuildTarget) :
    ((s.apply thread effect).built target).isSome = true
      ↔ effect.published? = some target ∨ (s.built target).isSome = true := by
  cases effect with
  | publish other artifact =>
      show (if target = other then some artifact else s.built target).isSome = true
        ↔ some other = some target ∨ _
      split
      · exact iff_of_true rfl (.inl (congrArg some ‹target = other›.symm))
      · exact (or_iff_right fun hsame => ‹target ≠ other› (Option.some.inj hsame).symm).symm
  | _ => exact (or_iff_right nofun).symm

/-- Only a step that pays changes how many builds were counted. -/
theorem digestsBuilt_apply (s : Threads τ α) (thread : τ) (effect : Effect α) :
    (s.apply thread effect).counters.digestsBuilt
      = s.counters.digestsBuilt + UInt64.ofNat effect.pays.toNat := by
  cases effect with
  | count event => cases event <;> first | rfl | exact (UInt64.add_zero _).symm
  | _ => exact (UInt64.add_zero _).symm

/-- The levels that are cached. -/
def cached (s : Threads τ α) : List Int32 := s.keys.filter s.isCached

/-- There are no more levels than there are numbers for them. -/
theorem length_cached_le {s : Threads τ α} (hs : s.keys.Nodup) : s.cached.length ≤ 2 ^ 32 := by
  have hinj : Function.Injective fun level : Int32 => level.toBitVec.toFin :=
    fun _ _ hsame => Int32.toBitVec_inj.mp (BitVec.toFin_inj.mp hsame)
  have hnodup : (s.cached.map fun level => level.toBitVec.toFin).Nodup := (hs.filter _).map hinj
  simpa using hnodup.length_le_card

/-- The slots, the builds and the counts of what threads share fit together.  A level that is cached has a
slot, and so has one that may be built; what was begun is not there yet; and the builds of levels that were
counted, with those that are owed, are as many as there are levels that are cached. -/
structure Books (s : Threads τ α) : Prop where
  nodup : s.keys.Nodup
  listed : ∀ level, s.isCached level = true → level ∈ s.keys
  placed : ∀ thread level, (s.thread thread).Placed (.level level) → level ∈ s.keys
  begun : ∀ thread target, (s.thread thread).Begun target → s.built target = none
  balance : ∃ debtors : Finset τ, (∀ thread, thread ∈ debtors ↔ (s.thread thread).station.owes = true)
    ∧ s.counters.digestsBuilt.toNat + debtors.card = s.cached.length

theorem books_initial (content : ByteArray) (isRaw : Bool) : (initial content isRaw : Threads τ α).Books where
  nodup := .nil
  listed := nofun
  placed _ _ h := h.elim nofun nofun
  begun _ _ _ := rfl
  balance := ⟨∅, fun _ => ⟨nofun, nofun⟩, rfl⟩

theorem Books.mem_cached {s : Threads τ α} (hs : s.Books) {level : Int32} :
    level ∈ s.cached ↔ s.isCached level = true := by
  rw [cached, List.mem_filter]
  exact and_iff_right_of_imp (hs.listed level)

/-- Levels without repetition are as many as are cached if they are those that are. -/
theorem Books.length_eq {s : Threads τ α} (hs : s.Books) {levels : List Int32} (hnodup : levels.Nodup)
    (hmem : ∀ level, level ∈ levels ↔ s.isCached level = true) : levels.length = s.cached.length :=
  ((List.perm_ext_iff_of_nodup hnodup (hs.nodup.filter _)).mpr fun level =>
    (hmem level).trans hs.mem_cached.symm).length_eq

/-- No more builds were counted than there are levels that are cached. -/
theorem Books.digestsBuilt_le {s : Threads τ α} (hs : s.Books) :
    s.counters.digestsBuilt.toNat ≤ s.cached.length := by
  obtain ⟨debtors, -, hbalance⟩ := hs.balance
  omega

variable [DecidableEq τ]

section Step

variable {s : Threads τ α} {thread : τ} {effect : Effect α} {next : Next α}

/-- A slot that is got has been there, or is inserted. -/
theorem Books.placed_step (hs : s.Books) {nests : BuildTarget → Int32 → Bool}
    (hdeed : s.Deed (s.thread thread).station effect next)
    (hconduct : s.Conduct nests (s.thread thread).station effect next) (other : τ) (level : Int32)
    (h : (((s.apply thread effect).move thread next).thread other).Placed (.level level)) :
    level ∈ (s.apply thread effect).keys := by
  rw [keys_apply]
  rw [thread_move, thread_apply] at h
  split at h
  · rcases Thread.of_follow Station.placed? rfl (fun _ => rfl) (fun _ => rfl) h with
      ⟨station', hnext, hplaced⟩ | ⟨inner, hnext⟩ | hpending
    · exact (hdeed.placed station' hnext level hplaced).imp_left fun hplaced =>
        hs.placed thread level (.inl hplaced)
    · have hbuilding := (hconduct.calls _ _ hnext).1
      exact .inl (hs.placed thread level (.inl (by rw [hbuilding]; rfl)))
    · exact .inl (hs.placed thread level (.inr hpending))
  · exact .inl (hs.placed other level h)

omit [DecidableEq τ] in
/-- What a thread publishes, no other has begun, and none of its own builds waits for it: all of them would
hold the same lock. -/
theorem Owned.eq_of_published (howned : s.Owned) (hdeed : s.Deed (s.thread thread).station effect next)
    {target : BuildTarget} (hpublished : effect.published? = some target) :
    target ∉ (s.thread thread).pending ∧ ∀ other, (s.thread other).Begun target → other = thread := by
  have hlock := Station.lock_mem_held (hdeed.publishes target hpublished).1
  refine ⟨fun hpending => ?_, fun other hother => ?_⟩
  · exact (List.nodup_append.mp (howned.nodup thread)).2.2 _ hlock _ (List.mem_map_of_mem hpending) rfl
  · have howner := (howned.mem_held thread _).mp (List.mem_append_left _ hlock)
    exact Option.some.inj (((howned.mem_held other _).mp hother.lock_mem_held).symm.trans howner)

/-- What was begun is still not there after a step of any thread. -/
theorem Books.begun_step (hs : s.Books) (howned : s.Owned) {nests : BuildTarget → Int32 → Bool}
    (hdeed : s.Deed (s.thread thread).station effect next)
    (hconduct : s.Conduct nests (s.thread thread).station effect next) (other : τ) (target : BuildTarget)
    (h : (((s.apply thread effect).move thread next).thread other).Begun target) :
    (s.apply thread effect).built target = none := by
  rw [← Option.not_isSome_iff_eq_none, isSome_built_apply, not_or, Option.not_isSome_iff_eq_none]
  rw [thread_move, thread_apply] at h
  split at h
  · rcases Thread.of_follow Station.begun? rfl (fun _ => rfl) (fun _ => rfl) h with
      ⟨station', rfl, hbegun⟩ | ⟨level, rfl⟩ | hpending
    · refine ⟨fun hpublished => ?_, ?_⟩
      · obtain ⟨-, _, hnext, hnone⟩ := hdeed.publishes target hpublished
        cases hnext
        cases hnone.symm.trans hbegun
      · exact (hdeed.begun station' rfl target hbegun).elim (fun h => hs.begun thread target (.inl h)) id
    · refine ⟨fun hpublished => ?_, ?_⟩
      · obtain ⟨-, _, hnext, -⟩ := hdeed.publishes target hpublished
        cases hnext
      · have hbuilding := (hconduct.calls _ _ rfl).1
        exact hs.begun thread target (.inl (by rw [hbuilding]; rfl))
    · exact ⟨fun hpublished => (howned.eq_of_published hdeed hpublished).1 hpending,
        hs.begun thread target (.inr hpending)⟩
  · exact ⟨fun hpublished => ‹other ≠ thread› ((howned.eq_of_published hdeed hpublished).2 other h),
      hs.begun other target h⟩

omit [DecidableEq τ] in
/-- A level is cached after a step that publishes it, or if it was cached before. -/
theorem isCached_apply (s : Threads τ α) (thread : τ) (effect : Effect α) (level : Int32) :
    (s.apply thread effect).isCached level = true
      ↔ effect.published? = some (.level level) ∨ s.isCached level = true :=
  isSome_built_apply s thread effect (.level level)

omit [DecidableEq τ] in
/-- What a step publishes is cached from then on, and was not before. -/
theorem Books.length_cached_step (hs : s.Books) (hdeed : s.Deed (s.thread thread).station effect next)
    (hlisted : ∀ level, (s.apply thread effect).isCached level = true →
      level ∈ (s.apply thread effect).keys) :
    (s.apply thread effect).cached.length = s.cached.length + effect.adds.toNat := by
  have hnodup : (s.apply thread effect).cached.Nodup := (nodup_keys_apply hs.nodup thread effect).filter _
  have hmem : ∀ level, level ∈ (s.apply thread effect).cached
      ↔ effect.published? = some (.level level) ∨ s.isCached level = true := by
    intro level
    rw [← isCached_apply s thread, cached, List.mem_filter]
    exact and_iff_right_of_imp (hlisted level)
  rw [Effect.adds]
  cases hpublished : effect.published? with
  | none =>
      refine hs.length_eq hnodup fun level => ?_
      rw [hmem, hpublished]
      exact or_iff_right nofun
  | some target =>
      cases target with
      | decoder =>
          refine hs.length_eq hnodup fun level => ?_
          rw [hmem, hpublished]
          exact or_iff_right nofun
      | level level =>
          have hbegun := (hdeed.publishes _ hpublished).1
          have hnew : level ∉ s.cached := by
            rw [hs.mem_cached, isCached, hs.begun thread _ (.inl hbegun)]
            exact nofun
          have hnodup' := List.Nodup.cons hnew (hs.nodup.filter _)
          refine ((List.perm_ext_iff_of_nodup hnodup hnodup').mpr fun other => ?_).length_eq
          rw [hmem, hpublished, List.mem_cons, hs.mem_cached, Option.some.injEq, BuildTarget.level.injEq,
            eq_comm]

omit [DecidableEq τ] in
/-- The count of builds does not run over. -/
theorem Books.digestsBuilt_step (hs : s.Books) (thread : τ) (effect : Effect α) :
    (s.apply thread effect).counters.digestsBuilt.toNat
      = s.counters.digestsBuilt.toNat + effect.pays.toNat := by
  have hsmall := length_cached_le hs.nodup
  have hcounted := hs.digestsBuilt_le
  have hpays : effect.pays.toNat ≤ 1 := Bool.toNat_le _
  rw [digestsBuilt_apply, UInt64.toNat_add, UInt64.toNat_ofNat', Nat.mod_eq_of_lt (by omega),
    Nat.mod_eq_of_lt (by omega)]

/-- Only one thread begins or ceases to owe a count. -/
theorem exists_debtors {owes owes' : τ → Bool} {debtors : Finset τ}
    (hdebtors : ∀ thread, thread ∈ debtors ↔ owes thread = true) {thread : τ}
    (hother : ∀ other, other ≠ thread → owes' other = owes other) :
    ∃ debtors' : Finset τ, (∀ other, other ∈ debtors' ↔ owes' other = true)
      ∧ debtors'.card + (owes thread).toNat = debtors.card + (owes' thread).toNat := by
  have hrest : (debtors.erase thread).card + (owes thread).toNat = debtors.card := by
    cases howes : owes thread with
    | true => exact Finset.card_erase_add_one ((hdebtors thread).mpr howes)
    | false =>
        have hmem : thread ∉ debtors := fun h => by cases ((hdebtors thread).mp h).symm.trans howes
        rw [Finset.erase_eq_of_notMem hmem]
        rfl
  have hmem : ∀ other, other ∈ debtors.erase thread ↔ other ≠ thread ∧ owes' other = true := by
    intro other
    rw [Finset.mem_erase, hdebtors]
    exact and_congr_right fun hne => by rw [hother other hne]
  cases howes' : owes' thread with
  | true =>
      refine ⟨insert thread (debtors.erase thread), fun other => ?_, ?_⟩
      · rw [Finset.mem_insert, hmem]
        by_cases hsame : other = thread
        · simp [hsame, howes']
        · simp [hsame]
      · rw [Finset.card_insert_of_notMem (Finset.notMem_erase _ _), Bool.toNat_true]
        omega
  | false =>
      refine ⟨debtors.erase thread, fun other => ?_, hrest⟩
      rw [hmem]
      refine and_iff_right_of_imp fun howes hsame => ?_
      cases (hsame ▸ howes).symm.trans howes'

/-- **Every event keeps the books.** -/
theorem Books.step (hs : s.Books) (howned : s.Owned) (nests : BuildTarget → Int32 → Bool) (thread : τ)
    (event : ThreadEvent α) : (s.step nests thread event).Books := by
  rcases s.step_cases nests thread event with hsame | ⟨effect, next, hplan, hstep⟩
  · rwa [hsame]
  rw [hstep]
  have hdeed := deed_plan? hplan
  have hconduct := conduct_plan? hplan
  have hlisted : ∀ level, (s.apply thread effect).isCached level = true →
      level ∈ (s.apply thread effect).keys := by
    intro level hlevel
    rw [keys_apply]
    rcases (isCached_apply s thread effect level).mp hlevel with hpublished | hcached
    · have hbegun := (hdeed.publishes _ hpublished).1
      exact .inl (hs.placed thread level (.inl (Station.placed?_of_begun? hbegun)))
    · exact .inl (hs.listed level hcached)
  refine ⟨nodup_keys_apply hs.nodup thread effect, hlisted, hs.placed_step hdeed hconduct,
    hs.begun_step howned hdeed hconduct, ?_⟩
  obtain ⟨debtors, hdebtors, hbalance⟩ := hs.balance
  have hother : ∀ other, other ≠ thread →
      (((s.apply thread effect).move thread next).thread other).station.owes
        = (s.thread other).station.owes := by
    intro other hne
    rw [thread_move, thread_apply, if_neg hne]
  have howes : (((s.apply thread effect).move thread next).thread thread).station.owes = next.owes := by
    rw [thread_move, thread_apply, if_pos rfl, Thread.owes_follow]
  obtain ⟨debtors', hdebtors', hcard⟩ := exists_debtors hdebtors hother
  refine ⟨debtors', hdebtors', ?_⟩
  show (s.apply thread effect).counters.digestsBuilt.toNat + debtors'.card
    = (s.apply thread effect).cached.length
  rw [hs.digestsBuilt_step, hs.length_cached_step hdeed hlisted, ← hbalance]
  rw [howes] at hcard
  have hsteps := hdeed.balance
  omega

theorem Books.run {s : Threads τ α} (hs : s.Books) (howned : s.Owned) (nests : BuildTarget → Int32 → Bool)
    (events : List (τ × ThreadEvent α)) : (s.run nests events).Books := by
  induction events generalizing s with
  | nil => exact hs
  | cons event events ih =>
      exact ih (hs.step howned nests event.1 event.2) (howned.step nests event.1 event.2)

end Step

end Threads

end SharedDictionary
