import SharedDictionary.Handle.Threads

/-!
# Who holds what

A thread holds what its station says, and the locks of the builds that wait for it to come back.  What a step
does to them is said once, in `Threads.Conduct`: it takes a resource that is free, or lets go of one, or
leaves all as it is.  So nothing has two owners, and whatever has an owner is held where that thread stands
(`Threads.Owned`).
-/

namespace SharedDictionary

variable {τ α : Type}

/-! ### What is held, and what calls are about -/

/-- The slot that a call is about. -/
def Station.target? : Station α → Option BuildTarget
  | .entering (.slot level) | .inside (.slot level) => some (.level level)
  | .entering (.look level) | .inside (.look level) => some (.level level)
  | .reading target | .waiting target | .rereading target => some target
  | .ensuring target? | .announcing target? | .checking target? => target?
  | .building target | .publishing target _ => some target
  | .releasing target _ | .counting target _ => some target
  | .glancing level | .trying level | .peeking level | .withdrawing level _ => some (.level level)
  | _ => none

/-- What a thread holds where it stands, the locks of builds that wait apart. -/
def Station.held : Station α → List Resource
  | .inside _ | .surveying _ _ _ => [.map]
  | .rereading target | .building target | .publishing target _ | .releasing target _ => [.lock target]
  | .ensuring target? => target?.toList.map .lock
  | .announcing target? | .checking target? => .check :: target?.toList.map .lock
  | .peeking level | .withdrawing level _ => [.lock (.level level)]
  | _ => []

/-- What a thread holds. -/
def Thread.held (x : Thread α) : List Resource := x.station.held ++ x.pending.map .lock

/-- What is held after a step, the locks of builds that have waited before it apart. -/
def Next.held : Next α → List Resource
  | .goes station => station.held
  | .calls target _ => [.lock target]
  | .returns _ => []

theorem Thread.held_follow (x : Thread α) (next : Next α) :
    (x.follow next).held = next.held ++ x.pending.map .lock := by
  cases next with
  | goes station => rfl
  | calls target level => rfl
  | returns answer =>
      rw [follow]
      cases x.pending <;> rfl

/-- What a step takes. -/
def Effect.taken? : Effect α → Option Resource
  | take resource => some resource
  | _ => none

/-- What a step lets go of. -/
def Effect.freed? : Effect α → Option Resource
  | free resource => some resource
  | insert _ => some .map
  | settle _ => some .check
  | _ => none

theorem Effect.freed?_of_taken? {effect : Effect α} {resource : Resource}
    (h : effect.taken? = some resource) : effect.freed? = none := by
  cases effect <;> first | rfl | cases h

namespace Threads

theorem owner_apply (s : Threads τ α) (thread : τ) (effect : Effect α) (resource : Resource) :
    (s.apply thread effect).owner resource
      = if effect.taken? = some resource then some thread
        else if effect.freed? = some resource then none else s.owner resource := by
  cases effect <;> simp only [apply, own, Effect.taken?, Effect.freed?, Option.some.injEq, reduceCtorEq,
    if_false, eq_comm]

theorem thread_apply (s : Threads τ α) (thread : τ) (effect : Effect α) :
    (s.apply thread effect).thread = s.thread := by
  cases effect <;> rfl

/-- What is free can be taken. -/
theorem taking?_of_free {s : Threads τ α} {resource : Resource} (hfree : s.owner resource = none)
    (station : Station α) : s.taking? resource station = some (.take resource, .goes station) := by
  rw [taking?, hfree]
  rfl

/-! ### What a step does -/

/-- What a step does to what is held and to what the call is about.  It takes what is free, and holds on to
what it does not let go of.  A call stays with what it is about, and only a build calls the handle back. -/
structure Conduct (nests : BuildTarget → Int32 → Bool) (s : Threads τ α) (station : Station α)
    (effect : Effect α) (next : Next α) : Prop where
  free : ∀ resource, effect.taken? = some resource → s.owner resource = none
  held : (next.held ++ effect.freed?.toList).Perm (station.held ++ effect.taken?.toList)
  about : station ≠ .idle → ∀ station', next = .goes station' → station'.target? = station.target?
  calls : ∀ target level, next = .calls target level →
    station = .building target ∧ nests target level = true

section Conduct

variable {nests : BuildTarget → Int32 → Bool} {s : Threads τ α} {station station' : Station α}
  {effect : Effect α} {next : Next α}

/-- A call goes on with what it holds. -/
theorem Conduct.goes (htaken : effect.taken? = none) (hfreed : effect.freed? = none)
    (hheld : station'.held = station.held) (habout : station'.target? = station.target?) :
    s.Conduct nests station effect (.goes station') where
  free := by
    rw [htaken]
    exact nofun
  held := by
    rw [htaken, hfreed, Next.held, hheld]
  about _ _ hnext := by
    cases hnext
    exact habout
  calls := nofun

/-- A call goes on without what it has held first. -/
theorem Conduct.frees {resource : Resource} (htaken : effect.taken? = none)
    (hfreed : effect.freed? = some resource) (hheld : station.held = resource :: station'.held)
    (habout : station'.target? = station.target?) : s.Conduct nests station effect (.goes station') where
  free := by
    rw [htaken]
    exact nofun
  held := by
    rw [htaken, hfreed, Next.held, hheld]
    exact (List.append_nil _ ▸ List.perm_append_singleton _ _)
  about _ _ hnext := by
    cases hnext
    exact habout
  calls := nofun

/-- A call returns when it has let go of all that it has held. -/
theorem Conduct.returns {answer : Answer α} (htaken : effect.taken? = none)
    (hheld : station.held = effect.freed?.toList) : s.Conduct nests station effect (.returns answer) where
  free := by
    rw [htaken]
    exact nofun
  held := by
    rw [htaken, hheld, Next.held, List.nil_append, Option.toList_none, List.append_nil]
  about _ _ hnext := by cases hnext
  calls := nofun

/-- A call goes on with what it takes. -/
theorem conduct_taking? {resource : Resource} (h : s.taking? resource station' = some (effect, next))
    (hheld : station'.held = resource :: station.held) (habout : station'.target? = station.target?) :
    s.Conduct nests station effect next := by
  rw [taking?] at h
  split at h
  · cases h
    refine ⟨fun other hother => ?_, ?_, fun _ _ hnext => ?_, nofun⟩
    · cases hother
      exact Option.isNone_iff_eq_none.mp ‹_›
    · rw [Next.held, hheld]
      exact (List.append_nil _ ▸ (List.perm_append_singleton _ _).symm)
    · cases hnext
      exact habout
  · cases h

/-- What a call does once the format is known. -/
theorem conduct_afterCheck {target? : Option BuildTarget} {verdict : Verdict Unit}
    (htaken : effect.taken? = none)
    (hheld : station.held = effect.freed?.toList ++ target?.toList.map .lock)
    (habout : station.target? = target?) :
    s.Conduct nests station effect (afterCheck target? verdict) := by
  have hafter : (afterCheck target? verdict : Next α).held = target?.toList.map .lock := by
    cases target? <;> cases verdict <;> rfl
  refine ⟨fun _ => ?_, ?_, fun _ station' hnext => ?_, fun target level hnext => ?_⟩
  · rw [htaken]
    exact nofun
  · rw [htaken, hafter, hheld, Option.toList_none, List.append_nil]
    exact List.perm_append_comm
  · rw [habout]
    cases target? <;> cases verdict <;> cases hnext <;> rfl
  · cases target? <;> cases verdict <;> cases hnext

theorem conduct_advance? (h : s.advance? station = some (effect, next)) :
    s.Conduct nests station effect next := by
  cases station with
  | idle | checking _ | building _ => cases h
  | entering errand => exact conduct_taking? h rfl (by cases errand <;> rfl)
  | waiting target => exact conduct_taking? h rfl rfl
  | inside errand =>
      cases errand with
      | slot level =>
          cases h
          exact .frees rfl rfl rfl rfl
      | look level =>
          cases h
          split
          · exact .frees rfl rfl rfl rfl
          · exact .returns rfl rfl
      | list counters =>
          cases h
          exact .goes rfl rfl rfl rfl
  | surveying counters left found =>
      cases left with
      | nil =>
          cases h
          split
          · exact .frees rfl rfl rfl rfl
          · exact .returns rfl rfl
      | cons level left => cases h
  | reading target =>
      rw [advance?] at h
      split at h <;> cases h <;> exact .goes rfl rfl rfl rfl
  | rereading target =>
      rw [advance?] at h
      split at h <;> cases h <;> exact .goes rfl rfl rfl rfl
  | ensuring target? =>
      rw [advance?] at h
      split at h
      · cases h
        exact conduct_afterCheck rfl rfl rfl
      · exact conduct_taking? h rfl rfl
  | announcing target? =>
      cases h
      exact .goes rfl rfl rfl rfl
  | publishing target artifact =>
      cases h
      exact .goes rfl rfl rfl rfl
  | releasing target outcome =>
      cases h
      exact .frees rfl rfl rfl rfl
  | counting target outcome =>
      cases h
      cases outcome.countsFor target <;> exact .returns rfl rfl
  | loading | prefixing =>
      cases h
      exact .returns rfl rfl
  | glancing level =>
      cases h
      split
      · exact .returns rfl rfl
      · exact .goes rfl rfl rfl rfl
  | trying level =>
      rw [advance?] at h
      cases htaking : s.taking? (.lock (.level level)) (.peeking level) with
      | none =>
          rw [htaking] at h
          cases h
          exact .returns rfl rfl
      | some plan =>
          rw [htaking] at h
          exact conduct_taking? (htaking.trans h) rfl rfl
  | peeking level =>
      cases h
      exact .goes rfl rfl rfl rfl
  | withdrawing level state =>
      cases h
      exact .returns rfl rfl
  | copying levels seen left =>
      cases left <;> cases h
      · exact .returns rfl rfl
      · exact .goes rfl rfl rfl rfl

/-- **What a step does** to what is held and to what a call is about. -/
theorem conduct_plan? {event : ThreadEvent α} (h : s.plan? nests station event = some (effect, next)) :
    s.Conduct nests station effect next := by
  unfold plan? at h
  split at h
  · rename_i call
    cases h
    refine ⟨nofun, ?_, fun hbusy => absurd rfl hbusy, nofun⟩
    cases call with
    | request request => cases request <;> exact .refl _
    | _ => exact .refl _
  · exact conduct_advance? h
  · split at h <;> cases h
    exact .goes rfl rfl rfl rfl
  · cases h
    exact conduct_afterCheck rfl rfl rfl
  · split at h <;> cases h
    refine ⟨nofun, .refl _, fun _ _ hnext => (by cases hnext), fun _ _ hnext => ?_⟩
    cases hnext
    exact ⟨rfl, ‹_›⟩
  · rename_i target verdict
    cases verdict <;> cases h <;> exact .goes rfl rfl rfl rfl
  · cases h

end Conduct

/-- What a thread holds before and after a step. -/
theorem Conduct.held_follow {nests : BuildTarget → Int32 → Bool} {s : Threads τ α} {x : Thread α}
    {effect : Effect α} {next : Next α} (h : s.Conduct nests x.station effect next) :
    ((x.follow next).held ++ effect.freed?.toList).Perm (x.held ++ effect.taken?.toList) := by
  have hcomm : ∀ front middle back : List Resource,
      (front ++ middle ++ back).Perm (front ++ back ++ middle) := by
    intro front middle back
    rw [List.append_assoc, List.append_assoc]
    exact List.perm_append_comm.append_left front
  rw [x.held_follow, Thread.held]
  exact (hcomm _ _ _).trans ((h.held.append_right _).trans (hcomm _ _ _))

/-! ### Owners -/

variable [DecidableEq τ]

theorem thread_move (s : Threads τ α) (thread other : τ) (next : Next α) :
    (s.move thread next).thread other
      = if other = thread then (s.thread thread).follow next else s.thread other := rfl

/-- **What an event does**: nothing, or a thread goes on as planned. -/
theorem step_cases (nests : BuildTarget → Int32 → Bool) (s : Threads τ α) (thread : τ)
    (event : ThreadEvent α) :
    s.step nests thread event = s
      ∨ ∃ effect next, s.plan? nests (s.thread thread).station event = some (effect, next)
        ∧ s.step nests thread event = (s.apply thread effect).move thread next := by
  rw [step]
  split
  · exact .inr ⟨_, _, ‹_›, rfl⟩
  · exact .inl rfl

/-- What is held has an owner, and what has an owner is held there, once. -/
structure Owned (s : Threads τ α) : Prop where
  mem_held : ∀ thread resource, resource ∈ (s.thread thread).held ↔ s.owner resource = some thread
  nodup : ∀ thread, (s.thread thread).held.Nodup

omit [DecidableEq τ] in
theorem owned_initial (content : ByteArray) (isRaw : Bool) :
    (initial content isRaw : Threads τ α).Owned where
  mem_held _ _ := ⟨nofun, nofun⟩
  nodup _ := List.nodup_nil

/-- **Every event keeps the owners.** -/
theorem Owned.step {s : Threads τ α} (hs : s.Owned) (nests : BuildTarget → Int32 → Bool) (thread : τ)
    (event : ThreadEvent α) : (s.step nests thread event).Owned := by
  rcases s.step_cases nests thread event with hsame | ⟨effect, next, hplan, hstep⟩
  · rwa [hsame]
  rw [hstep]
  have hconduct := conduct_plan? hplan
  have hperm := hconduct.held_follow
  have hmem : ∀ resource, resource ∈ ((s.thread thread).follow next).held ∨ effect.freed? = some resource
      ↔ resource ∈ (s.thread thread).held ∨ effect.taken? = some resource := by
    intro resource
    have hiff := hperm.mem_iff (a := resource)
    rwa [List.mem_append, List.mem_append, Option.mem_toList, Option.mem_toList] at hiff
  have hnodup : (((s.thread thread).follow next).held ++ effect.freed?.toList).Nodup := by
    refine hperm.nodup_iff.mpr (List.nodup_append.mpr ⟨hs.nodup thread, ?_, ?_⟩)
    · cases effect.taken? <;> simp
    · rintro resource hheld _ htaken rfl
      have howner := (hs.mem_held thread resource).mp hheld
      rw [hconduct.free resource (Option.mem_toList.mp htaken)] at howner
      cases howner
  have hfreed : ∀ resource, effect.freed? = some resource →
      resource ∉ ((s.thread thread).follow next).held := by
    intro resource hfreed hheld
    exact (List.nodup_append.mp hnodup).2.2 resource hheld resource (Option.mem_toList.mpr hfreed) rfl
  refine ⟨fun other resource => ?_, fun other => ?_⟩
  · show resource ∈ (((s.apply thread effect).move thread next).thread other).held
      ↔ (s.apply thread effect).owner resource = some other
    rw [thread_move, thread_apply, owner_apply]
    by_cases hother : other = thread
    · subst hother
      rw [if_pos rfl]
      split
      · have hkept := effect.freed?_of_taken? ‹_›
        have hheld := (hmem resource).mpr (.inr ‹_›)
        rw [hkept] at hheld
        exact ⟨fun _ => rfl, fun _ => hheld.resolve_right nofun⟩
      · split
        · exact ⟨fun hheld => absurd hheld (hfreed resource ‹_›), nofun⟩
        · rw [← hs.mem_held]
          have hiff := hmem resource
          rwa [or_iff_left ‹_›, or_iff_left ‹_›] at hiff
    · rw [if_neg hother, hs.mem_held]
      split
      · rw [hconduct.free resource ‹_›]
        exact ⟨nofun, fun h => absurd (Option.some.inj h).symm hother⟩
      · split
        · have hheld := ((hmem resource).mp (.inr ‹_›)).resolve_right ‹_›
          rw [(hs.mem_held thread resource).mp hheld]
          exact ⟨fun h => absurd (Option.some.inj h).symm hother, nofun⟩
        · exact Iff.rfl
  · rw [thread_move, thread_apply]
    split
    · exact (List.nodup_append.mp hnodup).1
    · exact hs.nodup other

theorem Owned.run {s : Threads τ α} (hs : s.Owned) (nests : BuildTarget → Int32 → Bool)
    (events : List (τ × ThreadEvent α)) : (s.run nests events).Owned := by
  induction events generalizing s with
  | nil => exact hs
  | cons event events ih => exact ih (hs.step nests event.1 event.2)

end Threads

end SharedDictionary
