import SharedDictionary.Proofs.Handle.Lifecycle
import SharedDictionary.Proofs.Handle.Ways

/-!
# A handle that one thread has to itself

A handle that reacts to one input after the other is a handle that a single thread uses.  The calls that are
pending are the thread's: the topmost one is where it stands, and the others are the builds that wait for it
to come back.  So a run of a handle is a run of one thread (`Handle.exists_sole_run`), as long as inputs come
where a thread can make them (`Handle.OrderlyRun`), and what the thread is shown is what the handle shows
(`Handle.exists_shown`).  What holds of any number of threads therefore holds of a handle.
-/

namespace SharedDictionary

variable {α A D : Type}

/-! ### The calls that are pending -/

/-- Changes what an engine has built. -/
def Verdict.map {β : Type} (f : α → β) : Verdict α → Verdict β
  | success value => .success (f value)
  | failed e => .failed e
  | panicked text => .panicked text

/-- A pending call is a build. -/
def Pending.IsBuild (p : Pending) : Prop := p.stage = .building ∧ p.request.target?.isSome = true

/-- Where the thread of a pending call stands. -/
def Pending.station (p : Pending) : Station α :=
  match p.stage, p.request.target? with
  | .checking, target? => .checking target?
  | .building, some target => .building target
  | .building, none => .loading

namespace Handle

/-- What a handle holds, the calls that are pending apart. -/
def core (h : Handle A D) : Core (A ⊕ D) :=
  ⟨h.content, h.isRaw, fun level => (h.slot? level).isSome, fun target => (h.slotAt target).built, h.format,
    h.counters, h.nextStamp⟩

/-- The thread of a handle: the topmost call is where it stands. -/
def thread (h : Handle A D) : Thread (A ⊕ D) :=
  match h.pending with
  | [] => ⟨.idle, []⟩
  | p :: rest => ⟨p.station, rest.filterMap (·.request.target?)⟩

/-- Only the topmost call waits for a format check, and content is not built. -/
def Stacked (h : Handle A D) : Prop :=
  ∀ p rest, h.pending = p :: rest →
    (p.stage = .building → p.request.target?.isSome = true) ∧ ∀ q ∈ rest, q.IsBuild

/-- Every pending call is a build. -/
def OnlyBuilds (h : Handle A D) : Prop := ∀ p ∈ h.pending, p.IsBuild

theorem OnlyBuilds.stacked {h : Handle A D} (hh : h.OnlyBuilds) : h.Stacked := by
  intro p rest hpending
  rw [OnlyBuilds, hpending] at hh
  exact ⟨fun _ => (hh p List.mem_cons_self).2, fun q hq => hh q (List.mem_cons_of_mem p hq)⟩

theorem OnlyBuilds.thread_eq {h : Handle A D} (hh : h.OnlyBuilds) : h.thread = .back h.underway := by
  rw [thread, underway]
  rw [OnlyBuilds] at hh
  cases hpending : h.pending with
  | nil => rfl
  | cons p rest =>
      obtain ⟨hstage, htarget⟩ := hh p (hpending ▸ List.mem_cons_self)
      obtain ⟨target, htarget⟩ := Option.isSome_iff_exists.mp htarget
      have hunderway : (p :: rest).filterMap (·.request.target?)
          = target :: rest.filterMap (·.request.target?) := List.filterMap_cons_some htarget
      have hstation : (p.station : Station (A ⊕ D)) = .building target := by
        unfold Pending.station
        rw [hstage, htarget]
      rw [hunderway, Thread.back, ← hstation]

/-- A thread gets to where a handle has come. -/
structure Follows (nests : BuildTarget → Int32 → Bool) (c : Core (A ⊕ D)) (x : Thread (A ⊕ D))
    (h' : Handle A D) : Prop where
  stacked : h'.Stacked
  leads : Leads nests c x h'.core h'.thread

section Follows

variable {nests : BuildTarget → Int32 → Bool} {c c' : Core (A ⊕ D)} {x x' : Thread (A ⊕ D)}
  {h h' : Handle A D}

theorem Follows.of_leads (h₁ : Leads nests c x c' x') (h₂ : Follows nests c' x' h') : Follows nests c x h' :=
  ⟨h₂.stacked, h₁.trans h₂.leads⟩

/-- A call that is over leaves the thread idle, or back at the build that has made it. -/
theorem Follows.back (hbuilds : h.OnlyBuilds) (hpending : h'.pending = h.pending)
    (hleads : Leads nests c x h'.core (.back h.underway)) : Follows nests c x h' := by
  have hbuilds' : h'.OnlyBuilds := by rwa [OnlyBuilds, hpending]
  have hunderway : h'.underway = h.underway := by rw [underway, hpending, underway]
  exact ⟨hbuilds'.stacked, by rwa [hbuilds'.thread_eq, hunderway]⟩

/-- A call that waits for the engine is where the thread stands. -/
theorem Follows.waits (hbuilds : h.OnlyBuilds) {p : Pending} (hpending : h'.pending = p :: h.pending)
    (htarget : p.stage = .building → p.request.target?.isSome = true)
    (hleads : Leads nests c x h'.core ⟨p.station, h.underway⟩) : Follows nests c x h' := by
  refine ⟨fun q rest hq => ?_, ?_⟩
  · rw [hpending] at hq
    cases hq
    exact ⟨htarget, hbuilds⟩
  · rwa [thread, hpending]

/-! ### Letting go of a slot -/

theorem isSome_slot?_setSlot (h : Handle A D) (level other : Int32) (slot : Slot A) :
    ((h.setSlot level slot).slot? other).isSome = (decide (other = level) || (h.slot? other).isSome) := by
  rw [slot?_setSlot]
  split
  · rw [decide_eq_true ‹_›]
    rfl
  · rw [decide_eq_false ‹_›]
    rfl

/-- Setting a slot lists its level. -/
theorem core_setSlot (h : Handle A D) (level : Int32) (slot : Slot A) :
    (h.setSlot level slot).core = { h.core.apply (.insert level) with
      built := fun other =>
        if other = .level level then (slot.map Sum.inl).built else (h.slotAt other).built } := by
  have hlisted : (fun other => ((h.setSlot level slot).slot? other).isSome)
      = fun other => decide (other = level) || (h.slot? other).isSome := by
    funext other
    exact h.isSome_slot?_setSlot level other slot
  have hbuilt : (fun other => ((h.setSlot level slot).slotAt other).built) = fun other =>
      if other = .level level then (slot.map Sum.inl).built else (h.slotAt other).built := by
    funext other
    rw [slotAt_setSlot]
    split <;> rfl
  rw [core, hlisted, hbuilt]
  rfl

/-- Where a slot is filled as it was before, nothing but its level is listed. -/
theorem core_setSlot_of_same {level : Int32} {slot : Slot A} (hsame : slot.built = (h.slotOf level).built) :
    (h.setSlot level slot).core = h.core.apply (.insert level) := by
  have hbuilt : (fun other =>
        if other = .level level then (slot.map Sum.inl).built else (h.slotAt other).built)
      = fun other => (h.slotAt other).built := by
    funext other
    split
    · rw [‹other = _›, slotAt, Slot.map, Slot.map, hsame]
    · rfl
  rw [core_setSlot, hbuilt]
  rfl

/-- Where a level has a slot, listing it changes nothing. -/
theorem core_insert {level : Int32} (hlisted : (h.slot? level).isSome = true) :
    h.core.apply (.insert level) = h.core := by
  have hkeys : (fun other => decide (other = level) || (h.slot? other).isSome)
      = fun other => (h.slot? other).isSome := by
    funext other
    by_cases hother : other = level
    · rw [hother, hlisted, Bool.or_true]
    · rw [decide_eq_false hother, Bool.false_or]
  exact congrArg (fun listed => { h.core with listed }) hkeys

theorem core_release {level : Int32} (hlisted : (h.slot? level).isSome = true) :
    (h.release level).core = h.core := by
  have hsame : (h.release level).core = h.core.apply (.insert level) := core_setSlot_of_same rfl
  rw [hsame, core_insert hlisted]

theorem core_releaseDecoder : h.releaseDecoder.core = h.core := by
  have hbuilt : (fun other => (h.releaseDecoder.slotAt other).built)
      = fun other => (h.slotAt other).built := by
    funext other
    rw [slotAt_releaseDecoder]
    split
    · rw [‹other = _›]
    · rfl
  rw [core, hbuilt]
  rfl

/-! ### Once the format is known -/

/-- A request for a level has found or inserted its slot. -/
def HasSlot (h : Handle A D) (request : Request) : Prop :=
  ∀ level, request = .digested level → (h.slot? level).isSome = true

/-- A request lets go of its slot, and what it comes to is counted. -/
theorem follows_released (hbuilds : h.OnlyBuilds) {target : BuildTarget} {outcome : Outcome (A ⊕ D)}
    (hpending : h'.pending = h.pending) (hcore : h'.core = h.core.counted target outcome) :
    Follows nests h.core ⟨.releasing target outcome, h.underway⟩ h' := by
  refine .back hbuilds hpending ?_
  rw [hcore]
  exact leads_releasing h.core target outcome

/-- A request fails. -/
theorem follows_fail (hbuilds : h.OnlyBuilds) {request : Request} {target : BuildTarget}
    (htarget : request.target? = some target) (hslot : h.HasSlot request) (e : DictError) :
    Follows nests h.core ⟨.releasing target (.failed e), h.underway⟩ (h.fail request e).1 := by
  cases request with
  | undigested => cases htarget
  | digested level =>
      cases htarget
      have hrelease := core_release (hslot level rfl)
      exact follows_released hbuilds rfl (congrArg (fun c => c.apply (.count .digestFailure)) hrelease)
  | decoder =>
      cases htarget
      exact follows_released hbuilds rfl core_releaseDecoder

/-- A request breaks off. -/
theorem follows_breakOff (hbuilds : h.OnlyBuilds) {request : Request} {target : BuildTarget}
    (htarget : request.target? = some target) (hslot : h.HasSlot request) (text : String) :
    Follows nests h.core ⟨.releasing target (.panicked text), h.underway⟩ (h.breakOff request text).1 := by
  cases request with
  | undigested => cases htarget
  | digested level =>
      cases htarget
      exact follows_released hbuilds rfl (core_release (hslot level rfl))
  | decoder =>
      cases htarget
      exact follows_released hbuilds rfl core_releaseDecoder

/-- What a request comes to once its format check has ended. -/
def settled (h : Handle A D) (request : Request) : Verdict Unit → Handle A D
  | .success () => (h.pass request).1
  | .failed e => (h.fail request e).1
  | .panicked text => (h.breakOff request text).1

theorem follows_settled (hbuilds : h.OnlyBuilds) {request : Request} (hslot : h.HasSlot request)
    (verdict : Verdict Unit) (station : Station (A ⊕ D)) :
    Follows nests h.core ((⟨station, h.underway⟩ : Thread (A ⊕ D)).follow
      (Threads.afterCheck request.target? verdict)) (h.settled request verdict) := by
  cases htarget : request.target? with
  | some target =>
      cases verdict with
      | failed e => exact follows_fail hbuilds htarget hslot e
      | panicked text => exact follows_breakOff hbuilds htarget hslot text
      | success =>
          cases request with
          | undigested => cases htarget
          | digested level =>
              cases htarget
              exact .waits hbuilds rfl (fun _ => rfl) (.refl _ _)
          | decoder =>
              cases htarget
              exact .waits hbuilds rfl (fun _ => rfl) (.refl _ _)
  | none =>
      cases request with
      | digested level => cases htarget
      | decoder => cases htarget
      | undigested =>
          cases verdict with
          | success =>
              have hloads : Leads nests h.core ⟨.loading, h.underway⟩ (h.core.apply (.count .undigestedLoad))
                  (.back h.underway) := .returns _ (.content (.success ())) fun _ _ _ _ => rfl
              exact .back hbuilds rfl hloads
          | failed e =>
              refine .back hbuilds rfl ?_
              rw [← Thread.follow_returns ⟨station, h.underway⟩ (.content (.failed e))]
              exact .refl _ _
          | panicked text =>
              refine .back hbuilds rfl ?_
              rw [← Thread.follow_returns ⟨station, h.underway⟩ (.content (.panicked text))]
              exact .refl _ _

/-- A request makes sure of the format. -/
theorem OnlyBuilds.follows_ensureFormat (hbuilds : h.OnlyBuilds) (request : Request)
    (hslot : h.HasSlot request) :
    Follows nests h.core ⟨.ensuring request.target?, h.underway⟩ (h.ensureFormat request).1 := by
  have hknown : ∀ outcome, h.format = some outcome →
      Leads nests h.core ⟨.ensuring request.target?, h.underway⟩ h.core
        ((⟨.ensuring request.target?, h.underway⟩ : Thread (A ⊕ D)).follow
          (Threads.afterCheck request.target? (.ofExcept outcome))) := by
    intro outcome houtcome
    refine .step .advance .nothing _ fun s _ hcore _ => ?_
    have hformat : s.format = some outcome := (congrArg Core.format hcore).trans houtcome
    show s.advance? (.ensuring request.target?) = _
    rw [Threads.advance?, hformat]
  unfold ensureFormat
  split
  · exact .of_leads (hknown _ ‹_›) (follows_settled hbuilds hslot (.success ()) _)
  · exact .of_leads (hknown _ ‹_›) (follows_settled hbuilds hslot (.failed _) _)
  · rename_i hnone
    have hcheck : (.check : Resource) ∉ (⟨.ensuring request.target?, h.underway⟩ : Thread (A ⊕ D)).held := by
      intro hheld
      rcases List.mem_append.mp hheld with hheld | hheld <;> obtain ⟨_, -, hsame⟩ := List.mem_map.mp hheld <;>
        cases hsame
    refine .waits hbuilds rfl (fun hstage => by cases hstage) (.trans
      (.take .check (.announcing request.target?) hcheck fun s hcore => ?_)
      (.step .advance (.count .formatCheck) (.goes (.checking request.target?)) fun _ _ _ _ => rfl))
    have hformat : s.format = none := (congrArg Core.format hcore).trans hnone
    show s.advance? (.ensuring request.target?) = _
    rw [Threads.advance?, hformat]

/-! ### Every input -/

/-- An input comes where a thread can make it: a call when nothing is pending, or from a build that calls the
handle back for a level that is nested in it and is not being built; an answer when it is waited for. -/
def Orderly (nests : BuildTarget → Int32 → Bool) (h : Handle A D) : Input A D → Prop
  | .call request => (h.pending = [] ∨ ∃ p rest target level, h.pending = p :: rest ∧ p.stage = .building
      ∧ p.request.target? = some target ∧ request = .digested level ∧ nests target level = true
      ∧ (h.slotAt (.level level)).building = false)
  | .checked _ => ∃ request rest, h.pending = ⟨request, .checking⟩ :: rest
  | .built _ => ∃ level rest, h.pending = ⟨.digested level, .building⟩ :: rest
  | .builtDecoder _ => ∃ rest, h.pending = ⟨.decoder, .building⟩ :: rest
  | .prefixTaken => h.pending = []

theorem isSome_slot? {level : Int32} (h : Handle A D) (hslot : h.slotOf level ≠ .vacant) :
    (h.slot? level).isSome = true := by
  rw [Option.isSome_iff_ne_none]
  intro hnone
  rw [slotOf, hnone] at hslot
  exact hslot rfl

/-- A digest is asked for that is not being built. -/
theorem follows_digested {succeeded : BuildTarget → Prop} (hconsistent : h.Consistent succeeded)
    (hbuilds : h.OnlyBuilds) {level : Int32} (hfree : (h.slotAt (.level level)).building = false) :
    Follows nests h.core ⟨.entering (.slot level), h.underway⟩ (h.call (.digested level)).1 := by
  refine .of_leads (leads_slot h.core level) ?_
  rcases hslot : h.slotOf level with ⟨_ | artifact, building⟩
  -- The handle sets an empty slot where the thread inserts one, and takes it; its thread is yet to do that.
  · have hvacant : h.slotOf level = .vacant := by
      rw [slotAt, hslot] at hfree
      cases hfree
      exact hslot
    have hnone : (h.slotAt (.level level)).built = none := by
      rw [slotAt, hvacant]
      rfl
    have hlock : .level level ∉ h.underway := by
      rw [← hconsistent.building, hfree]
      exact Bool.false_ne_true
    have hsame : (h.setSlot level ⟨none, true⟩).core = h.core.apply (.insert level) :=
      core_setSlot_of_same (by rw [hvacant]; rfl)
    rw [h.call_digested_of_vacant hvacant, ← hsame]
    have hbuilds' : (h.setSlot level ⟨none, true⟩).OnlyBuilds := hbuilds
    refine .of_leads (leads_vacant ?_ hlock) (hbuilds'.follows_ensureFormat (.digested level) ?_)
    · show ((h.setSlot level ⟨none, true⟩).slotAt (.level level)).built = none
      rw [slotAt_setSlot, if_pos rfl]
      rfl
    · intro other hother
      cases hother
      rw [isSome_slot?_setSlot, decide_eq_true rfl]
      rfl
  · have hlisted : (h.slot? level).isSome = true :=
      h.isSome_slot? (by rw [hslot]; exact fun hvacant => by cases hvacant)
    rw [h.call_digested_of_built (by rw [hslot]), core_insert hlisted]
    have hbuilt : (h.slotAt (.level level)).built = some (artifact.map Sum.inl) := by
      rw [slotAt, hslot]
      rfl
    exact .back hbuilds rfl (leads_found hbuilt)

/-- The decoder is asked for. -/
theorem follows_decoder (hbuilds : h.OnlyBuilds) (hfree : h.decoder.building = false)
    (hlock : .decoder ∉ h.underway) :
    Follows nests h.core ⟨.reading .decoder, h.underway⟩ (h.call .decoder).1 := by
  rcases hslot : h.decoder with ⟨_ | artifact, building⟩
  · have hvacant : h.decoder = .vacant := by
      rw [hslot] at hfree
      cases hfree
      exact hslot
    have hnone : (h.slotAt .decoder).built = none := by
      rw [slotAt, hvacant]
      rfl
    have hbuilt : (fun other => (({ h with decoder := ⟨none, true⟩ } : Handle A D).slotAt other).built)
        = fun other => (h.slotAt other).built := by
      funext other
      rw [slotAt_decoder]
      split
      · rw [‹other = _›, hnone]
        rfl
      · rfl
    have hcore : h.core = ({ h with decoder := ⟨none, true⟩ } : Handle A D).core :=
      (congrArg (fun built => { h.core with built }) hbuilt).symm
    have hbuilds' : ({ h with decoder := ⟨none, true⟩ } : Handle A D).OnlyBuilds := hbuilds
    rw [h.call_decoder_of_vacant hvacant]
    exact .of_leads (leads_vacant hnone hlock)
      (hcore ▸ hbuilds'.follows_ensureFormat .decoder fun _ hother => by cases hother)
  · rw [h.call_decoder_of_built (by rw [hslot])]
    have hbuilt : (h.slotAt .decoder).built = some (artifact.map Sum.inr) := by
      rw [slotAt, hslot]
      rfl
    exact .back hbuilds rfl (leads_found hbuilt)

/-- Content is asked for, or an artifact, by a thread that is idle. -/
theorem follows_call {succeeded : BuildTarget → Prop} (hconsistent : h.Consistent succeeded)
    (hidle : h.pending = []) (request : Request) :
    Follows nests h.core h.thread (h.call request).1 := by
  have hbuilds : h.OnlyBuilds := by
    rw [OnlyBuilds, hidle]
    exact fun p hp => absurd hp List.not_mem_nil
  have hunderway : h.underway = [] := by rw [underway, hidle, List.filterMap_nil]
  have hthread : h.thread = ⟨.idle, h.underway⟩ := by rw [hbuilds.thread_eq, hunderway, Thread.back]
  have hfree : ∀ target, (h.slotAt target).building = false := by
    intro target
    rw [← Bool.not_eq_true, hconsistent.building, hunderway]
    exact List.not_mem_nil
  rw [hthread]
  refine .of_leads (.step (.ask (.request request)) .nothing (.goes (HandleCall.request request).start)
    fun _ _ _ _ => rfl) ?_
  cases request with
  | digested level => exact follows_digested hconsistent hbuilds (hfree _)
  | decoder => exact follows_decoder hbuilds (hfree .decoder) (by rw [hunderway]; exact List.not_mem_nil)
  | undigested => exact hbuilds.follows_ensureFormat .undigested fun _ hother => by cases hother

/-- A build ends. -/
theorem follows_finish {target : BuildTarget} {request : Request} (htarget : request.target? = some target)
    (hbuilds : h.OnlyBuilds) (hslot : h.HasSlot request) (hnone : (h.slotAt target).built = none)
    (verdict : Verdict (A ⊕ D)) (hnext : match verdict with
      | .success value => h'.pending = h.pending ∧ h'.core
          = ((h.core.apply .stamp).apply (.publish target ⟨value, h.nextStamp⟩)).counted target
            (.returned ⟨value, h.nextStamp⟩ true)
      | .failed e => h' = (h.fail request e).1
      | .panicked text => h' = (h.breakOff request text).1) :
    Follows nests h.core ⟨.building target, h.underway⟩ h' := by
  cases verdict with
  | success value =>
      refine .back hbuilds hnext.1 ?_
      rw [hnext.2]
      exact leads_built hnone value
  | failed e =>
      rw [hnext]
      exact .of_leads (.step (.finish (.failed e)) .nothing (.goes (.releasing target (.failed e)))
        fun _ _ _ _ => rfl) (follows_fail hbuilds htarget hslot e)
  | panicked text =>
      rw [hnext]
      exact .of_leads (.step (.finish (.panicked text)) .nothing (.goes (.releasing target (.panicked text)))
        fun _ _ _ _ => rfl) (follows_breakOff hbuilds htarget hslot text)

/-- What is being built has a slot. -/
theorem hasSlot_of_pending {succeeded : BuildTarget → Prop} (hconsistent : h.Consistent succeeded)
    {p : Pending} {rest : List Pending} (hpending : h.pending = p :: rest) : h.HasSlot p.request := by
  intro level hrequest
  have hmem : .level level ∈ h.underway := by
    rw [underway, hpending, List.filterMap_cons_some (by rw [hrequest]; rfl)]
    exact List.mem_cons_self
  refine h.isSome_slot? fun hvacant => ?_
  have hbuilding := (hconsistent.building _).mpr hmem
  rw [slotAt, hvacant] at hbuilding
  cases hbuilding

/-- A build of a level, or of the decoder, ends. -/
theorem core_filled {level : Int32} (hlisted : (h.slot? level).isSome = true) (value : A) (stamp : Nat) :
    (h.setSlot level ⟨some ⟨value, stamp⟩, false⟩).core
      = h.core.apply (.publish (.level level) ⟨.inl value, stamp⟩) := by
  rw [core_setSlot, core_insert hlisted]
  rfl

theorem core_filledDecoder (value : D) (stamp : Nat) :
    ({ h with decoder := ⟨some ⟨value, stamp⟩, false⟩ } : Handle A D).core
      = h.core.apply (.publish .decoder ⟨.inr value, stamp⟩) := by
  have hbuilt : (fun other =>
        (({ h with decoder := ⟨some ⟨value, stamp⟩, false⟩ } : Handle A D).slotAt other).built)
      = fun other => if other = .decoder then some ⟨.inr value, stamp⟩ else (h.slotAt other).built := by
    funext other
    rw [slotAt_decoder]
    split <;> rfl
  exact congrArg (fun built => { h.core with built }) hbuilt

/-- What waits below the topmost call are builds. -/
theorem Stacked.onlyBuilds_rest (hstacked : h.Stacked) {p : Pending} {rest : List Pending}
    (hpending : h.pending = p :: rest) : ({ h with pending := rest } : Handle A D).OnlyBuilds :=
  (hstacked p rest hpending).2

/-- A prefix is handed out. -/
theorem follows_takePrefix (hidle : h.pending = []) : Follows nests h.core h.thread h.takePrefix := by
  have hthread : h.thread = ⟨.idle, []⟩ := by rw [thread, hidle]
  have hbuilds : h.OnlyBuilds := by
    rw [OnlyBuilds, hidle]
    exact fun p hp => absurd hp List.not_mem_nil
  refine .back hbuilds rfl ?_
  have hunderway : h.underway = [] := by rw [underway, hidle, List.filterMap_nil]
  rw [hunderway, hthread]
  exact .trans (.step (.ask .asPrefix) .nothing (.goes .prefixing) fun _ _ _ _ => rfl)
    (.step .advance (.count .prefixLoad) (.returns .asPrefix) fun _ _ _ _ => rfl)

/-- The topmost call's format check ends. -/
theorem follows_checked {succeeded : BuildTarget → Prop} (hconsistent : h.Consistent succeeded)
    (hstacked : h.Stacked) {request : Request} {rest : List Pending}
    (hpending : h.pending = ⟨request, .checking⟩ :: rest) (verdict : Verdict Unit) :
    Follows nests h.core h.thread (h.answerCheck verdict).1 := by
  have hbuilds := hstacked.onlyBuilds_rest hpending
  have hslot := hasSlot_of_pending hconsistent hpending
  have hsettles : Leads nests h.core ⟨.checking request.target?, rest.filterMap (·.request.target?)⟩
      (h.core.apply (.settle verdict))
      ((⟨.checking request.target?, rest.filterMap (·.request.target?)⟩ : Thread (A ⊕ D)).follow
        (Threads.afterCheck request.target? verdict)) :=
    .step (.answer verdict) (.settle verdict) (Threads.afterCheck request.target? verdict) fun _ _ _ _ => rfl
  rw [thread, hpending]
  refine .of_leads hsettles ?_
  rw [answerCheck, hpending]
  cases verdict with
  | success =>
      exact follows_settled (h := { h with pending := rest, format := some (.ok ()) }) hbuilds hslot
        (.success ()) _
  | failed e =>
      exact follows_settled (h := { h with pending := rest, format := some (.error e) }) hbuilds hslot
        (.failed e) _
  | panicked text =>
      exact follows_settled (h := { h with pending := rest }) hbuilds hslot (.panicked text) _

/-- The topmost call's build ends, for a level. -/
theorem follows_answerBuild {succeeded : BuildTarget → Prop} (hconsistent : h.Consistent succeeded)
    (hstacked : h.Stacked) {level : Int32} {rest : List Pending}
    (hpending : h.pending = ⟨.digested level, .building⟩ :: rest) (verdict : Verdict A) :
    Follows nests h.core h.thread (h.answerBuild verdict).1 := by
  have hbuilds := hstacked.onlyBuilds_rest hpending
  have hslot := hasSlot_of_pending hconsistent hpending
  have hnone : (h.slotAt (.level level)).built = none := by
    refine hconsistent.unbuilt _ ?_
    rw [underway, hpending]
    exact List.mem_cons_self
  rw [thread, hpending, answerBuild, hpending]
  refine follows_finish (h := { h with pending := rest }) rfl hbuilds hslot hnone (verdict.map .inl) ?_
  cases verdict with
  | success value =>
      refine ⟨rfl, ?_⟩
      have hcore := core_filled (h := { h with pending := rest, nextStamp := h.nextStamp + 1 })
        (hslot level rfl) value h.nextStamp
      exact congrArg (fun c => c.apply (.count .digestBuilt)) hcore
  | failed e => rfl
  | panicked text => rfl

/-- The topmost call's build ends, for the decoder. -/
theorem follows_answerDecoder {succeeded : BuildTarget → Prop} (hconsistent : h.Consistent succeeded)
    (hstacked : h.Stacked) {rest : List Pending} (hpending : h.pending = ⟨.decoder, .building⟩ :: rest)
    (verdict : Verdict D) : Follows nests h.core h.thread (h.answerDecoder verdict).1 := by
  have hbuilds := hstacked.onlyBuilds_rest hpending
  have hslot := hasSlot_of_pending hconsistent hpending
  have hnone : (h.slotAt .decoder).built = none := by
    refine hconsistent.unbuilt _ ?_
    rw [underway, hpending]
    exact List.mem_cons_self
  rw [thread, hpending, answerDecoder, hpending]
  refine follows_finish (h := { h with pending := rest }) rfl hbuilds hslot hnone (verdict.map .inr) ?_
  cases verdict with
  | success value =>
      refine ⟨rfl, ?_⟩
      have hcore := core_filledDecoder (h := { h with pending := rest, nextStamp := h.nextStamp + 1 })
        value h.nextStamp
      exact congrArg (fun c => c.apply (.count .decoderBuilt)) hcore
  | failed e => rfl
  | panicked text => rfl

/-- A build calls the handle back. -/
theorem follows_callBack {succeeded : BuildTarget → Prop} (hconsistent : h.Consistent succeeded)
    (hstacked : h.Stacked) {p : Pending} {rest : List Pending} (hpending : h.pending = p :: rest)
    (hstage : p.stage = .building) {target : BuildTarget} (htarget : p.request.target? = some target)
    {level : Int32} (hnests : nests target level = true)
    (hfree : (h.slotAt (.level level)).building = false) :
    Follows nests h.core h.thread (h.call (.digested level)).1 := by
  obtain ⟨hp, hrest⟩ := hstacked p rest hpending
  have hbuilds : h.OnlyBuilds := by
    rw [OnlyBuilds, hpending]
    exact List.forall_mem_cons.mpr ⟨⟨hstage, hp hstage⟩, hrest⟩
  have hunderway : h.underway = target :: rest.filterMap (·.request.target?) := by
    rw [underway, hpending]
    exact List.filterMap_cons_some htarget
  have hcalls : Leads nests h.core h.thread h.core ⟨.entering (.slot level), h.underway⟩ := by
    rw [hbuilds.thread_eq, hunderway]
    exact .step (.callBack level) .nothing (.calls target level) fun _ _ _ _ => if_pos hnests
  exact .of_leads hcalls (follows_digested hconsistent hbuilds hfree)

/-- **One thread can follow every input of a handle** that comes in order. -/
theorem follows_step {succeeded : BuildTarget → Prop} (hconsistent : h.Consistent succeeded)
    (hstacked : h.Stacked) {input : Input A D} (horderly : h.Orderly nests input) :
    Follows nests h.core h.thread (h.step input) := by
  cases input with
  | call request =>
      rcases horderly with hidle | ⟨p, rest, target, level, hpending, hstage, htarget, rfl, hnests, hfree⟩
      · exact follows_call hconsistent hidle request
      · exact follows_callBack hconsistent hstacked hpending hstage htarget hnests hfree
  | checked verdict =>
      obtain ⟨request, rest, hpending⟩ := horderly
      exact follows_checked hconsistent hstacked hpending verdict
  | built verdict =>
      obtain ⟨level, rest, hpending⟩ := horderly
      exact follows_answerBuild hconsistent hstacked hpending verdict
  | builtDecoder verdict =>
      obtain ⟨rest, hpending⟩ := horderly
      exact follows_answerDecoder hconsistent hstacked hpending verdict
  | prefixTaken => exact follows_takePrefix horderly

end Follows

/-! ### Every run -/

/-- Every input comes where a thread can make it. -/
def OrderlyRun (nests : BuildTarget → Int32 → Bool) (h : Handle A D) (inputs : List (Input A D)) : Prop :=
  ∀ before input after, inputs = before ++ input :: after → (h.run before).Orderly nests input

theorem OrderlyRun.init {nests : BuildTarget → Int32 → Bool} {h : Handle A D} {inputs : List (Input A D)}
    {input : Input A D} (hrun : h.OrderlyRun nests (inputs ++ [input])) : h.OrderlyRun nests inputs := by
  intro before next after hsplit
  refine hrun before next (after ++ [input]) ?_
  rw [hsplit, List.append_assoc, List.cons_append]

/-- Threads that were given a handle find it as it is new. -/
theorem core_initial (content : ByteArray) (isRaw : Bool) :
    (Threads.initial content isRaw : Threads Unit (A ⊕ D)).core = (new content isRaw : Handle A D).core := by
  have hbuilt : (fun target => ((new content isRaw : Handle A D).slotAt target).built) = fun _ => none := by
    funext target
    cases target <;> rfl
  rw [core, hbuilt]
  rfl

section Run

variable {nests : BuildTarget → Int32 → Bool} {content : ByteArray} {isRaw : Bool} {inputs : List (Input A D)}

theorem follows_run (hrun : (new content isRaw : Handle A D).OrderlyRun nests inputs) :
    Follows nests (new content isRaw : Handle A D).core ⟨.idle, []⟩ ((new content isRaw).run inputs) := by
  induction inputs using List.reverseRecOn with
  | nil => exact ⟨fun p rest hpending => (by cases hpending), .refl _ _⟩
  | append_singleton inputs input ih =>
      have hbefore := ih hrun.init
      rw [run_concat]
      exact .of_leads hbefore.leads (follows_step (consistent_run content isRaw inputs) hbefore.stacked
        (hrun inputs input [] rfl))

/-- **A run of a new handle is a run of one thread.** -/
theorem exists_sole_run (hrun : (new content isRaw : Handle A D).OrderlyRun nests inputs) :
    ∃ events, ((Threads.initial content isRaw : Threads Unit (A ⊕ D)).run nests events).core
        = ((new content isRaw).run inputs).core
      ∧ ((Threads.initial content isRaw : Threads Unit (A ⊕ D)).run nests events).thread ()
        = ((new content isRaw).run inputs).thread :=
  (follows_run hrun).leads _ (Threads.owned_initial content isRaw) (Threads.books_initial content isRaw)
    (core_initial content isRaw) rfl

/-! ### What is shown -/

/-- What a handle shows on a call that needs no engine. -/
def shownTo (h : Handle A D) : HandleCall → Option (Answer (A ⊕ D))
  | .state level => some (.state level (h.digestState level))
  | .levels => some (.levels h.cachedLevels)
  | .telemetry => some (.snapshot h.snapshot)
  | _ => none

/-- While nothing is pending, no level is being built. -/
theorem digestState_of_idle {h : Handle A D} {succeeded : BuildTarget → Prop}
    (hconsistent : h.Consistent succeeded) (hidle : h.pending = []) (level : Int32) :
    h.digestState level
      = if h.core.listed level && h.core.isCached level then .cached else .absent := by
  have hfree : (h.slotAt (.level level)).building = false := by
    rw [← Bool.not_eq_true, hconsistent.building, underway, hidle]
    exact List.not_mem_nil
  have hlisted : h.core.listed level = (h.slot? level).isSome := rfl
  have hcached : h.core.isCached level = (h.slotAt (.level level)).built.isSome := rfl
  rw [hlisted, hcached, digestState_eq, Slot.state, hfree]
  rcases hslot : h.slot? level with _ | slot
  · rw [slotAt, slotOf, hslot]
    rfl
  · rw [Option.isSome_some, Bool.true_and]
    rfl

/-- **What one thread is shown** is what a handle shows while nothing is pending. -/
theorem exists_shown (hrun : (new content isRaw : Handle A D).OrderlyRun nests inputs)
    (hidle : ((new content isRaw).run inputs).pending = []) {call : HandleCall} {answer : Answer (A ⊕ D)}
    (hshown : ((new content isRaw).run inputs).shownTo call = some answer) :
    ∃ events, ((Threads.initial content isRaw : Threads Unit (A ⊕ D)).run nests events).core
        = ((new content isRaw).run inputs).core
      ∧ ((Threads.initial content isRaw : Threads Unit (A ⊕ D)).run nests events).answers.head?
        = some ((), answer) := by
  have hconsistent := consistent_run content isRaw inputs
  have hdistinct := (continues_run (new content isRaw) inputs).distinct List.nodup_nil
  have hleads := (follows_run hrun).leads
  generalize (new content isRaw).run inputs = h at *
  have hthread : h.thread = ⟨.idle, []⟩ := by rw [thread, hidle]
  have hmem : ∀ level, level ∈ h.cachedLevels ↔ h.core.isCached level = true := by
    intro level
    rw [mem_cachedLevels_iff hdistinct, ← Slot.isSome_built_map]
    rfl
  have hanswers : Answers nests h.core ⟨.idle, []⟩ answer := by
    cases call with
    | request | asPrefix => cases hshown
    | state level =>
        cases hshown
        rw [digestState_of_idle hconsistent hidle]
        exact answers_state h.core level
    | levels =>
        cases hshown
        exact answers_levels (pairwise_cachedLevels hdistinct) hmem
    | telemetry =>
        cases hshown
        exact answers_telemetry (pairwise_cachedLevels hdistinct) hmem
  rw [hthread] at hleads
  exact (hleads.reaches hanswers) _ (Threads.owned_initial content isRaw)
    (Threads.books_initial content isRaw) (core_initial content isRaw) rfl

end Run

end Handle

end SharedDictionary
