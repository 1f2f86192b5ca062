import SharedDictionary.Proofs.Handle.Snapshots

/-!
# Ways of one thread

A thread that has a handle to itself is never kept waiting.  So each part of a call leads from one place to
the next (`Leads`), whatever was done before: what the thread finds is what is shared, owners apart (`Core`).
Calls that need no engine lead to their answer (`Answers`).
-/

namespace SharedDictionary

variable {τ α : Type}

/-! ### What is shared, owners apart -/

/-- What threads share, apart from who holds what. -/
structure Core (α : Type) where
  content : ByteArray
  isRaw : Bool
  listed : Int32 → Bool
  built : BuildTarget → Option (Built α)
  format : Option (Except DictError Unit)
  counters : Counters
  nextStamp : Nat

/-- What a step changes of what is shared, owners apart. -/
def Core.apply (c : Core α) : Effect α → Core α
  | .insert level => { c with listed := fun other => decide (other = level) || c.listed other }
  | .settle (.success ()) => { c with format := some (.ok ()) }
  | .settle (.failed e) => { c with format := some (.error e) }
  | .stamp => { c with nextStamp := c.nextStamp + 1 }
  | .publish target artifact =>
    { c with built := fun other => if other = target then some artifact else c.built other }
  | .count event => { c with counters := c.counters.record event }
  | _ => c

/-- What threads share, owners apart. -/
def Threads.core (s : Threads τ α) : Core α :=
  ⟨s.content, s.isRaw, fun level => decide (level ∈ s.keys), s.built, s.format, s.counters, s.nextStamp⟩

theorem Threads.core_apply (s : Threads τ α) (thread : τ) (effect : Effect α) :
    (s.apply thread effect).core = s.core.apply effect := by
  cases effect with
  | insert level =>
      have hlisted : (fun other => decide (other ∈ (s.apply thread (.insert level)).keys))
          = fun other => decide (other = level) || decide (other ∈ s.keys) := by
        funext other
        rw [Bool.eq_iff_iff, decide_eq_true_iff, keys_apply, Bool.or_eq_true, decide_eq_true_iff,
          decide_eq_true_iff, or_comm, Effect.insert.injEq, eq_comm]
      exact congrArg (fun listed => { s.core with listed }) hlisted
  | settle verdict => cases verdict <;> rfl
  | _ => rfl

/-! ### Ways of one thread -/

/-- One thread, which has a handle to itself, can bring something about. -/
def Reaches (nests : BuildTarget → Int32 → Bool) (c : Core α) (x : Thread α) (P : Threads Unit α → Prop) :
    Prop :=
  ∀ s : Threads Unit α, s.Owned → s.Books → s.core = c → s.thread () = x → ∃ events, P (s.run nests events)

/-- It gets from one place to another. -/
def Leads (nests : BuildTarget → Int32 → Bool) (c : Core α) (x : Thread α) (c' : Core α) (x' : Thread α) :
    Prop :=
  Reaches nests c x fun s => s.core = c' ∧ s.thread () = x'

/-- It gets an answer, and changes nothing. -/
def Answers (nests : BuildTarget → Int32 → Bool) (c : Core α) (x : Thread α) (answer : Answer α) : Prop :=
  Reaches nests c x fun s => s.core = c ∧ s.answers.head? = some ((), answer)

/-- Where a thread is after a call: idle, or back at the build that has made it. -/
def Thread.back : List BuildTarget → Thread α
  | [] => ⟨.idle, []⟩
  | target :: pending => ⟨.building target, pending⟩

theorem Thread.follow_returns (x : Thread α) (answer : Answer α) :
    x.follow (.returns answer) = .back x.pending := by
  rw [follow]
  cases x.pending <;> rfl

/-- A resource that the only thread does not hold is free. -/
theorem Threads.Owned.owner_eq_none {s : Threads Unit α} (hs : s.Owned) {resource : Resource}
    (h : resource ∉ (s.thread ()).held) : s.owner resource = none := by
  cases howner : s.owner resource with
  | none => rfl
  | some thread => exact absurd ((hs.mem_held thread resource).mpr howner) h

section Leads

variable {nests : BuildTarget → Int32 → Bool} {c c' c'' : Core α} {x x' x'' : Thread α}

theorem Leads.refl (c : Core α) (x : Thread α) : Leads nests c x c x :=
  fun _ _ _ hcore hthread => ⟨[], hcore, hthread⟩

theorem Leads.reaches {P : Threads Unit α → Prop} (h : Leads nests c x c' x') (h' : Reaches nests c' x' P) :
    Reaches nests c x P := by
  intro s hs hbooks hcore hthread
  obtain ⟨events, hcore', hthread'⟩ := h s hs hbooks hcore hthread
  obtain ⟨events', hend⟩ := h' _ (hs.run nests events) (hbooks.run hs nests events) hcore' hthread'
  refine ⟨events ++ events', ?_⟩
  rwa [Threads.run, List.foldl_append]

theorem Leads.trans (h : Leads nests c x c' x') (h' : Leads nests c' x' c'' x'') :
    Leads nests c x c'' x'' :=
  h.reaches h'

/-- The thread takes a step, which may depend on what it finds, and goes on. -/
theorem Reaches.of_step {P : Threads Unit α → Prop} (event : ThreadEvent α) (effect : Effect α)
    (next : Threads Unit α → Next α)
    (hplan : ∀ s : Threads Unit α, s.Owned → s.core = c → s.thread () = x →
      s.plan? nests x.station event = some (effect, next s))
    (hrest : ∀ s : Threads Unit α, s.Books → s.core = c →
      Reaches nests (c.apply effect) (x.follow (next s)) P) : Reaches nests c x P := by
  intro s hs hbooks hcore hthread
  have hstep : s.step nests () event = (s.apply () effect).move () (next s) := by
    rw [Threads.step, hthread, hplan s hs hcore hthread]
  have hcore' : (s.step nests () event).core = c.apply effect := by
    rw [hstep, ← hcore, ← s.core_apply ()]
    rfl
  have hthread' : (s.step nests () event).thread () = x.follow (next s) := by
    rw [hstep, Threads.thread_move, Threads.thread_apply, if_pos rfl, hthread]
  obtain ⟨events, hend⟩ := hrest s hbooks hcore _ (hs.step nests () event) (hbooks.step hs nests () event)
    hcore' hthread'
  exact ⟨((), event) :: events, hend⟩

/-- The thread takes one step. -/
theorem Leads.step (event : ThreadEvent α) (effect : Effect α) (next : Next α)
    (hplan : ∀ s : Threads Unit α, s.Owned → s.core = c → s.thread () = x →
      s.plan? nests x.station event = some (effect, next)) :
    Leads nests c x (c.apply effect) (x.follow next) :=
  Reaches.of_step event effect (fun _ => next) hplan fun _ _ _ => Leads.refl _ _

/-- The thread returns from a call, to a build if there is one that has made it. -/
theorem Leads.returns (effect : Effect α) (answer : Answer α)
    (hplan : ∀ s : Threads Unit α, s.Owned → s.core = c → s.thread () = x →
      s.plan? nests x.station .advance = some (effect, .returns answer)) :
    Leads nests c x (c.apply effect) (.back x.pending) := by
  rw [← x.follow_returns answer]
  exact .step .advance effect (.returns answer) hplan

/-- The thread returns from a call of its own. -/
theorem Answers.step (effect : Effect α) {answer : Answer α} (hpending : x.pending = [])
    (hsame : c.apply effect = c)
    (hplan : ∀ s : Threads Unit α, s.core = c → s.advance? x.station = some (effect, .returns answer)) :
    Answers nests c x answer := by
  intro s _ _ hcore hthread
  have hplanned : s.plan? nests x.station .advance = some (effect, .returns answer) := by
    rw [← hplan s hcore]
    cases x.station <;> rfl
  have hstep : s.step nests () .advance = (s.apply () effect).move () (.returns answer) := by
    rw [Threads.step, hthread, hplanned]
  refine ⟨[((), .advance)], ?_, ?_⟩
  · show (s.step nests () .advance).core = c
    rw [hstep, ← hsame, ← hcore, ← s.core_apply ()]
    rfl
  · show (s.step nests () .advance).answers.head? = _
    rw [hstep]
    show ((s.apply () effect).answered () (.returns answer)).head? = _
    rw [Threads.answered, Threads.thread_apply, hthread, hpending]
    rfl

/-- The thread takes what it does not hold. -/
theorem Leads.take (resource : Resource) (station : Station α) (hfree : resource ∉ x.held)
    (hplan : ∀ s : Threads Unit α, s.core = c →
      s.plan? nests x.station .advance = s.taking? resource station) :
    Leads nests c x c ⟨station, x.pending⟩ :=
  .step .advance (.take resource) (.goes station) fun s hs hcore hthread => by
    rw [hplan s hcore, Threads.taking?_of_free (hs.owner_eq_none (hthread ▸ hfree))]

end Leads

/-! ### Parts of a call -/

section Parts

variable {nests : BuildTarget → Int32 → Bool} {c : Core α} {pending : List BuildTarget}

/-- What a request comes to is counted. -/
def Core.counted (c : Core α) (target : BuildTarget) (outcome : Outcome α) : Core α :=
  c.apply (((outcome.countsFor target).map .count).getD .nothing)

theorem leads_counting (c : Core α) (target : BuildTarget) (outcome : Outcome α) :
    Leads nests c ⟨.counting target outcome, pending⟩ (c.counted target outcome) (.back pending) :=
  .returns _ (.artifact target outcome) fun _ _ _ _ => rfl

theorem leads_releasing (c : Core α) (target : BuildTarget) (outcome : Outcome α) :
    Leads nests c ⟨.releasing target outcome, pending⟩ (c.counted target outcome) (.back pending) :=
  .trans (.step .advance (.free (.lock target)) (.goes (.counting target outcome)) fun _ _ _ _ => rfl)
    (leads_counting c target outcome)

/-- A slot that is filled is read at once. -/
theorem leads_found {target : BuildTarget} {artifact : Built α} (hbuilt : c.built target = some artifact) :
    Leads nests c ⟨.reading target, pending⟩ (c.counted target (.returned artifact false))
      (.back pending) := by
  refine .trans (.step .advance .nothing (.goes (.counting target (.returned artifact false))) ?_)
    (leads_counting c target (.returned artifact false))
  rintro s - rfl -
  show s.advance? (.reading target) = _
  rw [Threads.advance?, show s.built target = some artifact from hbuilt]

/-- An empty slot is taken. -/
theorem leads_vacant {target : BuildTarget} (hbuilt : c.built target = none) (hfree : target ∉ pending) :
    Leads nests c ⟨.reading target, pending⟩ c ⟨.ensuring (some target), pending⟩ := by
  have hlock : (.lock target : Resource) ∉ (⟨.waiting target, pending⟩ : Thread α).held := by
    intro hheld
    obtain ⟨_, hmem, hsame⟩ := List.mem_map.mp hheld
    cases hsame
    exact hfree hmem
  refine .trans (.step .advance .nothing (.goes (.waiting target)) ?_)
    (.trans (.take (.lock target) (.rereading target) hlock fun _ _ => rfl)
      (.step .advance .nothing (.goes (.ensuring (some target))) ?_))
  · rintro s - rfl -
    show s.advance? (.reading target) = _
    rw [Threads.advance?, show s.built target = none from hbuilt]
  · rintro s - rfl -
    show s.advance? (.rereading target) = _
    rw [Threads.advance?, show s.built target = none from hbuilt]

/-- The slot of a level is found or inserted. -/
theorem leads_slot (c : Core α) (level : Int32) :
    Leads nests c ⟨.entering (.slot level), pending⟩ (c.apply (.insert level))
      ⟨.reading (.level level), pending⟩ := by
  have hmap : (.map : Resource) ∉ (⟨.entering (.slot level), pending⟩ : Thread α).held := by
    intro hheld
    obtain ⟨_, -, hsame⟩ := List.mem_map.mp hheld
    cases hsame
  exact .trans (.take .map (.inside (.slot level)) hmap fun _ _ => rfl)
    (.step .advance (.insert level) (.goes (.reading (.level level))) fun _ _ _ _ => rfl)

/-- A build ends with an artifact, which is published and counted. -/
theorem leads_built {target : BuildTarget} (hbuilt : c.built target = none) (value : α) :
    Leads nests c ⟨.building target, pending⟩
      (((c.apply .stamp).apply (.publish target ⟨value, c.nextStamp⟩)).counted target
        (.returned ⟨value, c.nextStamp⟩ true)) (.back pending) := by
  refine .trans (.step (.finish (.success value)) .stamp
    (.goes (.publishing target ⟨value, c.nextStamp⟩)) ?_) (.trans (.step .advance
    (.publish target ⟨value, c.nextStamp⟩)
    (.goes (.releasing target (.returned ⟨value, c.nextStamp⟩ true))) ?_) (leads_releasing _ _ _))
  · rintro s - rfl -
    rfl
  · rintro s - hcore -
    have hempty : s.built target = none := (congrArg (fun c => c.built target) hcore).trans hbuilt
    show s.advance? (.publishing target ⟨value, c.nextStamp⟩) = _
    rw [Threads.advance?, hempty]
    rfl

/-! ### What is shown -/

/-- The errand of a thread, with the lock of the map. -/
theorem leads_inside (c : Core α) (errand : Errand) :
    Leads nests c ⟨.entering errand, pending⟩ c ⟨.inside errand, pending⟩ := by
  refine .take .map (.inside errand) (fun hheld => ?_) fun _ _ => rfl
  obtain ⟨_, -, hsame⟩ := List.mem_map.mp hheld
  cases hsame

/-- A level is cached. -/
def Core.isCached (c : Core α) (level : Int32) : Bool := (c.built (.level level)).isSome

/-- The slots that are left are looked at. -/
theorem leads_surveyed (c : Core α) (counters : Bool) (left found : List Int32) :
    Leads nests c ⟨.surveying counters left found, pending⟩ c
      ⟨.surveying counters [] ((left.filter c.isCached).reverse ++ found), pending⟩ := by
  -- Slots are visited in the order of the list, so what is found comes out reversed.
  induction left generalizing found with
  | nil => exact .refl _ _
  | cons level left ih =>
      have hfound : (left.filter c.isCached).reverse ++ (if c.isCached level then level :: found else found)
          = ((level :: left).filter c.isCached).reverse ++ found := by
        rw [List.filter_cons]
        split
        · rw [List.reverse_cons, List.append_assoc, List.singleton_append]
        · rfl
      rw [← hfound]
      refine .trans (.step (.visit level) .nothing (.goes (.surveying counters left
        (if c.isCached level then level :: found else found))) ?_) (ih _)
      rintro s - rfl -
      rw [Threads.plan?, if_pos List.mem_cons_self, List.erase_cons_head]
      rfl

/-- The levels that are cached, in order, are what is found in the slots. -/
theorem Threads.Books.mergeSort_eq {s : Threads τ α} (hs : s.Books) {levels : List Int32}
    (hascending : levels.Pairwise (· < ·)) (hmem : ∀ level, level ∈ levels ↔ s.isCached level = true) :
    (((s.keys.filter s.isCached).reverse ++ []).mergeSort fun a b => decide (a ≤ b)) = levels := by
  have hcached : ∀ level, level ∈ (s.keys.filter s.isCached).reverse ++ [] ↔ s.isCached level = true := by
    intro level
    rw [List.append_nil, List.mem_reverse]
    exact hs.mem_cached
  have hsighted : Sighted s s ((s.keys.filter s.isCached).reverse ++ []) [] := by
    refine ⟨?_, fun level hlevel => (hcached level).mp hlevel, fun level hlevel => ?_⟩
    · rw [List.append_nil, List.append_nil]
      exact List.nodup_reverse.mpr (hs.nodup.filter _)
    · rw [List.append_nil]
      exact (hcached level).mpr hlevel
  refine List.Pairwise.eq_of_mem_iff hsighted.sorted.1 hascending fun level => ?_
  rw [List.mem_mergeSort, hcached, hmem]

/-- The levels that are cached are found. -/
theorem reaches_listed {levels : List Int32} (hascending : levels.Pairwise (· < ·))
    (hmem : ∀ level, level ∈ levels ↔ c.isCached level = true) {counters : Bool} {P : Threads Unit α → Prop}
    (hlast : ∀ found : List Int32, (found.mergeSort fun a b => decide (a ≤ b)) = levels →
      Reaches nests c ⟨.surveying counters [] found, pending⟩ P) :
    Reaches nests c ⟨.entering (.list counters), pending⟩ P := by
  refine (leads_inside c (.list counters)).reaches (.of_step .advance .nothing
    (fun s => .goes (.surveying counters s.keys [])) (fun _ _ _ _ => rfl) fun s hbooks hcore => ?_)
  refine (leads_surveyed c counters s.keys []).reaches (hlast _ ?_)
  subst hcore
  exact hbooks.mergeSort_eq hascending hmem

/-- The counters that are left are read. -/
theorem leads_copied (c : Core α) (levels : List Int32) (seen : Counters) (left : List CounterEvent) :
    Leads nests c ⟨.copying levels seen left, pending⟩ c
      ⟨.copying levels (left.foldl (fun seen event => seen.load c.counters event) seen) [], pending⟩ := by
  induction left generalizing seen with
  | nil => exact .refl _ _
  | cons event left ih =>
      refine .trans (.step .advance .nothing (.goes (.copying levels (seen.load c.counters event) left)) ?_)
        (ih _)
      rintro s - rfl -
      rfl

/-- All counters are read. -/
theorem Counters.foldl_load (c : Counters) :
    CounterEvent.all.foldl (fun seen event => seen.load c event) .zero = c := by
  cases c
  rfl

/-- The levels that are cached are shown. -/
theorem answers_levels {levels : List Int32} (hascending : levels.Pairwise (· < ·))
    (hmem : ∀ level, level ∈ levels ↔ c.isCached level = true) :
    Answers nests c ⟨.idle, []⟩ (.levels levels) := by
  have hasks : Leads nests c ⟨.idle, []⟩ c ⟨.entering (.list false), []⟩ :=
    .step (.ask .levels) .nothing (.goes (.entering (.list false))) fun _ _ _ _ => rfl
  refine hasks.reaches (reaches_listed hascending hmem fun found hfound => ?_)
  refine Answers.step (.free .map) rfl rfl fun s _ => ?_
  rw [Threads.advance?, hfound]
  rfl

/-- A snapshot shows the levels that are cached, and the counters. -/
theorem answers_telemetry {levels : List Int32} (hascending : levels.Pairwise (· < ·))
    (hmem : ∀ level, level ∈ levels ↔ c.isCached level = true) :
    Answers nests c ⟨.idle, []⟩ (.snapshot ⟨UInt32.ofNat (Dictionary.readId c.content),
      UInt64.ofNat c.content.size, c.isRaw, levels, c.counters⟩) := by
  have hasks : Leads nests c ⟨.idle, []⟩ c ⟨.entering (.list true), []⟩ :=
    .step (.ask .telemetry) .nothing (.goes (.entering (.list true))) fun _ _ _ _ => rfl
  refine hasks.reaches (reaches_listed hascending hmem fun found hfound => ?_)
  have hlists : Leads nests c ⟨.surveying true [] found, []⟩ c
      ⟨.copying levels .zero CounterEvent.all, []⟩ := by
    refine .step .advance (.free .map) (.goes (.copying levels .zero CounterEvent.all)) fun s _ _ _ => ?_
    show s.advance? (.surveying true [] found) = _
    rw [Threads.advance?, hfound]
    rfl
  have hcopied : Leads nests c ⟨.copying levels .zero CounterEvent.all, []⟩ c
      ⟨.copying levels c.counters [], []⟩ := by
    rw [← c.counters.foldl_load]
    exact leads_copied c levels .zero CounterEvent.all
  refine hlists.reaches (hcopied.reaches (Answers.step .nothing rfl rfl ?_))
  rintro s rfl
  rfl

/-- How far a level has come is shown.  Nobody else can be building it. -/
theorem answers_state (c : Core α) (level : Int32) :
    Answers nests c ⟨.idle, []⟩
      (.state level (if c.listed level && c.isCached level then .cached else .absent)) := by
  have hlooks : Leads nests c ⟨.idle, []⟩ c ⟨.inside (.look level), []⟩ :=
    .trans (.step (.ask (.state level)) .nothing (.goes (.entering (.look level))) fun _ _ _ _ => rfl)
      (leads_inside c (.look level))
  cases hlisted : c.listed level with
  | false =>
      refine hlooks.reaches (Answers.step (.free .map) rfl rfl ?_)
      rintro s rfl
      rw [Threads.advance?, if_neg (of_decide_eq_false hlisted)]
      rfl
  | true =>
      have hglances : Leads nests c ⟨.idle, []⟩ c ⟨.glancing level, []⟩ := by
        refine hlooks.trans (.step .advance (.free .map) (.goes (.glancing level)) ?_)
        rintro s - rfl -
        show s.advance? (.inside (.look level)) = _
        rw [Threads.advance?, if_pos (of_decide_eq_true hlisted)]
      cases hcached : c.isCached level with
      | true =>
          refine hglances.reaches (Answers.step .nothing rfl rfl ?_)
          rintro s rfl
          have hfound : s.isCached level = true := hcached
          rw [Threads.advance?, if_pos hfound]
          rfl
      | false =>
          have hmissed : ∀ s : Threads Unit α, s.core = c → ¬s.isCached level = true := by
            rintro s rfl
            exact (Bool.not_eq_true _).mpr hcached
          have htries : Leads nests c ⟨.idle, []⟩ c ⟨.trying level, []⟩ := by
            refine hglances.trans (.step .advance .nothing (.goes (.trying level)) fun s _ hcore _ => ?_)
            show s.advance? (.glancing level) = _
            rw [Threads.advance?, if_neg (hmissed s hcore)]
          -- The lock is free, because the only thread there is does not hold it.
          have hpeeks : Leads nests c ⟨.idle, []⟩ c ⟨.peeking level, []⟩ := by
            refine htries.trans (.step .advance (.take (.lock (.level level))) (.goes (.peeking level)) ?_)
            intro s hs _ hthread
            have hfree : s.owner (.lock (.level level)) = none :=
              hs.owner_eq_none (by rw [hthread]; exact List.not_mem_nil)
            show s.advance? (.trying level) = _
            rw [Threads.advance?, Threads.taking?_of_free hfree]
            rfl
          have hwithdraws : Leads nests c ⟨.idle, []⟩ c ⟨.withdrawing level .absent, []⟩ := by
            refine hpeeks.trans (.step .advance .nothing (.goes (.withdrawing level .absent)) ?_)
            intro s _ hcore _
            show s.advance? (.peeking level) = _
            rw [Threads.advance?, if_neg (hmissed s hcore)]
          exact hwithdraws.reaches (Answers.step (.free (.lock (.level level))) rfl rfl fun _ _ => rfl)

end Parts

end SharedDictionary
