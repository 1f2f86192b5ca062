import SharedDictionary.Proofs.Handle.Prospects
import SharedDictionary.Proofs.Handle.Runs

/-!
# Digests asked for one after the other

The engine of a handle always does the same.  A request for a digest then comes to what was to be expected
(`Engine.Keeps.serve`), and so do requests for the digests of several levels, one after the other
(`Engine.Keeps.serveAll`).
-/

namespace SharedDictionary

variable {σ A D : Type}

namespace Handle

/-- Nothing is being built. -/
def AtRest (h : Handle A D) : Prop := ∀ level, (h.slotOf level).building = false

/-- A handle that is about to build for a level, or to be refused: the slot is taken, and the format known. -/
def readied (h : Handle A D) (habit : Habit A) (level : Int32) : Handle A D :=
  { h.setSlot level ⟨none, true⟩ with
    format := some (h.format.getD habit.check)
    counters := if h.format.isNone then h.counters.record .formatCheck else h.counters }

/-- What has become of the slots: all are as they were, but that of a level, where nothing is being built. -/
theorem slotOf_of_readied {h h' : Handle A D} {habit : Habit A} {level : Int32} {slot : Slot A}
    (hslots : h'.slots = ((h.readied habit level).setSlot level slot).slots) (other : Int32) :
    h'.slotOf other = if other = level then slot else h.slotOf other := by
  have hsame : h'.slotOf other = ((h.readied habit level).setSlot level slot).slotOf other := by
    rw [slotOf, slot?, hslots]
    rfl
  rw [hsame, slotOf_setSlot]
  split
  · rfl
  · rename_i hother
    exact (slotOf_setSlot h level other ⟨none, true⟩).trans (if_neg hother)

/-- A slot that was taken is given back. -/
theorem release_readied (h : Handle A D) (habit : Habit A) (level : Int32) :
    (h.readied habit level).release level = (h.readied habit level).setSlot level .vacant := by
  have hslot : (h.readied habit level).slot? level = some ⟨none, true⟩ :=
    (slot?_setSlot h level level _).trans (if_pos rfl)
  rw [release, hslot]
  rfl

/-- What is counted before a build. -/
theorem get_counters_readied (h : Handle A D) (habit : Habit A) (level : Int32) (e : CounterEvent) :
    (h.readied habit level).counters.get e
      = h.counters.get e + UInt64.ofNat (e == .formatCheck && h.format.isNone).toNat := by
  have hcounters : (h.readied habit level).counters
      = if h.format.isNone then h.counters.record .formatCheck else h.counters := rfl
  rw [hcounters]
  cases h.format.isNone with
  | true =>
      rw [if_pos rfl, Counters.get_record]
      cases e <;> first | rfl | exact (UInt64.add_zero _).symm
  | false =>
      rw [if_neg Bool.false_ne_true, Bool.and_false]
      exact (UInt64.add_zero _).symm

/-- Requests for the digests of some levels have come to what was to be expected, and nothing is being built
after them. -/
structure Serves (h : Handle A D) (habit : Habit A) (levels : List Int32)
    (outcomes : List (Except DictError Unit)) (h' : Handle A D) : Prop where
  outcomes : outcomes = levels.map fun level => (h.prospect habit level).joined
  atRest : h'.AtRest
  prewarmed : h.Prewarmed habit levels h'.format h'.counters fun level => (h'.slotOf level).built

/-- What a request comes to that does not find the digest. -/
theorem serves_of_readied {h h' : Handle A D} {habit : Habit A} {level : Int32} {slot : Slot A}
    {p : Prospect} (hrest : h.AtRest) (hvacant : (h.slotOf level).built = none)
    (hprospect : h.prospect habit level = p)
    (hslots : h'.slots = ((h.readied habit level).setSlot level slot).slots)
    (hslot : slot.building = false) (hbuilds : p = .builds → slot.built.isSome = true)
    (hbuilt : ∀ artifact, slot.built = some artifact → p = .builds
      ∧ (habit.fate level).permits (.success artifact.value) = true)
    (hformat : h'.format = (h.readied habit level).format)
    (hcounters : ∀ e, h'.counters.get e = (h.readied habit level).counters.get e
      + UInt64.ofNat (p.counts.elim 0 fun event => (event == e).toNat)) :
    h.Serves habit [level] [p.joined] h' where
  outcomes := by rw [List.map_singleton, hprospect]
  atRest other := by
    rw [slotOf_of_readied hslots]
    split
    · exact hslot
    · exact hrest other
  prewarmed := by
    subst hprospect
    have hself : (h'.slotOf level).built = slot.built := by
      rw [slotOf_of_readied hslots, if_pos rfl]
    have hmissing : (h.prospect habit level != .cached) = true :=
      bne_iff_ne.mpr (prospect_ne_cached hvacant)
    rw [hformat]
    refine prewarmed_of_vacant hvacant (fun e => ?_) (fun other hother => ?_) ?_ ?_
    · rw [hcounters, get_counters_readied, price, hmissing, Bool.and_true, UInt64.ofNat_add,
        UInt64.add_assoc]
    · rw [slotOf_of_readied hslots, if_neg hother]
    · rw [hself]
      exact hbuilds
    · rw [hself]
      exact hbuilt

/-- A request that fails gives the slot back. -/
theorem serves_fail {h : Handle A D} {habit : Habit A} {level : Int32} {e : DictError}
    (hrest : h.AtRest) (hvacant : (h.slotOf level).built = none)
    (hprospect : h.prospect habit level = .fails e) :
    h.Serves habit [level] [.error e] ((h.readied habit level).fail (.digested level) e).1 := by
  have hslots : ((h.readied habit level).fail (.digested level) e).1.slots
      = ((h.readied habit level).setSlot level .vacant).slots := by
    rw [← release_readied]
    rfl
  refine serves_of_readied hrest hvacant hprospect hslots rfl nofun nofun rfl fun event => ?_
  refine (Counters.get_record _ .digestFailure event).trans ?_
  cases event <;> first | rfl | exact (UInt64.add_zero _).symm

/-- So does a request that breaks off. -/
theorem serves_breakOff {h : Handle A D} {habit : Habit A} {level : Int32} {text : String}
    (hrest : h.AtRest) (hvacant : (h.slotOf level).built = none)
    (hprospect : h.prospect habit level = .panics) :
    h.Serves habit [level] [.error (.state "prewarm worker panicked")]
      ((h.readied habit level).breakOff (.digested level) text).1 := by
  have hslots : ((h.readied habit level).breakOff (.digested level) text).1.slots
      = ((h.readied habit level).setSlot level .vacant).slots := by
    rw [← release_readied]
    rfl
  exact serves_of_readied hrest hvacant hprospect hslots rfl nofun nofun rfl
    fun event => (UInt64.add_zero _).symm

/-- What a request comes to whose build ends as it always does. -/
theorem serves_answerBuild {h : Handle A D} {habit : Habit A} {level : Int32} {verdict : Verdict A}
    (hrest : h.AtRest) (hvacant : (h.slotOf level).built = none)
    (hprospect : h.prospect habit level = verdict.prospect)
    (hfate : (habit.fate level).permits verdict = true) :
    h.Serves habit [level]
      [prewarmOutcome (((h.readied habit level).push ⟨.digested level, .building⟩).answerBuild
        verdict).2.reply]
      (((h.readied habit level).push ⟨.digested level, .building⟩).answerBuild verdict).1 := by
  cases verdict with
  | success value =>
      have hslots : (((h.readied habit level).push ⟨.digested level, .building⟩).answerBuild
          (.success value)).1.slots
          = ((h.readied habit level).setSlot level ⟨some ⟨value, h.nextStamp⟩, false⟩).slots := rfl
      refine serves_of_readied hrest hvacant hprospect hslots rfl (fun _ => rfl) ?_ rfl fun event => ?_
      · intro artifact hartifact
        cases hartifact
        exact ⟨rfl, hfate⟩
      · refine (Counters.get_record _ .digestBuilt event).trans ?_
        cases event <;> first | rfl | exact (UInt64.add_zero _).symm
  | failed e => exact serves_fail hrest hvacant hprospect
  | panicked text => exact serves_breakOff hrest hvacant hprospect

end Handle

variable {E : Engine σ A D} {habit : Habit A} {h : Handle A D} {level : Int32}

/-- A request that does not find the digest makes sure of the format first. -/
theorem Engine.Keeps.settleCheck_call (hkeeps : E.Keeps habit h.content h.isRaw)
    (hvacant : h.slotOf level = .vacant) (engine : σ) : ∃ engine',
    settleCheck E ⟨(h.call (.digested level)).1, engine⟩ (h.call (.digested level)).2
      = match h.format.getD habit.check with
        | .ok () => (⟨((h.readied habit level).pass (.digested level)).1, engine'⟩,
            ((h.readied habit level).pass (.digested level)).2)
        | .error e => (⟨((h.readied habit level).fail (.digested level) e).1, engine'⟩,
            ((h.readied habit level).fail (.digested level) e).2) := by
  rw [h.call_digested_of_vacant hvacant]
  obtain ⟨content, isRaw, format, slots, decoder, counters, events, pending, nextStamp⟩ := h
  cases format with
  | some result =>
      refine ⟨engine, ?_⟩
      rcases result with e | ⟨⟨⟩⟩ <;> rfl
  | none =>
      have hcheck := hkeeps.check engine
      rcases hverdict : E.check engine content isRaw with ⟨verdict, engine'⟩
      rw [hverdict] at hcheck
      cases hcheck
      refine ⟨engine', ?_⟩
      rcases hresult : habit.check with e | ⟨⟨⟩⟩ <;>
        simp only [Handle.ensureFormat, Handle.setSlot, Handle.count, Handle.push, settleCheck, hverdict,
          hresult, Handle.answerCheck, Handle.readied, Option.getD_none,
          Option.isNone_none, if_true]

/-- A digest that is there is handed out. -/
theorem serve_of_built (E : Engine σ A D) {artifact : Built A}
    (hbuilt : (h.slotOf level).built = some artifact) (depth : Nat) (engine : σ) :
    serve E (depth + 1) (.digested level) ⟨h, engine⟩
      = (.digested level artifact, ⟨(h.count .digestHit).report (.digestHit level), engine⟩) := by
  rw [serve, h.call_digested_of_built hbuilt]
  rfl

/-- A digest that is not there is refused if the format is. -/
theorem Engine.Keeps.serve_of_error (hkeeps : E.Keeps habit h.content h.isRaw)
    (hvacant : h.slotOf level = .vacant) {e : DictError}
    (hformat : h.format.getD habit.check = .error e) (depth : Nat) (engine : σ) :
    ∃ engine', serve E (depth + 1) (.digested level) ⟨h, engine⟩
      = (.failed e, ⟨((h.readied habit level).fail (.digested level) e).1, engine'⟩) := by
  obtain ⟨engine', hsettle⟩ := hkeeps.settleCheck_call hvacant engine
  rw [hformat] at hsettle
  refine ⟨engine', ?_⟩
  rw [serve]
  simp only [hsettle, Handle.fail]

/-- A digest that is not there is built as the engine always does. -/
theorem Engine.Keeps.serve_of_ok (hkeeps : E.Keeps habit h.content h.isRaw)
    (hvacant : h.slotOf level = .vacant) (hformat : h.format.getD habit.check = .ok ()) (depth : Nat)
    (engine : σ) :
    ∃ verdict engine', (habit.fate level).permits verdict = true
      ∧ serve E (depth + 1) (.digested level) ⟨h, engine⟩
        = ((((h.readied habit level).push ⟨.digested level, .building⟩).answerBuild verdict).2.reply,
          ⟨(((h.readied habit level).push ⟨.digested level, .building⟩).answerBuild verdict).1,
            engine'⟩) := by
  obtain ⟨checked, hsettle⟩ := hkeeps.settleCheck_call hvacant engine
  rw [hformat] at hsettle
  have hpass : (h.readied habit level).pass (.digested level)
      = ((h.readied habit level).push ⟨.digested level, .building⟩, .waiting) := rfl
  rw [hpass] at hsettle
  have hprepare := hkeeps.prepare checked ((h.readied habit level).push ⟨.digested level, .building⟩)
    (.level level)
  rcases hprepared : E.prepare checked ((h.readied habit level).push ⟨.digested level, .building⟩)
    (.level level) with ⟨requests, prepared⟩
  rw [hprepared] at hprepare
  cases hprepare
  have hfate := hkeeps.build prepared level
  rcases hbuild : E.build prepared h.content level with ⟨verdict, engine'⟩
  rw [hbuild] at hfate
  refine ⟨verdict, engine', hfate, ?_⟩
  have hcontent : ((h.readied habit level).push ⟨.digested level, .building⟩).content = h.content := rfl
  have hpending : ((h.readied habit level).push ⟨.digested level, .building⟩).pending
      = ⟨.digested level, .building⟩ :: h.pending := rfl
  rw [serve]
  simp only [hsettle, startBuild, hpending, hprepared, List.foldl_nil, settleBuild, hcontent, hbuild]

/-- **A request for a digest comes to what was to be expected.** -/
theorem Engine.Keeps.serve (hkeeps : E.Keeps habit h.content h.isRaw) (hrest : h.AtRest)
    (depth : Nat) (level : Int32) (engine : σ) :
    h.Serves habit [level]
      [prewarmOutcome (SharedDictionary.serve E (depth + 1) (.digested level) ⟨h, engine⟩).1]
      (SharedDictionary.serve E (depth + 1) (.digested level) ⟨h, engine⟩).2.handle := by
  cases hbuilt : (h.slotOf level).built with
  | some artifact =>
      have hcached : h.prospect habit level = .cached := Handle.prospect_of_built hbuilt
      rw [serve_of_built E hbuilt]
      exact ⟨by rw [List.map_singleton, hcached]; rfl, hrest, Handle.prewarmed_of_cached hcached rfl⟩
  | none =>
      have hvacant : h.slotOf level = .vacant := Slot.eq_vacant hbuilt (hrest level)
      rcases hformat : h.format.getD habit.check with e | ⟨⟨⟩⟩
      · obtain ⟨engine', hserve⟩ := hkeeps.serve_of_error hvacant hformat depth engine
        rw [hserve]
        exact Handle.serves_fail hrest hbuilt (Handle.prospect_of_error hbuilt hformat)
      · obtain ⟨verdict, engine', hfate, hserve⟩ := hkeeps.serve_of_ok hvacant hformat depth engine
        rw [hserve]
        refine Handle.serves_answerBuild hrest hbuilt ?_ hfate
        rw [Handle.prospect_of_ok hbuilt hformat, Fate.prospect_of_permits hfate]

/-- **So do requests for several, one after the other.** -/
theorem Engine.Keeps.serveAll (hkeeps : E.Keeps habit h.content h.isRaw) (hrest : h.AtRest) (depth : Nat)
    (levels : List Int32) (engine : σ) :
    h.Serves habit levels
      ((SharedDictionary.serveAll E (depth + 1) levels ⟨h, engine⟩).1.map prewarmOutcome)
      (SharedDictionary.serveAll E (depth + 1) levels ⟨h, engine⟩).2.handle := by
  induction levels generalizing h engine with
  | nil => exact ⟨rfl, hrest, h.prewarmed_nil habit⟩
  | cons level levels ih =>
      obtain ⟨hfirst, hrest', hwarm⟩ := hkeeps.serve hrest depth level engine
      have hcontinues := continues_serve E (depth + 1) (.digested level) ⟨h, engine⟩
      obtain ⟨hmore, hrest'', hwarm'⟩ := ih (hcontinues.content ▸ hcontinues.isRaw ▸ hkeeps) hrest'
        (SharedDictionary.serve E (depth + 1) (.digested level) ⟨h, engine⟩).2.engine
      refine ⟨?_, hrest'', hwarm.append hwarm'⟩
      have houtcomes := congrArg₂ (· ++ ·) hfirst hmore
      simp only [hwarm.prospect_congr (show Prospect.joined .cached = Prospect.joined .builds from rfl)]
        at houtcomes
      exact houtcomes

/-- The first failure of some requests is found in their order. -/
theorem foldl_prewarmOutcome (replies : List (Reply A D)) :
    replies.foldl (fun (outcome : Except DictError Unit) reply =>
      match outcome with
      | .ok () => prewarmOutcome reply
      | .error e => .error e) (.ok ())
      = Prewarming.firstFailure (replies.map prewarmOutcome) := by
  have hfailed : ∀ (replies : List (Reply A D)) (e : DictError),
      replies.foldl (fun (outcome : Except DictError Unit) reply =>
        match outcome with
        | .ok () => prewarmOutcome reply
        | .error e => .error e) (.error e) = .error e := by
    intro replies e
    induction replies with
    | nil => rfl
    | cons reply replies ih => exact ih
  induction replies with
  | nil => rfl
  | cons reply replies ih =>
      rw [List.foldl_cons, List.map_cons]
      rcases hreply : prewarmOutcome reply with e | ⟨⟨⟩⟩
      · exact hfailed replies e
      · exact ih

/-- **What building digests ahead comes to, one after the other.** -/
theorem Engine.Keeps.prewarm_eq (hkeeps : E.Keeps habit h.content h.isRaw) (hrest : h.AtRest) (depth : Nat)
    (levels : List Int32) (engine : σ) :
    (prewarm E (depth + 1) levels ⟨h, engine⟩).1
      = Prewarming.firstFailure (levels.map fun level => (h.prospect habit level).joined) := by
  rw [← (hkeeps.serveAll hrest depth levels engine).outcomes, ← foldl_prewarmOutcome]
  rfl

/-! ### The codec -/

/-- What the codec's engine always does with some content. -/
def codecHabit (content : ByteArray) (isRaw : Bool) : Habit CompressionDigest where
  check := checkFormat content isRaw
  fate level :=
    match buildDigest content level with
    | .ok _ => .builds fun _ => true
    | .error e => .fails e

/-- The codec's engine always does the same. -/
theorem codecEngine_keeps (content : ByteArray) (isRaw : Bool) :
    codecEngine.Keeps (codecHabit content isRaw) content isRaw where
  check _ := rfl
  prepare _ _ _ := rfl
  build _ level := by
    show Fate.permits (match buildDigest content level with
      | .ok _ => .builds fun _ => true
      | .error e => .fails e) (.ofExcept (buildDigest content level)) = true
    cases buildDigest content level with
    | ok digest => rfl
    | error e => exact beq_self_eq_true e

end SharedDictionary
