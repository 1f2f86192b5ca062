import Mathlib.Data.Finset.Card
import Mathlib.Data.Finset.Dedup
import SharedDictionary.Handle.Prewarming
import SharedDictionary.Proofs.Handle.Accounting

/-!
# What asking for digests ahead comes to

What a request for a digest comes to is settled by the handle as it is, where the engine always does the same
(`Handle.prospect`).  So is what is there in the end, what is remembered of the format and what the counters
hold when the digests of several levels were asked for: `Handle.Prewarmed` says so, and it leaves nothing open
but the artifacts themselves (`Prewarmed.counters_unique`, `Prewarmed.isSome_built`).

A single request is a case of it (`prewarmed_of_cached`, `prewarmed_of_vacant`), and to ask for some levels and
then for others is to ask for all of them (`Prewarmed.append`).
-/

namespace SharedDictionary

variable {A D : Type}

/-! ### What a request will come to -/

/-- What a request for a digest will come to. -/
inductive Prospect where
  /-- The digest is there. -/
  | cached
  | builds
  | fails (e : DictError)
  | panics
  deriving DecidableEq

/-- What comes of a request whose build always ends so. -/
def Fate.prospect : Fate A → Prospect
  | builds _ => .builds
  | fails e => .fails e
  | panics => .panics

/-- What comes of a request whose build has ended so. -/
def Verdict.prospect : Verdict A → Prospect
  | success _ => .builds
  | failed e => .fails e
  | panicked _ => .panics

/-- An answer that is as it must be ends a request as it always ends. -/
theorem Fate.prospect_of_permits {fate : Fate A} {verdict : Verdict A}
    (h : fate.permits verdict = true) : fate.prospect = verdict.prospect := by
  cases fate with
  | builds makes => cases verdict <;> first | rfl | cases h
  | fails e =>
      cases verdict with
      | failed e' => exact congrArg Prospect.fails (eq_of_beq h).symm
      | success _ | panicked _ => cases h
  | panics => cases verdict <;> first | rfl | cases h

/-- What a request for the digest of a level will come to. -/
def Handle.prospect (h : Handle A D) (habit : Habit A) (level : Int32) : Prospect :=
  if (h.slotOf level).built.isSome then .cached
  else
    match h.format.getD habit.check with
    | .error e => .fails e
    | .ok () => (habit.fate level).prospect

/-- What is left of it when its worker is waited for. -/
def Prospect.joined : Prospect → Except DictError Unit
  | cached | builds => .ok ()
  | fails e => .error e
  | panics => .error (.state "prewarm worker panicked")

section Prospect

variable {h : Handle A D} {habit : Habit A} {level : Int32}

theorem Handle.prospect_of_built {artifact : Built A} (hbuilt : (h.slotOf level).built = some artifact) :
    h.prospect habit level = .cached := by
  rw [prospect, hbuilt]
  rfl

/-- A digest that is not there is refused if the format is. -/
theorem Handle.prospect_of_error {e : DictError} (hvacant : (h.slotOf level).built = none)
    (hformat : h.format.getD habit.check = .error e) : h.prospect habit level = .fails e := by
  simp [prospect, hvacant, hformat]

/-- A digest that is not there is built if the engine can. -/
theorem Handle.prospect_of_ok (hvacant : (h.slotOf level).built = none)
    (hformat : h.format.getD habit.check = .ok ()) :
    h.prospect habit level = (habit.fate level).prospect := by
  simp [prospect, hvacant, hformat]

theorem Handle.prospect_ne_cached (hvacant : (h.slotOf level).built = none) :
    h.prospect habit level ≠ .cached := by
  intro hcached
  rcases hformat : h.format.getD habit.check with e | ⟨⟨⟩⟩
  · rw [prospect_of_error hvacant hformat] at hcached
    cases hcached
  · rw [prospect_of_ok hvacant hformat] at hcached
    cases hfate : habit.fate level <;> rw [hfate] at hcached <;> cases hcached

end Prospect

theorem Prospect.joined_eq_ok_iff {p : Prospect} :
    p.joined = .ok () ↔ p ≠ .panics ∧ ∀ e, p ≠ .fails e := by
  cases p with
  | cached => exact iff_of_true rfl ⟨nofun, nofun⟩
  | builds => exact iff_of_true rfl ⟨nofun, nofun⟩
  | fails e => exact iff_of_false nofun fun hnone => hnone.2 e rfl
  | panics => exact iff_of_false nofun fun hnone => hnone.1 rfl

/-! ### Handles that agree with their engine -/

/-- What is left of a request for a level that the engine has to serve. -/
def Habit.joined (habit : Habit A) (level : Int32) : Except DictError Unit :=
  match habit.check with
  | .error e => .error e
  | .ok () => (habit.fate level).prospect.joined

/-- What a handle holds and remembers is what its engine always does. -/
structure Handle.Accords (h : Handle A D) (habit : Habit A) : Prop where
  format : ∀ result, h.format = some result → result = habit.check
  built : ∀ level, (h.slotOf level).built.isSome = true →
    habit.check = .ok () ∧ ∃ makes, habit.fate level = .builds makes

/-- A handle of which nothing was asked yet agrees with every engine. -/
theorem Handle.accords_new (habit : Habit A) (content : ByteArray) (isRaw : Bool) :
    (new content isRaw : Handle A D).Accords habit := ⟨nofun, nofun⟩

theorem Handle.Accords.getD_format {h : Handle A D} {habit : Habit A} (haccords : h.Accords habit) :
    h.format.getD habit.check = habit.check := by
  cases hremembered : h.format with
  | none => rfl
  | some result => exact haccords.format result hremembered

/-- Whether a digest is there does not matter where the handle agrees with its engine. -/
theorem Handle.Accords.joined_prospect {h : Handle A D} {habit : Habit A} (haccords : h.Accords habit)
    (level : Int32) : (h.prospect habit level).joined = habit.joined level := by
  rw [prospect, haccords.getD_format, Habit.joined]
  split
  · rename_i hbuilt
    obtain ⟨hcheck, makes, hfate⟩ := haccords.built level hbuilt
    rw [hcheck, hfate]
    rfl
  · rcases habit.check with e | ⟨⟨⟩⟩ <;> rfl

/-- Counters that hold the same are the same. -/
theorem Counters.ext_get {c c' : Counters} (hsame : ∀ e, c.get e = c'.get e) : c = c' := by
  cases c
  cases c'
  rw [mk.injEq]
  exact ⟨hsame .formatCheck, hsame .digestBuilt, hsame .digestHit, hsame .digestFailure,
    hsame .decoderBuilt, hsame .undigestedLoad, hsame .prefixLoad⟩

/-! ### What several requests come to -/

/-- The digest is to be had. -/
def Prospect.isFound : Prospect → Bool
  | cached | builds => true
  | fails _ | panics => false

/-- There is an error instead of the digest. -/
def Prospect.isFailure : Prospect → Bool
  | fails _ => true
  | cached | builds | panics => false

/-- What a single request counts as. -/
def Prospect.counts : Prospect → Option CounterEvent
  | cached => some .digestHit
  | builds => some .digestBuilt
  | fails _ => some .digestFailure
  | panics => none

namespace Handle

/-- The levels that are to be built. -/
def due (h : Handle A D) (habit : Habit A) (levels : List Int32) : Finset Int32 :=
  levels.toFinset.filter fun level => h.prospect habit level = .builds

/-- Some digest is not there yet. -/
def misses (h : Handle A D) (habit : Habit A) (levels : List Int32) : Bool :=
  levels.any fun level => h.prospect habit level != .cached

theorem misses_of_mem {h : Handle A D} {habit : Habit A} {levels : List Int32} {level : Int32}
    (hmem : level ∈ levels) (hmissing : h.prospect habit level ≠ .cached) :
    h.misses habit levels = true :=
  List.any_eq_true.mpr ⟨level, hmem, bne_iff_ne.mpr hmissing⟩

/-- What is counted when the digests of some levels are asked for. -/
structure Costs (h : Handle A D) (habit : Habit A) (levels : List Int32)
    (cost : CounterEvent → Nat) : Prop where
  /-- The format is checked if that was not done and a digest is missing. -/
  formatCheck : cost .formatCheck = (h.format.isNone && h.misses habit levels).toNat
  /-- Every level is built once, however often it is asked for. -/
  digestBuilt : cost .digestBuilt = (h.due habit levels).card
  found : cost .digestBuilt + cost .digestHit
    = levels.countP fun level => (h.prospect habit level).isFound
  digestFailure : cost .digestFailure
    = levels.countP fun level => (h.prospect habit level).isFailure
  decoderBuilt : cost .decoderBuilt = 0
  undigestedLoad : cost .undigestedLoad = 0
  prefixLoad : cost .prefixLoad = 0

/-- What is remembered of the format, what the counters hold and what is built when the digests of some levels
were asked for. -/
structure Prewarmed (h : Handle A D) (habit : Habit A) (levels : List Int32)
    (format : Option (Except DictError Unit)) (counters : Counters)
    (built : Int32 → Option (Built A)) : Prop where
  format : format = if h.misses habit levels then some (h.format.getD habit.check) else h.format
  counters : ∃ cost, h.Costs habit levels cost
    ∧ ∀ e, counters.get e = h.counters.get e + UInt64.ofNat (cost e)
  kept : ∀ level artifact, (h.slotOf level).built = some artifact → built level = some artifact
  grown : ∀ level artifact, built level = some artifact →
    (h.slotOf level).built = some artifact
      ∨ level ∈ levels ∧ h.prospect habit level = .builds
        ∧ (habit.fate level).permits (.success artifact.value) = true
  there : ∀ level ∈ levels, h.prospect habit level = .builds → (built level).isSome = true

variable {h h' : Handle A D} {habit : Habit A} {levels more : List Int32}

/-! ### Nothing is left open -/

theorem Costs.unique {cost cost' : CounterEvent → Nat} (hcost : h.Costs habit levels cost)
    (hcost' : h.Costs habit levels cost') (e : CounterEvent) : cost e = cost' e := by
  have hbuilt := hcost.digestBuilt.trans hcost'.digestBuilt.symm
  have hfound := hcost.found.trans hcost'.found.symm
  cases e with
  | formatCheck => exact hcost.formatCheck.trans hcost'.formatCheck.symm
  | digestBuilt => exact hbuilt
  | digestHit => omega
  | digestFailure => exact hcost.digestFailure.trans hcost'.digestFailure.symm
  | decoderBuilt => exact hcost.decoderBuilt.trans hcost'.decoderBuilt.symm
  | undigestedLoad => exact hcost.undigestedLoad.trans hcost'.undigestedLoad.symm
  | prefixLoad => exact hcost.prefixLoad.trans hcost'.prefixLoad.symm

variable {format format' : Option (Except DictError Unit)} {counters counters' : Counters}
  {built built' : Int32 → Option (Built A)}

/-- **What the counters hold is settled.** -/
theorem Prewarmed.counters_unique (hwarm : h.Prewarmed habit levels format counters built)
    (hwarm' : h.Prewarmed habit levels format' counters' built') : counters = counters' := by
  obtain ⟨cost, hcost, hcounters⟩ := hwarm.counters
  obtain ⟨cost', hcost', hcounters'⟩ := hwarm'.counters
  refine Counters.ext_get fun e => ?_
  rw [hcounters, hcounters', hcost.unique hcost' e]

/-- **What is built is settled**: what was, and what had to be. -/
theorem Prewarmed.isSome_built (hwarm : h.Prewarmed habit levels format counters built)
    (level : Int32) :
    (built level).isSome = true
      ↔ (h.slotOf level).built.isSome = true
        ∨ level ∈ levels ∧ h.prospect habit level = .builds := by
  constructor
  · intro hsome
    obtain ⟨artifact, hartifact⟩ := Option.isSome_iff_exists.mp hsome
    rcases hwarm.grown level artifact hartifact with hold | ⟨hmem, hbuilds, -⟩
    · rw [hold]
      exact .inl rfl
    · exact .inr ⟨hmem, hbuilds⟩
  · rintro (hold | ⟨hmem, hbuilds⟩)
    · obtain ⟨artifact, hartifact⟩ := Option.isSome_iff_exists.mp hold
      rw [hwarm.kept level artifact hartifact]
      rfl
    · exact hwarm.there level hmem hbuilds

/-- A handle that agrees with its engine still does so when digests were asked for. -/
theorem Prewarmed.accords (haccords : h.Accords habit)
    (hwarm : h.Prewarmed habit levels h'.format h'.counters fun level => (h'.slotOf level).built) :
    h'.Accords habit where
  format result hresult := by
    have hformat := hwarm.format
    rw [hresult, haccords.getD_format] at hformat
    split at hformat
    · exact Option.some.inj hformat
    · exact haccords.format result hformat.symm
  built level hsome := by
    obtain ⟨artifact, hartifact⟩ := Option.isSome_iff_exists.mp hsome
    rcases hwarm.grown level artifact hartifact with hold | ⟨-, hbuilds, hfate⟩
    · exact haccords.built level (by rw [hold]; rfl)
    · have hjoined := haccords.joined_prospect level
      rw [hbuilds, Habit.joined] at hjoined
      split at hjoined
      · cases hjoined
      · refine ⟨‹_›, ?_⟩
        cases hcase : habit.fate level with
        | builds makes => exact ⟨makes, rfl⟩
        | fails e | panics =>
            rw [hcase] at hfate
            cases hfate

/-! ### No request, and one -/

theorem costs_nil (h : Handle A D) (habit : Habit A) : h.Costs habit [] fun _ => 0 where
  formatCheck := by
    rw [misses, List.any_nil, Bool.and_false]
    rfl
  digestBuilt := rfl
  found := rfl
  digestFailure := rfl
  decoderBuilt := rfl
  undigestedLoad := rfl
  prefixLoad := rfl

/-- Nothing comes of asking for nothing. -/
theorem prewarmed_nil (h : Handle A D) (habit : Habit A) :
    h.Prewarmed habit [] h.format h.counters fun level => (h.slotOf level).built where
  format := rfl
  counters := ⟨_, h.costs_nil habit, fun _ => (UInt64.add_zero _).symm⟩
  kept _ _ hbuilt := hbuilt
  grown _ _ hbuilt := .inl hbuilt
  there _ hmem := absurd hmem List.not_mem_nil

/-- What a single request costs: the format check, if it is needed, and what the request counts as. -/
def price (h : Handle A D) (habit : Habit A) (level : Int32) (e : CounterEvent) : Nat :=
  (e == .formatCheck && (h.format.isNone && h.prospect habit level != .cached)).toNat
    + (h.prospect habit level).counts.elim 0 fun event => (event == e).toNat

theorem costs_price (h : Handle A D) (habit : Habit A) (level : Int32) :
    h.Costs habit [level] (h.price habit level) := by
  have hmisses : h.misses habit [level] = (h.prospect habit level != .cached) := by
    rw [misses, List.any_cons, List.any_nil, Bool.or_false]
  have hdue : (h.due habit [level]).card = (h.prospect habit level == .builds).toNat := by
    rw [due, List.toFinset_cons, List.toFinset_nil, insert_empty_eq, Finset.filter_singleton]
    split
    · rename_i hbuilds
      rw [hbuilds]
      rfl
    · rename_i hbuilds
      rw [beq_false_of_ne hbuilds]
      rfl
  constructor <;> simp only [hmisses, hdue, List.countP_singleton, price]
  all_goals cases h.prospect habit level <;> rfl

/-- A request that finds the digest is counted, and nothing else changes. -/
theorem prewarmed_of_cached {level : Int32} (hcached : h.prospect habit level = .cached)
    (hcounters : counters = h.counters.record .digestHit) :
    h.Prewarmed habit [level] h.format counters fun level => (h.slotOf level).built where
  format := by
    rw [misses, List.any_cons, List.any_nil, hcached]
    rfl
  counters := by
    refine ⟨_, h.costs_price habit level, fun e => ?_⟩
    have hprice : h.price habit level e = if CounterEvent.digestHit = e then 1 else 0 := by
      rw [price, hcached, bne_self_eq_false, Bool.and_false, Bool.and_false]
      cases e <;> rfl
    rw [hcounters, Counters.get_record, hprice]
    split
    · rfl
    · exact (UInt64.add_zero _).symm
  kept _ _ hbuilt := hbuilt
  grown _ _ hbuilt := .inl hbuilt
  there other hmem hbuilds := by
    rw [List.mem_singleton.mp hmem, hcached] at hbuilds
    cases hbuilds

/-- A request that does not find the digest settles the format, and builds the digest if it is to be had. -/
theorem prewarmed_of_vacant {level : Int32} (hvacant : (h.slotOf level).built = none)
    (hcounters : ∀ e, counters.get e = h.counters.get e + UInt64.ofNat (h.price habit level e))
    (hothers : ∀ other, other ≠ level → built other = (h.slotOf other).built)
    (hbuilds : h.prospect habit level = .builds → (built level).isSome = true)
    (hbuilt : ∀ artifact, built level = some artifact → h.prospect habit level = .builds
      ∧ (habit.fate level).permits (.success artifact.value) = true) :
    h.Prewarmed habit [level] (some (h.format.getD habit.check)) counters built where
  format := by
    rw [misses, List.any_cons, bne_iff_ne.mpr (prospect_ne_cached hvacant)]
    rfl
  counters := ⟨_, h.costs_price habit level, hcounters⟩
  kept other artifact hold := by
    have hother : other ≠ level := by
      rintro rfl
      rw [hvacant] at hold
      cases hold
    rw [hothers other hother, hold]
  grown other artifact hnew := by
    by_cases hother : other = level
    · subst hother
      exact .inr ⟨List.mem_singleton_self _, hbuilt artifact hnew⟩
    · rw [hothers other hother] at hnew
      exact .inl hnew
  there other hmem hprospect := by
    rw [List.mem_singleton.mp hmem] at hprospect ⊢
    exact hbuilds hprospect

/-! ### One after the other -/

theorem misses_append (h : Handle A D) (habit : Habit A) (levels more : List Int32) :
    h.misses habit (levels ++ more) = (h.misses habit levels || h.misses habit more) := List.any_append

/-- What the format check comes to stays. -/
theorem Prewarmed.getD_format (hwarm : h.Prewarmed habit levels format counters built) :
    format.getD habit.check = h.format.getD habit.check := by
  rw [hwarm.format]
  split <;> rfl

section Append

variable (hwarm : h.Prewarmed habit levels h'.format h'.counters fun level => (h'.slotOf level).built)

include hwarm

/-- What was built is there; all else is to be expected as before. -/
theorem Prewarmed.prospect_eq (level : Int32) :
    h'.prospect habit level
      = if level ∈ levels ∧ h.prospect habit level = .builds then .cached
        else h.prospect habit level := by
  have hthere := hwarm.isSome_built level
  cases hbuilt : (h.slotOf level).built with
  | some artifact =>
      have hcached : h.prospect habit level = .cached := prospect_of_built hbuilt
      rw [prospect_of_built (hwarm.kept level artifact hbuilt), hcached, ite_self]
  | none =>
      split
      · rename_i hdue
        obtain ⟨artifact, hartifact⟩ := Option.isSome_iff_exists.mp (hthere.mpr (.inr hdue))
        exact prospect_of_built hartifact
      · rename_i hdue
        rw [hbuilt] at hthere
        have hvacant : (h'.slotOf level).built = none := by
          cases hbuilt' : (h'.slotOf level).built with
          | none => rfl
          | some artifact =>
              rcases hthere.mp (by rw [hbuilt']; rfl) with hold | hdue'
              · cases hold
              · exact absurd hdue' hdue
        rw [prospect, prospect, hvacant, hbuilt, hwarm.getD_format]

/-- Where nothing was missing, all is to be expected as before. -/
theorem Prewarmed.prospect_of_not_misses (hnone : h.misses habit levels = false) (level : Int32) :
    h'.prospect habit level = h.prospect habit level := by
  rw [hwarm.prospect_eq]
  split
  · rename_i hdue
    have hmissing : h.misses habit levels = true := misses_of_mem hdue.1 (by rw [hdue.2]; nofun)
    rw [hnone] at hmissing
    cases hmissing
  · rfl

theorem Prewarmed.misses_eq (hnone : h.misses habit levels = false) :
    h'.misses habit more = h.misses habit more := by
  simp only [misses, hwarm.prospect_of_not_misses hnone]

/-- What does not tell what is there from what is to be built is as before. -/
theorem Prewarmed.prospect_congr {β : Type} {f : Prospect → β} (hf : f .cached = f .builds)
    (level : Int32) : f (h'.prospect habit level) = f (h.prospect habit level) := by
  rw [hwarm.prospect_eq]
  split
  · rename_i hdue
    rw [hdue.2, hf]
  · rfl

/-- A level that is still to be built was to be built before, and was not asked for. -/
theorem Prewarmed.mem_due (level : Int32) :
    level ∈ h'.due habit more ↔ level ∈ h.due habit more ∧ level ∉ h.due habit levels := by
  simp only [due, Finset.mem_filter, List.mem_toFinset, hwarm.prospect_eq]
  by_cases hdue : level ∈ levels ∧ h.prospect habit level = .builds
  · simp [hdue]
  · rw [if_neg hdue]
    exact ⟨fun hmore => ⟨hmore, hdue⟩, And.left⟩

/-- **What is counted adds up.** -/
theorem Prewarmed.costs_append {cost cost' : CounterEvent → Nat} (hcost : h.Costs habit levels cost)
    (hcost' : h'.Costs habit more cost') :
    h.Costs habit (levels ++ more) fun e => cost e + cost' e where
  formatCheck := by
    have hformat := hwarm.format
    rw [hcost.formatCheck, hcost'.formatCheck, misses_append]
    cases hmisses : h.misses habit levels with
    | true =>
        rw [hmisses, if_pos rfl] at hformat
        rw [hformat, Option.isNone_some, Bool.false_and, Bool.true_or]
        rfl
    | false =>
        rw [hmisses, if_neg Bool.false_ne_true] at hformat
        rw [hformat, hwarm.misses_eq hmisses, Bool.and_false, Bool.false_or]
        exact Nat.zero_add _
  digestBuilt := by
    have hunion : h.due habit (levels ++ more) = h.due habit levels ∪ h'.due habit more := by
      ext level
      rw [Finset.mem_union, hwarm.mem_due]
      simp only [due, Finset.mem_filter, List.mem_toFinset, List.mem_append]
      tauto
    have hdisjoint : Disjoint (h.due habit levels) (h'.due habit more) :=
      Finset.disjoint_left.mpr fun level hlevel hmore => (hwarm.mem_due level).mp hmore |>.2 hlevel
    rw [hunion, Finset.card_union_of_disjoint hdisjoint, hcost.digestBuilt, hcost'.digestBuilt]
  found := by
    have hfound := hcost.found
    have hfound' := hcost'.found
    simp only [hwarm.prospect_congr (show Prospect.isFound .cached = Prospect.isFound .builds from rfl)]
      at hfound'
    rw [List.countP_append]
    omega
  digestFailure := by
    have hfailure := hcost'.digestFailure
    simp only [hwarm.prospect_congr (show Prospect.isFailure .cached = Prospect.isFailure .builds from rfl)]
      at hfailure
    rw [List.countP_append, hcost.digestFailure, hfailure]
  decoderBuilt := by rw [hcost.decoderBuilt, hcost'.decoderBuilt]
  undigestedLoad := by rw [hcost.undigestedLoad, hcost'.undigestedLoad]
  prefixLoad := by rw [hcost.prefixLoad, hcost'.prefixLoad]

/-- **To ask for some levels and then for others is to ask for all of them.** -/
theorem Prewarmed.append (hmore : h'.Prewarmed habit more format counters built) :
    h.Prewarmed habit (levels ++ more) format counters built where
  format := by
    have hformat := hwarm.format
    rw [hmore.format, hwarm.getD_format, misses_append]
    cases hmisses : h.misses habit levels with
    | true =>
        rw [hmisses, if_pos rfl] at hformat
        rw [hformat, ite_self, Bool.true_or, if_pos rfl]
    | false =>
        rw [hmisses, if_neg Bool.false_ne_true] at hformat
        rw [hwarm.misses_eq hmisses, hformat, Bool.false_or]
  counters := by
    obtain ⟨cost, hcost, hcounters⟩ := hwarm.counters
    obtain ⟨cost', hcost', hcounters'⟩ := hmore.counters
    refine ⟨_, hwarm.costs_append hcost hcost', fun e => ?_⟩
    rw [hcounters', hcounters, UInt64.ofNat_add, UInt64.add_assoc]
  kept level artifact hbuilt := hmore.kept level artifact (hwarm.kept level artifact hbuilt)
  grown level artifact hbuilt := by
    rcases hmore.grown level artifact hbuilt with hold | ⟨hmem, hbuilds, hfate⟩
    · rcases hwarm.grown level artifact hold with hbase | ⟨hmem, hbuilds, hfate⟩
      · exact .inl hbase
      · exact .inr ⟨List.mem_append_left _ hmem, hbuilds, hfate⟩
    · have hdue := (hwarm.mem_due level).mp
        (Finset.mem_filter.mpr ⟨List.mem_toFinset.mpr hmem, hbuilds⟩)
      exact .inr ⟨List.mem_append_right _ hmem, (Finset.mem_filter.mp hdue.1).2, hfate⟩
  there level hmem hbuilds := by
    by_cases hfirst : level ∈ levels
    · obtain ⟨artifact, hartifact⟩ :=
        Option.isSome_iff_exists.mp (hwarm.there level hfirst hbuilds)
      rw [hmore.kept level artifact hartifact]
      rfl
    · have hlast := (List.mem_append.mp hmem).resolve_left hfirst
      refine hmore.there level hlast ?_
      rw [hwarm.prospect_eq, if_neg fun hdue => hfirst hdue.1, hbuilds]

end Append

end Handle

end SharedDictionary
