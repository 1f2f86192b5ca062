import Mathlib.Data.List.Induction
import Mathlib.Data.List.Nodup
import SharedDictionary.Proofs.Handle.Logging

/-!
# What the counters of a handle count

The counters of a handle are bumped here and there among the steps that they describe.  The chronicle
of a run says what they come to: some of what happens is counted (`Happening.counted`) and some of it
is reported (`Happening.reported`), and after every run the counters and the reports are those of its
chronicle (`tallies_run`).

A call contributes only when it returns, so no counter exceeds the number of calls
(`countP_counted_le`).  A build that succeeds fills a slot that was empty, so the targets that were built
are the slots that are filled, each once (`fills_run`).

The main result is `accounts`.
-/

namespace SharedDictionary

variable {σ A D : Type}

/-! ### What is counted, and what is reported -/

/-- What a report counts as. -/
def HandleEvent.counts : HandleEvent → CounterEvent
  | .digestBuilt _ => .digestBuilt
  | .digestHit _ => .digestHit
  | .digestFailed _ _ => .digestFailure
  | .decoderBuilt => .decoderBuilt

/-- What a report says was built. -/
def HandleEvent.built? : HandleEvent → Option BuildTarget
  | .digestBuilt level => some (.level level)
  | .decoderBuilt => some .decoder
  | _ => none

/-- The counter of an event. -/
def Counters.get (c : Counters) : CounterEvent → UInt64
  | .formatCheck => c.formatChecks
  | .digestBuilt => c.digestsBuilt
  | .digestHit => c.digestHits
  | .digestFailure => c.digestFailures
  | .decoderBuilt => c.decoderDigestsBuilt
  | .undigestedLoad => c.undigestedLoads
  | .prefixLoad => c.prefixLoads

/-- Counting an event raises its counter, and no other. -/
theorem Counters.get_record (c : Counters) (event e : CounterEvent) :
    (c.record event).get e = if event = e then c.get e + 1 else c.get e := by
  cases event <;> cases e <;> rfl

/-- Where nothing was counted before, a counter is the number of its events. -/
theorem Counters.get_foldl_record (events : List CounterEvent) (e : CounterEvent) :
    (events.foldl Counters.record .zero).get e = UInt64.ofNat (events.count e) := by
  induction events using List.reverseRecOn with
  | nil => cases e <;> rfl
  | append_singleton events event ih =>
      rw [List.foldl_append, List.count_append, List.count_singleton]
      show (Counters.record _ event).get e = _
      rw [get_record, ih]
      by_cases he : event = e
      · rw [if_pos he, he, if_pos (beq_self_eq_true e), UInt64.ofNat_add]
        rfl
      · rw [if_neg he, if_neg (by simpa using he)]
        rfl

namespace Happening

/-- What is reported of a happening. -/
def reported : Happening A D → Option HandleEvent
  | .returned (.digested level) (.failed e) _ => some (.digestFailed level e)
  | .returned (.digested level) _ afterBuild =>
    some (if afterBuild then .digestBuilt level else .digestHit level)
  | .returned .decoder (.decoder _) true => some .decoderBuilt
  | _ => none

/-- What is counted of a happening: whatever is reported, and what else a handle counts. -/
def counted : Happening A D → Option CounterEvent
  | .prefixTaken => some .prefixLoad
  | .checkStarted => some .formatCheck
  | .returned .undigested .undigested _ => some .undigestedLoad
  | happening => happening.reported.map HandleEvent.counts

/-- What a happening says was built. -/
def built? (happening : Happening A D) : Option BuildTarget :=
  happening.reported.bind HandleEvent.built?

/-- A request arrives. -/
def isRequest : Happening A D → Bool
  | .called _ => true
  | _ => false

/-- Something is asked of the handle. -/
def isCall : Happening A D → Bool
  | .called _ => true
  | .prefixTaken => true
  | _ => false

/-- A call has come to its end.  A prefix is handed out at once. -/
def isEnd : Happening A D → Bool
  | .returned _ _ _ => true
  | .brokenOff _ _ => true
  | .stuck _ => true
  | .prefixTaken => true
  | _ => false

/-- A call for the digest of a level has returned. -/
def isLookup : Happening A D → Bool
  | .returned (.digested _) _ _ => true
  | _ => false

/-- A call for an undigested view has succeeded. -/
def isUndigestedLoad : Happening A D → Bool
  | .returned .undigested .undigested _ => true
  | _ => false

def isPrefixTaken : Happening A D → Bool
  | .prefixTaken => true
  | _ => false

def isCheckStarted : Happening A D → Bool
  | .checkStarted => true
  | _ => false

end Happening

namespace Handle

/-- A handle is followed by one that has counted and reported what happened. -/
structure Tallies (h : Handle A D) (told : List (Happening A D)) (h' : Handle A D) : Prop where
  counters : h'.counters
    = (told.filterMap Happening.counted).foldl Counters.record h.counters
  events : h'.events = (told.filterMap Happening.reported).reverse ++ h.events

theorem Tallies.trans {h h' h'' : Handle A D} {first second : List (Happening A D)}
    (hfirst : h.Tallies first h') (hsecond : h'.Tallies second h'') :
    h.Tallies (first ++ second) h'' where
  counters := by
    rw [hsecond.counters, hfirst.counters, List.filterMap_append, List.foldl_append]
  events := by
    rw [hsecond.events, hfirst.events, List.filterMap_append, List.reverse_append,
      List.append_assoc]

theorem tallies_fail (h : Handle A D) (request : Request) (e : DictError) (afterBuild : Bool) :
    h.Tallies ((h.fail request e).2.upshot (h.fail request e).1.pending request afterBuild)
      (h.fail request e).1 := by
  cases request <;> exact ⟨rfl, rfl⟩

theorem tallies_breakOff (h : Handle A D) (request : Request) (text : String) (afterBuild : Bool) :
    h.Tallies
      ((h.breakOff request text).2.upshot (h.breakOff request text).1.pending request afterBuild)
      (h.breakOff request text).1 := by
  cases request <;> exact ⟨rfl, rfl⟩

theorem tallies_pass (h : Handle A D) (request : Request) (afterBuild : Bool) :
    h.Tallies ((h.pass request).2.upshot (h.pass request).1.pending request afterBuild)
      (h.pass request).1 := by
  cases request <;> exact ⟨rfl, rfl⟩

theorem tallies_ensureFormat (h : Handle A D) (request : Request) :
    h.Tallies
      ((h.ensureFormat request).2.upshot (h.ensureFormat request).1.pending request false)
      (h.ensureFormat request).1 := by
  unfold ensureFormat
  split
  · exact h.tallies_pass request false
  · exact h.tallies_fail request _ false
  · exact ⟨rfl, rfl⟩

theorem tallies_take (h : Handle A D) (request : Request) : h.Tallies [] (h.take request) := by
  cases request <;> exact ⟨rfl, rfl⟩

theorem tallies_call (h : Handle A D) (request : Request) :
    h.Tallies ((h.call request).2.upshot (h.call request).1.pending request false)
      (h.call request).1 := by
  have hfinds := h.finds_call request
  generalize h.call request = result at hfinds ⊢
  cases hfinds with
  | digest => exact ⟨rfl, rfl⟩
  | decoder => exact ⟨rfl, rfl⟩
  | held => exact ⟨rfl, rfl⟩
  | vacant => exact (h.tallies_take request).trans ((h.take request).tallies_ensureFormat request)

/-- What the answer of a format check does is counted and reported. -/
theorem tallies_answerCheck {h : Handle A D} {request : Request} {rest : List Pending}
    (hpending : h.pending = ⟨request, .checking⟩ :: rest) (verdict : Verdict Unit) :
    h.Tallies
      ((h.answerCheck verdict).2.upshot (h.answerCheck verdict).1.pending request false)
      (h.answerCheck verdict).1 := by
  have hpopped : ∀ format, h.Tallies [] { h with pending := rest, format := format } :=
    fun _ => ⟨rfl, rfl⟩
  simp only [answerCheck, hpending]
  rcases verdict with ⟨⟨⟩⟩ | e | text
  · exact (hpopped (some (.ok ()))).trans (tallies_pass _ request false)
  · exact (hpopped (some (.error e))).trans (tallies_fail _ request e false)
  · exact (hpopped h.format).trans (tallies_breakOff _ request text false)

theorem tallies_answerBuild {h : Handle A D} {level : Int32} {rest : List Pending}
    (hpending : h.pending = ⟨.digested level, .building⟩ :: rest) (verdict : Verdict A) :
    h.Tallies
      ((h.answerBuild verdict).2.upshot (h.answerBuild verdict).1.pending (.digested level) true)
      (h.answerBuild verdict).1 := by
  simp only [answerBuild, hpending]
  cases verdict <;> exact ⟨rfl, rfl⟩

theorem tallies_answerDecoder {h : Handle A D} {rest : List Pending}
    (hpending : h.pending = ⟨.decoder, .building⟩ :: rest) (verdict : Verdict D) :
    h.Tallies
      ((h.answerDecoder verdict).2.upshot (h.answerDecoder verdict).1.pending .decoder true)
      (h.answerDecoder verdict).1 := by
  simp only [answerDecoder, hpending]
  cases verdict <;> exact ⟨rfl, rfl⟩

/-- **What an input makes happen is counted and reported.** -/
theorem tallies_step (h : Handle A D) (input : Input A D) :
    h.Tallies (h.noticed input) (h.step input) := by
  have hreacts := h.reacts input
  generalize h.step input = h', h.noticed input = told at hreacts ⊢
  cases hreacts with
  | called request =>
      obtain ⟨hcounters, hevents⟩ := h.tallies_call request
      exact ⟨hcounters, hevents⟩
  | checked request rest verdict hpending =>
      obtain ⟨hcounters, hevents⟩ := tallies_answerCheck hpending verdict
      exact ⟨hcounters, hevents⟩
  | built level rest verdict hpending => exact tallies_answerBuild hpending verdict
  | builtDecoder rest verdict hpending => exact tallies_answerDecoder hpending verdict
  | prefixTaken => exact ⟨rfl, rfl⟩
  | ignored => exact ⟨rfl, rfl⟩

/-- **What a run makes happen is counted and reported.** -/
theorem tallies_run (h : Handle A D) (inputs : List (Input A D)) :
    h.Tallies (h.chronicle inputs) (h.run inputs) := by
  induction inputs generalizing h with
  | nil => exact ⟨rfl, rfl⟩
  | cons input inputs ih => exact (h.tallies_step input).trans (ih (h.step input))

/-! ### No counter exceeds the calls -/

/-- The calls that wait are those that have arrived and not ended, and only requests start checks. -/
structure Balances (h : Handle A D) (told : List (Happening A D)) (h' : Handle A D) : Prop where
  ended : told.countP Happening.isEnd + h'.pending.length
    = told.countP Happening.isCall + h.pending.length
  checks : told.countP Happening.isCheckStarted ≤ told.countP Happening.isRequest

theorem Balances.trans {h h' h'' : Handle A D} {first second : List (Happening A D)}
    (hfirst : h.Balances first h') (hsecond : h'.Balances second h'') :
    h.Balances (first ++ second) h'' := by
  obtain ⟨hended, hchecks⟩ := hfirst
  obtain ⟨hended', hchecks'⟩ := hsecond
  constructor <;> simp only [List.countP_append] <;> omega

/-- A step of a call ends it or leaves it waiting, and asks for nothing more. -/
private theorem countP_upshot {request : Request} {rest : List Pending}
    {result : Handle A D × Progress A D} (hsettles : Settles request rest result)
    (afterBuild : Bool) :
    (result.2.upshot result.1.pending request afterBuild).countP Happening.isEnd
        + result.1.pending.length = rest.length + 1
      ∧ (result.2.upshot result.1.pending request afterBuild).countP Happening.isCall = 0
      ∧ (result.2.upshot result.1.pending request afterBuild).countP Happening.isCheckStarted
        = 0 := by
  cases hsettles with
  | ended hends =>
      obtain ⟨reply, hreplied, -, hpending⟩ := hends
      rw [hreplied, hpending, Nat.add_comm]
      cases reply <;> exact ⟨rfl, rfl, rfl⟩
  | building target htarget hwaiting hpending =>
      rw [hwaiting, hpending]
      simp only [Progress.upshot, List.head?_cons, Option.elim_some, Pending.starts, htarget]
      exact ⟨Nat.zero_add _, rfl, rfl⟩

theorem balances_call (h : Handle A D) (request : Request) :
    h.Balances
      (.called request :: (h.call request).2.upshot (h.call request).1.pending request false)
      (h.call request).1 := by
  cases h.leaves_call request with
  | settled hsettles =>
      obtain ⟨hended, hcalls, hchecks⟩ := countP_upshot hsettles false
      constructor
      · rw [List.countP_cons_of_neg Bool.false_ne_true, List.countP_cons_of_pos rfl, hended, hcalls,
          Nat.zero_add, Nat.add_comm]
      · rw [List.countP_cons_of_neg Bool.false_ne_true, hchecks]
        exact Nat.zero_le _
  | checking hwaiting hpending =>
      constructor
      · rw [hwaiting, hpending]
        show 0 + (h.pending.length + 1) = 1 + h.pending.length
        omega
      · rw [hwaiting, hpending]
        exact Nat.le_refl 1

/-- A call that waited ends, or goes on waiting. -/
private theorem balances_of_settles {h : Handle A D} {request : Request} {rest : List Pending}
    {stage : Stage} {result : Handle A D × Progress A D}
    (hpending : h.pending = ⟨request, stage⟩ :: rest) (hsettles : Settles request rest result)
    (afterBuild : Bool) :
    h.Balances (result.2.upshot result.1.pending request afterBuild) result.1 := by
  obtain ⟨hended, hcalls, hchecks⟩ := countP_upshot hsettles afterBuild
  constructor
  · rw [hended, hcalls, hpending, Nat.zero_add, List.length_cons]
  · rw [hchecks]
    exact Nat.zero_le _

theorem balances_step (h : Handle A D) (input : Input A D) :
    h.Balances (h.noticed input) (h.step input) := by
  have hreacts := h.reacts input
  generalize h.step input = h', h.noticed input = told at hreacts ⊢
  cases hreacts with
  | called request => exact h.balances_call request
  | checked request rest verdict hpending =>
      have hanswer : h.Balances [.checkEnded verdict] h := ⟨rfl, Nat.le_refl 0⟩
      exact hanswer.trans
        (balances_of_settles hpending (settles_answerCheck hpending verdict) false)
  | built level rest verdict hpending =>
      exact balances_of_settles hpending (.ended (ends_answerBuild hpending verdict)) true
  | builtDecoder rest verdict hpending =>
      exact balances_of_settles hpending (.ended (ends_answerDecoder hpending verdict)) true
  | prefixTaken => exact ⟨rfl, Nat.zero_le _⟩
  | ignored => exact ⟨rfl, Nat.le_refl 0⟩

theorem balances_run (h : Handle A D) (inputs : List (Input A D)) :
    h.Balances (h.chronicle inputs) (h.run inputs) := by
  induction inputs generalizing h with
  | nil => exact ⟨rfl, Nat.le_refl 0⟩
  | cons input inputs ih => exact (h.balances_step input).trans (ih (h.step input))

/-- What is counted is the start of a check or the end of a call. -/
theorem isCheckStarted_or_isEnd_of_counted {happening : Happening A D} {e : CounterEvent}
    (hcounted : happening.counted = some e) :
    e = .formatCheck ∧ happening.isCheckStarted = true
      ∨ e ≠ .formatCheck ∧ happening.isEnd = true := by
  cases happening with
  | returned request reply afterBuild =>
      refine Or.inr ⟨?_, rfl⟩
      rintro rfl
      cases request <;> cases reply <;> cases afterBuild <;> cases hcounted
  | prefixTaken =>
      cases hcounted
      exact Or.inr ⟨CounterEvent.noConfusion, rfl⟩
  | checkStarted =>
      cases hcounted
      exact Or.inl ⟨rfl, rfl⟩
  | _ => cases hcounted

/-- **No event is counted more often than calls arrive.** -/
theorem countP_counted_le (content : ByteArray) (isRaw : Bool) (inputs : List (Input A D))
    (e : CounterEvent) :
    ((new content isRaw).chronicle inputs).countP (·.counted == some e)
      ≤ ((new content isRaw).chronicle inputs).countP Happening.isCall := by
  obtain ⟨hended, hchecks⟩ := balances_run (new content isRaw) inputs
  by_cases he : e = .formatCheck
  · have hrequests : ((new content isRaw : Handle A D).chronicle inputs).countP Happening.isRequest
        ≤ ((new content isRaw).chronicle inputs).countP Happening.isCall := by
      refine List.countP_mono_left fun happening _ hrequest => ?_
      cases happening <;> first | rfl | cases hrequest
    refine Nat.le_trans (List.countP_mono_left fun happening _ hcounted => ?_)
      (Nat.le_trans hchecks hrequests)
    obtain ⟨-, hstarted⟩ | ⟨hother, -⟩ :=
      isCheckStarted_or_isEnd_of_counted (beq_iff_eq.mp hcounted)
    · exact hstarted
    · exact absurd he hother
  · -- Of a new handle no call waits, so no more calls end than arrive.
    have hends : ((new content isRaw).chronicle inputs).countP Happening.isEnd
        ≤ ((new content isRaw).chronicle inputs).countP Happening.isCall :=
      Nat.le_trans (Nat.le_add_right _ _) (Nat.le_of_eq hended)
    refine Nat.le_trans (List.countP_mono_left fun happening _ hcounted => ?_) hends
    obtain ⟨heq, -⟩ | ⟨-, hend⟩ := isCheckStarted_or_isEnd_of_counted (beq_iff_eq.mp hcounted)
    · exact absurd heq he
    · exact hend

/-- **A counter is the number of what happened and is counted by it.** -/
theorem get_counters_run (content : ByteArray) (isRaw : Bool) (inputs : List (Input A D))
    (e : CounterEvent) :
    ((new content isRaw).run inputs).counters.get e
      = UInt64.ofNat (((new content isRaw).chronicle inputs).countP (·.counted == some e)) := by
  rw [(tallies_run (new content isRaw) inputs).counters]
  show (List.foldl Counters.record .zero _).get e = _
  rw [Counters.get_foldl_record, List.count_filterMap]

/-! ### What was built is there -/

/-- The success of a build is noticed. -/
theorem built_noticed_of_completes {h : Handle A D} {input : Input A D} {target : BuildTarget}
    (hcompletes : h.Completes input target) :
    (h.noticed input).filterMap Happening.built? = [target] := by
  cases hcompletes with
  | digest level value rest hinput hpending =>
      subst hinput
      simp only [noticed, answerBuild, hpending]
      rfl
  | decoder value rest hinput hpending =>
      subst hinput
      simp only [noticed, answerDecoder, hpending]
      rfl

/-- A step without a build says of nothing that it was built. -/
private theorem built_upshot (p : Progress A D) (pending : List Pending) (request : Request) :
    (p.upshot pending request false).filterMap Happening.built? = [] := by
  cases p with
  | replied reply => cases request <;> cases reply <;> rfl
  | waiting => rcases pending with _ | ⟨⟨_ | _ | _, _ | _⟩, rest⟩ <;> rfl

/-- Nothing but the success of a build is noticed as one. -/
theorem built_noticed_of_not {h : Handle A D} {input : Input A D}
    (hnone : ∀ target, ¬h.Completes input target) :
    (h.noticed input).filterMap Happening.built? = [] := by
  have hreacts := h.reacts input
  generalize h.step input = h', h.noticed input = told at hreacts ⊢
  cases hreacts with
  | called request => exact built_upshot _ _ request
  | checked request rest verdict hpending => exact built_upshot _ _ request
  | built level rest verdict hpending =>
      cases verdict with
      | success value => exact absurd (.digest level value rest rfl hpending) (hnone _)
      | failed e =>
          simp only [answerBuild, hpending]
          rfl
      | panicked text =>
          simp only [answerBuild, hpending]
          rfl
  | builtDecoder rest verdict hpending =>
      cases verdict with
      | success value => exact absurd (.decoder value rest rfl hpending) (hnone _)
      | failed e =>
          simp only [answerDecoder, hpending]
          rfl
      | panicked text =>
          simp only [answerDecoder, hpending]
          rfl
  | prefixTaken => rfl
  | ignored => rfl

/-- An input completes no build, or one that was pending. -/
theorem completes_or_not (h : Handle A D) (input : Input A D) :
    (∀ target, ¬h.Completes input target)
      ∨ ∃ target, h.Completes input target ∧ target ∈ h.underway := by
  cases h.step_change input with
  | quiet _ _ _ hnone => exact Or.inl hnone
  | taken _ _ _ _ _ hnone => exact Or.inl hnone
  | released _ _ _ _ hnone => exact Or.inl hnone
  | built target _ hunderway _ _ hcompletes =>
      exact Or.inr ⟨target, hcompletes, hunderway ▸ List.mem_cons_self⟩

/-- **The targets that were built are the slots that are filled**, and none was built twice. -/
theorem fills_run (content : ByteArray) (isRaw : Bool) (inputs : List (Input A D)) :
    (((new content isRaw).chronicle inputs).filterMap Happening.built?).Nodup
      ∧ ∀ target, target ∈ ((new content isRaw).chronicle inputs).filterMap Happening.built?
        ↔ (((new content isRaw).run inputs).slotAt target).built.isSome := by
  induction inputs using List.reverseRecOn with
  | nil =>
      refine ⟨List.nodup_nil, fun target => ?_⟩
      rw [(consistent_run content isRaw []).built]
      exact iff_of_false List.not_mem_nil (not_succeeded_nil _ target)
  | append_singleton inputs input ih =>
      obtain ⟨hnodup, hmem⟩ := ih
      have hbefore := consistent_run content isRaw inputs
      have hafter := consistent_run content isRaw (inputs ++ [input])
      rw [chronicle_concat, List.filterMap_append]
      obtain hnone | ⟨target, hcompletes, hpending⟩ := completes_or_not _ input
      · rw [built_noticed_of_not hnone, List.append_nil]
        refine ⟨hnodup, fun other => ?_⟩
        rw [hafter.built, succeeded_concat, or_iff_left (hnone other), ← hbefore.built, hmem]
      · rw [built_noticed_of_completes hcompletes]
        constructor
        · -- The slot of a pending build is empty, so its target was not built before.
          have hnew : target ∉ ((new content isRaw).chronicle inputs).filterMap Happening.built? := by
            rw [hmem, hbefore.unbuilt target hpending]
            exact Bool.false_ne_true
          exact List.nodup_append.mpr ⟨hnodup, List.pairwise_singleton _ target,
            fun other hother _ hlast heq => hnew (List.mem_singleton.mp hlast ▸ heq ▸ hother)⟩
        · intro other
          rw [hafter.built, succeeded_concat, List.mem_append, List.mem_singleton, hmem,
            ← hbefore.built]
          refine or_congr_right ⟨?_, fun hother => hcompletes.unique hother⟩
          rintro rfl
          exact hcompletes

/-- The levels that are listed as cached are those whose slots are filled. -/
theorem mem_cachedLevels_run (content : ByteArray) (isRaw : Bool) (inputs : List (Input A D))
    (level : Int32) :
    level ∈ ((new content isRaw).run inputs).cachedLevels
      ↔ (((new content isRaw).run inputs).slotAt (.level level)).built.isSome := by
  have hdistinct : ((new content isRaw : Handle A D).run inputs).Distinct :=
    (continues_run _ inputs).distinct List.nodup_nil
  rw [mem_cachedLevels_iff hdistinct, slotAt, Slot.isSome_built_map]

theorem isSome_built_slotAt_decoder (h : Handle A D) :
    (h.slotAt .decoder).built.isSome = h.decoder.built.isSome :=
  Slot.isSome_built_map Sum.inr h.decoder

end Handle

/-- The level of a target. -/
def BuildTarget.level? : BuildTarget → Option Int32
  | .level chosen => some chosen
  | .decoder => none

theorem BuildTarget.level?_eq_some_iff {target : BuildTarget} {level : Int32} :
    target.level? = some level ↔ target = .level level := by
  cases target <;> simp [level?]

/-- A level was built exactly if that is counted. -/
theorem Happening.isSome_builtLevel (happening : Happening A D) :
    (happening.built?.bind BuildTarget.level?).isSome
      = (happening.counted == some .digestBuilt) := by
  cases happening with
  | returned request reply afterBuild =>
      cases request <;> cases reply <;> cases afterBuild <;> rfl
  | _ => rfl

/-- The decoder's digest was built exactly if that is counted. -/
theorem Happening.built?_eq_decoder (happening : Happening A D) :
    (happening.built? == some .decoder) = (happening.counted == some .decoderBuilt) := by
  cases happening with
  | returned request reply afterBuild =>
      cases request <;> cases reply <;> cases afterBuild <;> rfl
  | _ => rfl

namespace Handle

/-- **As many digests were built as levels are cached.** -/
theorem length_cachedLevels_run (content : ByteArray) (isRaw : Bool) (inputs : List (Input A D)) :
    ((new content isRaw).run inputs).cachedLevels.length
      = ((new content isRaw).chronicle inputs).countP (·.counted == some .digestBuilt) := by
  obtain ⟨hnodup, hmem⟩ := fills_run content isRaw inputs
  have hdistinct : ((new content isRaw).run inputs).Distinct :=
    (continues_run _ inputs).distinct List.nodup_nil
  -- Neither list has an entry twice, so it is enough that they have the same entries.
  have hsame : ((new content isRaw).run inputs).cachedLevels.Perm
      ((((new content isRaw).chronicle inputs).filterMap Happening.built?).filterMap
        BuildTarget.level?) := by
    rw [List.perm_ext_iff_of_nodup]
    · intro level
      rw [mem_cachedLevels_run, ← hmem]
      constructor
      · exact fun htarget => List.mem_filterMap.mpr ⟨.level level, htarget, rfl⟩
      · intro hlevel
        obtain ⟨target, htarget, heq⟩ := List.mem_filterMap.mp hlevel
        exact BuildTarget.level?_eq_some_iff.mp heq ▸ htarget
    · exact (pairwise_cachedLevels hdistinct).imp Int32.ne_of_lt
    · refine hnodup.filterMap fun target other level htarget hother => ?_
      rw [BuildTarget.level?_eq_some_iff.mp htarget, BuildTarget.level?_eq_some_iff.mp hother]
  rw [hsame.length_eq, List.filterMap_filterMap, List.length_filterMap_eq_countP]
  refine List.countP_congr fun happening _ => ?_
  rw [happening.isSome_builtLevel]

/-- **The decoder's digest was built once if it is there**, and otherwise never. -/
theorem countP_decoderBuilt_run (content : ByteArray) (isRaw : Bool) (inputs : List (Input A D)) :
    ((new content isRaw).chronicle inputs).countP (·.counted == some .decoderBuilt)
      = if ((new content isRaw).run inputs).decoder.built.isSome then 1 else 0 := by
  obtain ⟨hnodup, hmem⟩ := fills_run content isRaw inputs
  have hbuilt := hmem .decoder
  rw [isSome_built_slotAt_decoder] at hbuilt
  have hcount := hnodup.count (a := .decoder)
  rw [List.count_filterMap] at hcount
  simp only [Happening.built?_eq_decoder, hbuilt] at hcount
  exact hcount

/-! ### The account -/

end Handle

section Counted

variable (happening : Happening A D)

theorem Happening.counted_eq_undigestedLoad :
    (happening.counted == some .undigestedLoad) = happening.isUndigestedLoad := by
  cases happening with
  | returned request reply afterBuild =>
      cases request <;> cases reply <;> cases afterBuild <;> rfl
  | _ => rfl

theorem Happening.counted_eq_prefixLoad :
    (happening.counted == some .prefixLoad) = happening.isPrefixTaken := by
  cases happening with
  | returned request reply afterBuild =>
      cases request <;> cases reply <;> cases afterBuild <;> rfl
  | _ => rfl

theorem Happening.counted_eq_formatCheck :
    (happening.counted == some .formatCheck) = happening.isCheckStarted := by
  cases happening with
  | returned request reply afterBuild =>
      cases request <;> cases reply <;> cases afterBuild <;> rfl
  | _ => rfl

end Counted

namespace Handle

/-- A returned call for a digest is counted in exactly one of three ways. -/
theorem countP_isLookup (told : List (Happening A D)) :
    told.countP (·.counted == some .digestBuilt) + told.countP (·.counted == some .digestHit)
        + told.countP (·.counted == some .digestFailure)
      = told.countP Happening.isLookup := by
  induction told with
  | nil => rfl
  | cons happening told ih =>
      have hone : ∀ happening : Happening A D,
          (if happening.counted == some .digestBuilt then 1 else 0)
            + (if happening.counted == some .digestHit then 1 else 0)
            + (if happening.counted == some .digestFailure then 1 else 0)
          = if happening.isLookup then 1 else 0 := by
        intro happening
        cases happening with
        | returned request reply afterBuild =>
            cases request <;> cases reply <;> cases afterBuild <;> rfl
        | _ => rfl
      have hone := hone happening
      simp only [List.countP_cons]
      omega

/-- The counters and the reports of a handle account for what happened around it. -/
structure Accounts (h : Handle A D) (told : List (Happening A D)) : Prop where
  counted : ∀ e, (h.counters.get e).toNat = told.countP (·.counted == some e)
  reported : h.events.reverse = told.filterMap Happening.reported
  digestsBuilt : h.counters.digestsBuilt.toNat = h.cachedLevels.length
  lookups : h.counters.digestsBuilt.toNat + h.counters.digestHits.toNat
    + h.counters.digestFailures.toNat = told.countP Happening.isLookup
  decoderDigestsBuilt : h.counters.decoderDigestsBuilt.toNat
    = if h.decoder.built.isSome then 1 else 0
  undigestedLoads : h.counters.undigestedLoads.toNat = told.countP Happening.isUndigestedLoad
  prefixLoads : h.counters.prefixLoads.toNat = told.countP Happening.isPrefixTaken
  formatChecks : h.counters.formatChecks.toNat = told.countP Happening.isCheckStarted

/-- **As many digests are counted as levels are cached**, after any run. -/
theorem isSane_run (content : ByteArray) (isRaw : Bool) (inputs : List (Input A D)) :
    ((new content isRaw).run inputs).snapshot.isSane = true := by
  have hbuilt := get_counters_run content isRaw inputs .digestBuilt
  rw [← length_cachedLevels_run] at hbuilt
  exact beq_iff_eq.mpr hbuilt

/-- **The counters account for every run** whose calls a counter can hold. -/
theorem accounts_run (content : ByteArray) (isRaw : Bool) (inputs : List (Input A D))
    (hcalls : ((new content isRaw).chronicle inputs).countP Happening.isCall < 2 ^ 64) :
    ((new content isRaw).run inputs).Accounts ((new content isRaw).chronicle inputs) := by
  have hcounted : ∀ e, (((new content isRaw).run inputs).counters.get e).toNat
      = ((new content isRaw).chronicle inputs).countP (·.counted == some e) := by
    intro e
    rw [get_counters_run]
    -- No counter wraps around, as it counts no more than the calls.
    exact UInt64.toNat_ofNat_of_lt' (Nat.lt_of_le_of_lt (countP_counted_le _ _ _ e) hcalls)
  have hevents := (tallies_run (new content isRaw) inputs).events
  constructor
  · exact hcounted
  · rw [hevents, List.reverse_append, List.reverse_reverse]
    rfl
  · rw [length_cachedLevels_run]
    exact hcounted .digestBuilt
  · rw [← countP_isLookup, ← hcounted, ← hcounted, ← hcounted]
    rfl
  · rw [← countP_decoderBuilt_run]
    exact hcounted .decoderBuilt
  · refine (hcounted .undigestedLoad).trans (List.countP_congr fun happening _ => ?_)
    rw [happening.counted_eq_undigestedLoad]
  · refine (hcounted .prefixLoad).trans (List.countP_congr fun happening _ => ?_)
    rw [happening.counted_eq_prefixLoad]
  · refine (hcounted .formatCheck).trans (List.countP_congr fun happening _ => ?_)
    rw [happening.counted_eq_formatCheck]

/-- The three ways in which a call for the digest of a level returns: what it counts as, what is
reported of it, and how grave that is. -/
inductive LookedUp (level : Int32) :
    Reply A D → Bool → CounterEvent → HandleEvent → String → Prop
  | built (artifact : Built A) :
      LookedUp level (.digested level artifact) true .digestBuilt (.digestBuilt level) "DEBUG"
  | hit (artifact : Built A) :
      LookedUp level (.digested level artifact) false .digestHit (.digestHit level) "TRACE"
  | failed (e : DictError) (afterBuild : Bool) :
      LookedUp level (.failed e) afterBuild .digestFailure (.digestFailed level e) "WARN"

/-- The text of a report begins with how grave it is. -/
theorem LookedUp.eventText {level : Int32} {reply : Reply A D} {afterBuild : Bool}
    {counted : CounterEvent} {reported : HandleEvent} {severity : String}
    (hlooked : LookedUp level reply afterBuild counted reported severity) (h : Handle A D) :
    ∃ rest, h.eventText reported = severity ++ rest := by
  -- The texts are cut once, and with `change` the text of the event stays as it is written.
  have hdebug : "DEBUG materialized digested dictionary"
      = "DEBUG" ++ " materialized digested dictionary" := by decide +kernel
  have htrace : "TRACE digested dictionary cache hit"
      = "TRACE" ++ " digested dictionary cache hit" := by decide +kernel
  have hwarn : "WARN digested dictionary unavailable"
      = "WARN" ++ " digested dictionary unavailable" := by decide +kernel
  cases hlooked with
  | built =>
      apply Exists.intro
      change "DEBUG materialized digested dictionary" ++ _ ++ _ ++ _ = _
      rw [hdebug, String.append_assoc, String.append_assoc, String.append_assoc]
  | hit =>
      apply Exists.intro
      change "TRACE digested dictionary cache hit" ++ _ ++ _ = _
      rw [htrace, String.append_assoc, String.append_assoc]
  | failed =>
      apply Exists.intro
      change "WARN digested dictionary unavailable" ++ _ ++ _ ++ _ ++ _ = _
      rw [hwarn, String.append_assoc, String.append_assoc, String.append_assoc, String.append_assoc]

/-- **A call for a digest that returns counts once and is reported once.** -/
theorem exists_lookedUp {level : Int32} {reply : Reply A D}
    (hreturns : Reply.Returns (.digested level) reply) (afterBuild : Bool) :
    ∃ counted reported severity, LookedUp level reply afterBuild counted reported severity
      ∧ (Happening.returned (.digested level) reply afterBuild).counted = some counted
      ∧ (Happening.returned (.digested level) reply afterBuild).reported = some reported := by
  cases hreturns with
  | digested _ artifact =>
      cases afterBuild with
      | true => exact ⟨_, _, _, .built artifact, rfl, rfl⟩
      | false => exact ⟨_, _, _, .hit artifact, rfl, rfl⟩
  | failed _ e => exact ⟨_, _, _, .failed e afterBuild, rfl, rfl⟩

/-- **The counters of a dictionary account for its calls.**  After every run of a new handle there are
as many built digests counted as levels cached.  Every call for a digest that returned counts as
exactly one of built, found or failed, and exactly one report says so; a call that broke off neither
counts nor is reported.  The other counters are what their names say.

What demands do is such a run, whatever the engine: it is that of the calls that are made and of the
engine's answers, and as many format checks are counted as the engine was asked for. -/
theorem accounts (content : ByteArray) (isRaw : Bool) :
    (∀ inputs : List (Input A D),
      ((new content isRaw).run inputs).snapshot.isSane = true
      ∧ (((new content isRaw).chronicle inputs).countP Happening.isCall < 2 ^ 64 →
        ((new content isRaw).run inputs).Accounts ((new content isRaw).chronicle inputs))
      ∧ (∀ level reply afterBuild,
        .returned (.digested level) reply afterBuild ∈ (new content isRaw).chronicle inputs →
        ∃ counted reported severity, LookedUp level reply afterBuild counted reported severity
          ∧ (Happening.returned (.digested level) reply afterBuild).counted = some counted
          ∧ (Happening.returned (.digested level) reply afterBuild).reported = some reported
          ∧ ∃ rest, ((new content isRaw).run inputs).eventText reported = severity ++ rest)
      ∧ ∀ request text, (Happening.brokenOff request text : Happening A D).counted = none
          ∧ (Happening.brokenOff request text : Happening A D).reported = none)
    ∧ ∀ {σ : Type} (E : Engine σ A D) (state : σ) (demands : List Demand),
      let start : World (σ × List (Happening A D)) A D := ⟨.new content isRaw, state, []⟩
      let reached := start.after E.logged demands
      let told := (new content isRaw).chronicle (start.inputs E.logged demands)
      reached.through Prod.fst = World.after E ⟨.new content isRaw, state⟩ demands
      ∧ reached.handle = (new content isRaw).run (start.inputs E.logged demands)
      ∧ told.countP Happening.isCheckStarted = reached.engine.2.countP Happening.isCheckStarted
      ∧ (∀ depth request, ∃ middle afterBuild,
        reached.handle.chronicle (serveInputs E.logged (depth + 1) request reached)
          = .called request :: middle
            ++ [(serve E.logged (depth + 1) request reached).1.ending request afterBuild])
      ∧ ∀ depth mode level,
        (view E.logged depth mode level reached).2
            = reached.meet E.logged (.ofMode depth (.digested level) mode)
          ∧ (viewForDecompression E.logged depth mode reached).2
            = reached.meet E.logged (.ofMode depth .decoder mode) := by
  constructor
  · intro inputs
    refine ⟨isSane_run content isRaw inputs, accounts_run content isRaw inputs, ?_, ?_⟩
    · intro level reply afterBuild hreturned
      obtain ⟨counted, reported, severity, hlooked, hcounted, hreported⟩ :=
        exists_lookedUp (returns_chronicle _ inputs hreturned) afterBuild
      exact ⟨counted, reported, severity, hlooked, hcounted, hreported, hlooked.eventText _⟩
    · exact fun request text => ⟨rfl, rfl⟩
  · intro σ E state demands start reached told
    obtain ⟨hfollows, hpending⟩ := follows_after E start rfl demands
    refine ⟨(after_covered (logged_covers E) start demands).symm, hfollows.run, ?_, ?_, ?_⟩
    · have hlog : reached.engine.2 = told.filter Happening.ofEngine := hfollows.log
      rw [hlog, List.countP_filter]
      refine List.countP_congr fun happening _ => ?_
      cases happening <;> rfl
    · intro depth request
      refine chronicle_serve E depth request reached ?_
      unfold World.Building
      rw [hpending]
      exact List.forall_mem_nil _
    · exact fun depth mode level =>
        ⟨world_view E.logged depth mode level reached,
          world_viewForDecompression E.logged depth mode reached⟩

end Handle

end SharedDictionary
