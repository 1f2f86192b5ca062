import SharedDictionary.Proofs.Handle.Lifecycle

/-!
# The chronicle of a run

A handle forgets how it came to its counters, its reports and its remembered format.  What happened
around it can be read off the run: calls arrive and return, the engine is asked and answers
(`Happening`).  Each input makes some of that happen (`Handle.noticed`), and a run has made happen
what its inputs did, in order (`Handle.chronicle`).

A call that waits lies on the stack until it ends.  What a step leaves on the stack is said once, for
the functions that a step is made of (`Leaves`), and so is what a call finds (`Finds`).
-/

namespace SharedDictionary

variable {A D : Type}

/-- What happens around a handle. -/
inductive Happening (A D : Type) where
  | called (request : Request)
  | prefixTaken
  | checkStarted
  | checkEnded (verdict : Verdict Unit)
  | buildStarted (target : BuildTarget)
  /-- A call returned, at the end of its own build or without one. -/
  | returned (request : Request) (reply : Reply A D) (afterBuild : Bool)
  | brokenOff (request : Request) (text : String)
  /-- A call waits for a build that waits for the call. -/
  | stuck (request : Request)

/-- The end of a call: it returns only if it is neither broken off nor blocked. -/
def Reply.ending (reply : Reply A D) (request : Request) (afterBuild : Bool) : Happening A D :=
  match reply with
  | .panicked text => .brokenOff request text
  | .blocked => .stuck request
  | reply => .returned request reply afterBuild

/-- What a call that waits makes the engine start. -/
def Pending.starts (p : Pending) : List (Happening A D) :=
  match p.stage with
  | .checking => [.checkStarted]
  | .building => p.request.target?.toList.map .buildStarted

/-- What a step of a request comes to: its call ends, or the engine starts what it waits for. -/
def Progress.upshot (p : Progress A D) (pending : List Pending) (request : Request)
    (afterBuild : Bool) : List (Happening A D) :=
  match p with
  | .replied reply => [reply.ending request afterBuild]
  | .waiting => pending.head?.elim [] Pending.starts

/-- A request returns with a reply: it gets what it asked for, or it fails. -/
inductive Reply.Returns : Request → Reply A D → Prop
  | digested (level : Int32) (artifact : Built A) :
      Returns (.digested level) (.digested level artifact)
  | undigested : Returns .undigested .undigested
  | decoder (artifact : Built D) : Returns .decoder (.decoder artifact)
  | failed (request : Request) (e : DictError) : Returns request (.failed e)

/-- A request ends with a reply, whether or not it returns. -/
inductive Reply.Ends (request : Request) : Reply A D → Prop
  | returned (reply : Reply A D) (hreturns : Reply.Returns request reply) : Ends request reply
  | panicked (text : String) : Ends request (.panicked text)
  | blocked : Ends request .blocked

namespace Handle

/-- What an input makes happen. -/
def noticed (h : Handle A D) (input : Input A D) : List (Happening A D) :=
  match input with
  | .call request =>
    .called request :: (h.call request).2.upshot (h.call request).1.pending request false
  | .checked verdict =>
    match h.pending with
    | ⟨request, .checking⟩ :: _ =>
      .checkEnded verdict
        :: (h.answerCheck verdict).2.upshot (h.answerCheck verdict).1.pending request false
    | _ => []
  | .built verdict =>
    match h.pending with
    | ⟨.digested level, .building⟩ :: _ =>
      (h.answerBuild verdict).2.upshot (h.answerBuild verdict).1.pending (.digested level) true
    | _ => []
  | .builtDecoder verdict =>
    match h.pending with
    | ⟨.decoder, .building⟩ :: _ =>
      (h.answerDecoder verdict).2.upshot (h.answerDecoder verdict).1.pending .decoder true
    | _ => []
  | .prefixTaken => [.prefixTaken]

/-- What some inputs make happen, in order. -/
def chronicle (h : Handle A D) (inputs : List (Input A D)) : List (Happening A D) :=
  match inputs with
  | [] => []
  | input :: inputs => h.noticed input ++ (h.step input).chronicle inputs

theorem chronicle_append (h : Handle A D) (first second : List (Input A D)) :
    h.chronicle (first ++ second) = h.chronicle first ++ (h.run first).chronicle second := by
  induction first generalizing h with
  | nil => rfl
  | cons input first ih =>
      show h.noticed input ++ (h.step input).chronicle (first ++ second) = _
      rw [ih, ← List.append_assoc]
      rfl

theorem chronicle_singleton (h : Handle A D) (input : Input A D) :
    h.chronicle [input] = h.noticed input := List.append_nil _

theorem chronicle_concat (h : Handle A D) (inputs : List (Input A D)) (input : Input A D) :
    h.chronicle (inputs ++ [input]) = h.chronicle inputs ++ (h.run inputs).noticed input := by
  rw [chronicle_append, chronicle_singleton]

/-- How a handle reacts to an input: a call is taken up, an answer reaches the call that waits for it,
and an answer that no call waits for is ignored. -/
inductive Reacts (h : Handle A D) : Input A D → Handle A D → List (Happening A D) → Prop
  | called (request : Request) :
      Reacts h (.call request) (h.call request).1
        (.called request :: (h.call request).2.upshot (h.call request).1.pending request false)
  | checked (request : Request) (rest : List Pending) (verdict : Verdict Unit)
      (hpending : h.pending = ⟨request, .checking⟩ :: rest) :
      Reacts h (.checked verdict) (h.answerCheck verdict).1
        (.checkEnded verdict
          :: (h.answerCheck verdict).2.upshot (h.answerCheck verdict).1.pending request false)
  | built (level : Int32) (rest : List Pending) (verdict : Verdict A)
      (hpending : h.pending = ⟨.digested level, .building⟩ :: rest) :
      Reacts h (.built verdict) (h.answerBuild verdict).1
        ((h.answerBuild verdict).2.upshot (h.answerBuild verdict).1.pending (.digested level) true)
  | builtDecoder (rest : List Pending) (verdict : Verdict D)
      (hpending : h.pending = ⟨.decoder, .building⟩ :: rest) :
      Reacts h (.builtDecoder verdict) (h.answerDecoder verdict).1
        ((h.answerDecoder verdict).2.upshot (h.answerDecoder verdict).1.pending .decoder true)
  | prefixTaken : Reacts h .prefixTaken h.takePrefix [.prefixTaken]
  | ignored (input : Input A D) : Reacts h input h []

/-- **How a handle reacts to an input.** -/
theorem reacts (h : Handle A D) (input : Input A D) :
    h.Reacts input (h.step input) (h.noticed input) := by
  cases input with
  | call request => exact .called request
  | prefixTaken => exact .prefixTaken
  | checked verdict =>
      unfold noticed
      dsimp only
      split
      · rename_i request rest hpending
        exact .checked request rest verdict hpending
      · rename_i hidle
        have hsame : h.step (.checked verdict) = h := by
          simp only [step, answerCheck]
        rw [hsame]
        exact .ignored _
  | built verdict =>
      unfold noticed
      dsimp only
      split
      · rename_i level rest hpending
        exact .built level rest verdict hpending
      · rename_i hidle
        have hsame : h.step (.built verdict) = h := by
          simp only [step, answerBuild]
        rw [hsame]
        exact .ignored _
  | builtDecoder verdict =>
      unfold noticed
      dsimp only
      split
      · rename_i rest hpending
        exact .builtDecoder rest verdict hpending
      · rename_i hidle
        have hsame : h.step (.builtDecoder verdict) = h := by
          simp only [step, answerDecoder]
        rw [hsame]
        exact .ignored _

/-! ### What a call finds -/

/-- Takes the slot that a request is about, if there is one. -/
def take (h : Handle A D) (request : Request) : Handle A D :=
  match request with
  | .digested level => h.setSlot level ⟨none, true⟩
  | .undigested => h
  | .decoder => { h with decoder := ⟨none, true⟩ }

/-- What a call finds, and what it comes to: an artifact, a slot that is held, or a slot that it takes
before it looks at the format. -/
inductive Finds (h : Handle A D) : Request → Handle A D × Progress A D → Prop
  | digest (level : Int32) (artifact : Built A) (hbuilt : (h.slotOf level).built = some artifact) :
      Finds h (.digested level)
        ((h.count .digestHit).report (.digestHit level), .replied (.digested level artifact))
  | decoder (artifact : Built D) (hbuilt : h.decoder.built = some artifact) :
      Finds h .decoder (h, .replied (.decoder artifact))
  | held (request : Request) (target : BuildTarget) (htarget : request.target? = some target)
      (hheld : (h.slotAt target).building = true) : Finds h request (h, .replied .blocked)
  | vacant (request : Request)
      (hvacant : ∀ target, request.target? = some target → h.slotAt target = .vacant) :
      Finds h request ((h.take request).ensureFormat request)

/-- **What a call finds.** -/
theorem finds_call (h : Handle A D) (request : Request) : h.Finds request (h.call request) := by
  cases request with
  | undigested => exact .vacant .undigested fun _ htarget => by cases htarget
  | decoder =>
      rcases hslot : h.decoder with ⟨_ | artifact, building⟩
      · cases building with
        | true =>
            rw [h.call_decoder_of_building hslot]
            exact .held .decoder .decoder rfl (by rw [slotAt, hslot]; rfl)
        | false =>
            rw [h.call_decoder_of_vacant hslot]
            refine .vacant .decoder fun target htarget => ?_
            cases htarget
            rw [slotAt, hslot]
            rfl
      · have hbuilt : h.decoder.built = some artifact := by rw [hslot]
        rw [h.call_decoder_of_built hbuilt]
        exact .decoder artifact hbuilt
  | digested level =>
      rcases hslot : h.slotOf level with ⟨_ | artifact, building⟩
      · cases building with
        | true =>
            rw [h.call_digested_of_building hslot]
            exact .held (.digested level) (.level level) rfl (by rw [slotAt, hslot]; rfl)
        | false =>
            rw [h.call_digested_of_vacant hslot]
            refine .vacant (.digested level) fun target htarget => ?_
            cases htarget
            rw [slotAt, hslot]
            rfl
      · have hbuilt : (h.slotOf level).built = some artifact := by rw [hslot]
        rw [h.call_digested_of_built hbuilt]
        exact .digest level artifact hbuilt

@[simp] theorem pending_take (h : Handle A D) (request : Request) :
    (h.take request).pending = h.pending := by
  cases request <;> rfl

@[simp] theorem format_take (h : Handle A D) (request : Request) :
    (h.take request).format = h.format := by
  cases request <;> rfl

/-! ### What a step leaves on the stack -/

/-- A step ends a request that is not on the stack any more. -/
def Ends (request : Request) (rest : List Pending) (result : Handle A D × Progress A D) : Prop :=
  ∃ reply : Reply A D, result.2 = .replied reply ∧ Reply.Ends request reply ∧ result.1.pending = rest

/-- A step ends a request, or its build is on the stack. -/
inductive Settles (request : Request) (rest : List Pending) (result : Handle A D × Progress A D) :
    Prop
  | ended (hends : Ends request rest result)
  | building (target : BuildTarget) (htarget : request.target? = some target)
      (hwaiting : result.2 = .waiting) (hpending : result.1.pending = ⟨request, .building⟩ :: rest)

/-- A step ends a request, or leaves it on the stack. -/
inductive Leaves (request : Request) (rest : List Pending) (result : Handle A D × Progress A D) :
    Prop
  | settled (hsettles : Settles request rest result)
  | checking (hwaiting : result.2 = .waiting)
      (hpending : result.1.pending = ⟨request, .checking⟩ :: rest)

theorem ends_fail (h : Handle A D) (request : Request) (e : DictError) :
    Ends request h.pending (h.fail request e) := by
  cases request <;> exact ⟨.failed e, rfl, .returned _ (.failed _ e), rfl⟩

theorem ends_breakOff (h : Handle A D) (request : Request) (text : String) :
    Ends request h.pending (h.breakOff request text) := by
  cases request <;> exact ⟨.panicked text, rfl, .panicked text, rfl⟩

theorem settles_pass (h : Handle A D) (request : Request) :
    Settles request h.pending (h.pass request) := by
  cases request with
  | digested level => exact .building (.level level) rfl rfl rfl
  | decoder => exact .building .decoder rfl rfl rfl
  | undigested => exact .ended ⟨.undigested, rfl, .returned _ .undigested, rfl⟩

theorem leaves_ensureFormat (h : Handle A D) (request : Request) :
    Leaves request h.pending (h.ensureFormat request) := by
  unfold ensureFormat
  split
  · exact .settled (h.settles_pass request)
  · exact .settled (.ended (h.ends_fail request _))
  · exact .checking rfl rfl

/-- **A call ends or goes onto the stack.** -/
theorem leaves_call (h : Handle A D) (request : Request) :
    Leaves request h.pending (h.call request) := by
  have hfinds := h.finds_call request
  generalize h.call request = result at hfinds ⊢
  cases hfinds with
  | digest level artifact => exact .settled (.ended ⟨_, rfl, .returned _ (.digested level artifact), rfl⟩)
  | decoder artifact => exact .settled (.ended ⟨_, rfl, .returned _ (.decoder artifact), rfl⟩)
  | held => exact .settled (.ended ⟨_, rfl, .blocked, rfl⟩)
  | vacant =>
      rw [← h.pending_take request]
      exact (h.take request).leaves_ensureFormat request

variable {h : Handle A D} {rest : List Pending}

/-- The answer of a format check ends the request that waits for it, or starts its build. -/
theorem settles_answerCheck {request : Request} (hpending : h.pending = ⟨request, .checking⟩ :: rest)
    (verdict : Verdict Unit) : Settles request rest (h.answerCheck verdict) := by
  simp only [answerCheck, hpending]
  rcases verdict with ⟨⟨⟩⟩ | e | text
  · exact settles_pass { h with pending := rest, format := some (.ok ()) } request
  · exact .ended (ends_fail { h with pending := rest, format := some (.error e) } request e)
  · exact .ended (ends_breakOff { h with pending := rest } request text)

/-- The answer of a build ends the request that waits for it. -/
theorem ends_answerBuild {level : Int32} (hpending : h.pending = ⟨.digested level, .building⟩ :: rest)
    (verdict : Verdict A) : Ends (.digested level) rest (h.answerBuild verdict) := by
  simp only [answerBuild, hpending]
  cases verdict with
  | success value => exact ⟨_, rfl, .returned _ (.digested level _), rfl⟩
  | failed e => exact ends_fail _ _ e
  | panicked text => exact ends_breakOff _ _ text

/-- The answer of the decoder's build ends the request that waits for it. -/
theorem ends_answerDecoder (hpending : h.pending = ⟨.decoder, .building⟩ :: rest)
    (verdict : Verdict D) : Ends .decoder rest (h.answerDecoder verdict) := by
  simp only [answerDecoder, hpending]
  cases verdict with
  | success value => exact ⟨_, rfl, .returned _ (.decoder _), rfl⟩
  | failed e => exact ends_fail _ _ e
  | panicked text => exact ends_breakOff _ _ text

/-- A step of a request returns only a reply that the request can have. -/
theorem Leaves.returns {request : Request} {result : Handle A D × Progress A D}
    (hleaves : Leaves request rest result) {afterBuild : Bool} {other : Request}
    {reply : Reply A D} {own : Bool}
    (hreturned : .returned other reply own
      ∈ result.2.upshot result.1.pending request afterBuild) : Reply.Returns other reply := by
  cases hleaves with
  | checking hwaiting hpending =>
      rw [hwaiting, hpending] at hreturned
      cases List.mem_singleton.mp hreturned
  | settled hsettles =>
      cases hsettles with
      | building target htarget hwaiting hpending =>
          rw [hwaiting, hpending] at hreturned
          simp [Progress.upshot, Pending.starts, htarget] at hreturned
      | ended hends =>
          obtain ⟨given, hreplied, hend, -⟩ := hends
          rw [hreplied] at hreturned
          cases hend with
          | returned _ hreturns =>
              cases hreturns <;> cases List.mem_singleton.mp hreturned <;> constructor
          | panicked text => cases List.mem_singleton.mp hreturned
          | blocked => cases List.mem_singleton.mp hreturned

/-- **A call that returns has a reply that its request can have.** -/
theorem returns_chronicle (h : Handle A D) (inputs : List (Input A D)) {request : Request}
    {reply : Reply A D} {afterBuild : Bool}
    (hreturned : .returned request reply afterBuild ∈ h.chronicle inputs) :
    Reply.Returns request reply := by
  induction inputs generalizing h with
  | nil => cases hreturned
  | cons input inputs ih =>
      obtain hnow | hlater := List.mem_append.mp hreturned
      · have hreacts := h.reacts input
        generalize h.step input = h', h.noticed input = told at hreacts hnow
        cases hreacts with
        | called asked =>
            obtain heq | hmem := List.mem_cons.mp hnow
            · cases heq
            · exact (h.leaves_call asked).returns hmem
        | checked asked rest verdict hpending =>
            obtain heq | hmem := List.mem_cons.mp hnow
            · cases heq
            · exact (Leaves.settled (settles_answerCheck hpending verdict)).returns hmem
        | built level rest verdict hpending =>
            exact (Leaves.settled (.ended (ends_answerBuild hpending verdict))).returns hnow
        | builtDecoder rest verdict hpending =>
            exact (Leaves.settled (.ended (ends_answerDecoder hpending verdict))).returns hnow
        | prefixTaken => cases List.mem_singleton.mp hnow
        | ignored => cases hnow
      · exact ih (h.step input) hlater

/-! ### Undisturbed checks -/

/-- The topmost call waits for a format check. -/
def Checking (h : Handle A D) : Prop := ∃ request rest, h.pending = ⟨request, .checking⟩ :: rest

/-- No call arrives while the engine checks the format. -/
def Undisturbed (h : Handle A D) (inputs : List (Input A D)) : Prop :=
  match inputs with
  | [] => True
  | input :: inputs =>
    (h.Checking → ∀ request, input ≠ .call request) ∧ (h.step input).Undisturbed inputs

theorem undisturbed_append (h : Handle A D) (first second : List (Input A D)) :
    h.Undisturbed (first ++ second) ↔ h.Undisturbed first ∧ (h.run first).Undisturbed second := by
  induction first generalizing h with
  | nil => exact (and_iff_right trivial).symm
  | cons input first ih =>
      show _ ∧ (h.step input).Undisturbed (first ++ second) ↔ _
      rw [ih, ← and_assoc]
      exact Iff.rfl

end Handle

end SharedDictionary
