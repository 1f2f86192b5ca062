import SharedDictionary.Handle.ScriptedEngine
import SharedDictionary.Proofs.Handle.FormatCheck
import SharedDictionary.Proofs.Handle.Resemblance

/-!
# Calls that fail

A call for an artifact takes a slot, may make sure of the format, and gives the slot back if it fails or breaks
off.  What it leaves behind is the format that it has made sure of, and what was counted: the check, and the
failure of a digest if the call returned (`Handle.toll`).  Up to these, the handle is like the one that the call
has met (`Handle.alike_fail`, `Handle.alike_breakOff`).  So whatever reaches it later, nothing tells that the
call was made (`Handle.Untouched`), and the next call for the same artifact builds again (`Handle.Retries`).

The main result is `Handle.failure_unnoticed`.
-/

namespace SharedDictionary

variable {σ A D : Type}

/-! ### Requests and the stack -/

/-- A request that is opened has ended, or waits for its build. -/
theorem settles_opened (E : Engine σ A D) (w : World σ A D) (request : Request) :
    Handle.Settles request w.handle.pending
      ((w.opened E request).1.handle, (w.opened E request).2) := by
  have hleaves := w.handle.leaves_call request
  unfold World.opened
  generalize w.handle.call request = result at hleaves ⊢
  obtain ⟨h, p⟩ := result
  cases hleaves with
  | settled hsettles =>
      cases hsettles with
      | ended hends =>
          obtain ⟨reply, hreplied, hend, hpending⟩ := hends
          cases hreplied
          exact .ended ⟨reply, rfl, hend, hpending⟩
      | building target htarget hwaiting hpending =>
          cases hwaiting
          dsimp only at hpending
          simp only [settleCheck, hpending]
          exact .building target htarget rfl hpending
  | checking hwaiting hpending =>
      cases hwaiting
      dsimp only at hpending
      simp only [settleCheck, hpending]
      exact Handle.settles_answerCheck hpending _

/-- The start of a build leaves the handle as it is. -/
@[simp] theorem handle_startBuild (E : Engine σ A D) (w : World σ A D) :
    (startBuild E w).2.handle = w.handle := by
  unfold startBuild
  split <;> rfl

/-- The end of a build takes it off the stack. -/
theorem pending_settleBuild (E : Engine σ A D) {w : World σ A D} {request : Request} {target : BuildTarget}
    {rest : List Pending} (htarget : request.target? = some target)
    (hpending : w.handle.pending = ⟨request, .building⟩ :: rest) (brokenOff : Option String) :
    (settleBuild E w brokenOff).1.handle.pending = rest := by
  cases request with
  | undigested => cases htarget
  | digested level =>
      have hends : ∀ verdict, (w.handle.answerBuild verdict).1.pending = rest := fun verdict => by
        obtain ⟨reply, -, -, hrest⟩ := Handle.ends_answerBuild hpending verdict
        exact hrest
      simp only [settleBuild, hpending]
      exact hends _
  | decoder =>
      have hends : ∀ verdict, (w.handle.answerDecoder verdict).1.pending = rest := fun verdict => by
        obtain ⟨reply, -, -, hrest⟩ := Handle.ends_answerDecoder hpending verdict
        exact hrest
      simp only [settleBuild, hpending]
      exact hends _

/-- Requests one after the other leave the stack as it was if each of them does. -/
theorem pending_requested (E : Engine σ A D) {depth : Nat}
    (hserve : ∀ request (w : World σ A D), (serve E depth request w).2.handle.pending = w.handle.pending)
    (levels : List Int32) (sofar : Option String × World σ A D) :
    (levels.foldl (requestNext E depth) sofar).2.handle.pending = sofar.2.handle.pending := by
  induction levels generalizing sofar with
  | nil => rfl
  | cons level levels ih =>
      have hnext : (requestNext E depth sofar level).2.handle.pending = sofar.2.handle.pending := by
        obtain ⟨_ | text, w⟩ := sofar
        · have hfirst := hserve (.digested level) w
          unfold requestNext
          rcases hreply : serve E depth (.digested level) w with ⟨reply, w'⟩
          rw [hreply] at hfirst
          cases reply <;> exact hfirst
        · rfl
      exact (ih _).trans hnext

/-- **A request leaves the stack as it was**, however deep its builds nest. -/
theorem pending_serve (E : Engine σ A D) (depth : Nat) (request : Request) (w : World σ A D) :
    (serve E depth request w).2.handle.pending = w.handle.pending := by
  induction depth generalizing request w with
  | zero => rfl
  | succ depth ih =>
      cases settles_opened E w request with
      | ended hends =>
          obtain ⟨reply, hreplied, -, hpending⟩ := hends
          rw [(serve_of_replied depth hreplied).1]
          exact hpending
      | building target htarget hwaiting hpending =>
          dsimp only at hwaiting hpending
          rw [(serve_of_waiting depth hwaiting).1]
          refine pending_settleBuild E htarget ((pending_requested E ih _ _).trans ?_) _
          rw [handle_startBuild, hpending]

/-! ### What a failing call leaves -/

/-- A slot is vacant if it is with its artifact taken for another. -/
theorem Slot.eq_vacant_of_map {α β : Type} {f : α → β} {slot : Slot α} (h : slot.map f = .vacant) :
    slot = .vacant := by
  obtain ⟨_ | artifact, building⟩ := slot
  · exact Slot.eq_vacant rfl (congrArg Slot.building h)
  · cases congrArg Slot.built h

/-- A call has failed or broken off. -/
inductive Reply.Fails : Reply A D → Prop
  | failed (e : DictError) : Fails (.failed e)
  | panicked (text : String) : Fails (.panicked text)

namespace Handle

/-- What a failing call adds to the counters: the check, if the format was not known, and the failure of a
digest, if the call returned. -/
def toll (h : Handle A D) (request : Request) (reply : Reply A D) : CounterEvent → UInt64
  | .formatCheck => if h.format.isNone then 1 else 0
  | .digestFailure =>
    match request, reply with
    | .digested _, .failed _ => 1
    | _, _ => 0
  | _ => 0

/-- The handle with another format remembered. -/
def remembering (h : Handle A D) (format : Option (Except DictError Unit)) : Handle A D :=
  { h with format := format }

/-- A handle whose slot a call has taken, and whose format the call has made sure of. -/
def begun (h : Handle A D) (request : Request) (format : Option (Except DictError Unit)) : Handle A D :=
  { h.take request with
    format := format
    counters := if h.format.isNone then h.counters.record .formatCheck else h.counters }

section Begun

variable {h : Handle A D} {request : Request} {format : Option (Except DictError Unit)}

/-- What is counted before a build is all that a call adds that breaks off. -/
theorem get_counters_begun (request : Request) (format : Option (Except DictError Unit)) (text : String)
    (e : CounterEvent) :
    (h.begun request format).counters.get e = h.counters.get e + h.toll request (.panicked text) e := by
  have hcounters : (h.begun request format).counters
      = if h.format.isNone then h.counters.record .formatCheck else h.counters := rfl
  have htoll : h.toll request (.panicked text) e
      = if e = .formatCheck ∧ h.format.isNone = true then 1 else 0 := by
    cases e <;> cases request <;> simp [toll]
  rw [hcounters, htoll]
  cases h.format.isNone with
  | true =>
      rw [if_pos rfl, Counters.get_record]
      cases e <;> first | rfl | exact (UInt64.add_zero _).symm
  | false =>
      rw [if_neg Bool.false_ne_true, if_neg (fun hboth => Bool.false_ne_true hboth.2)]
      exact (UInt64.add_zero _).symm

/-- A level that a call has taken and gives back has the slot that it had. -/
theorem slotOf_release_begun {level : Int32} (hvacant : h.slotOf level = .vacant) (other : Int32) :
    ((h.begun (.digested level) format).release level).slotOf other = h.slotOf other := by
  have htaken : ∀ other, (h.begun (.digested level) format).slotOf other
      = if other = level then ⟨none, true⟩ else h.slotOf other :=
    fun other => slotOf_setSlot h level other _
  have hown : ((h.begun (.digested level) format).slot? level).getD .vacant = ⟨none, true⟩ :=
    (htaken level).trans (if_pos rfl)
  rw [release, slotOf_setSlot, hown, htaken]
  split
  · rename_i hother
    rw [hother, hvacant]
    rfl
  · rfl

/-- **A slot that was taken and given back leaves the handle as it was**, but for the format and the check. -/
theorem alike_breakOff (hvacant : ∀ target, request.target? = some target → h.slotAt target = .vacant)
    (text : String) :
    (h.remembering format).Alike ((h.begun request format).breakOff request text).1
      (h.toll request (.panicked text)) := by
  have hcounters := h.get_counters_begun request format text
  cases request with
  | undigested => exact ⟨rfl, rfl, rfl, fun _ => rfl, rfl, rfl, rfl, hcounters⟩
  | digested level =>
      have hslot := Slot.eq_vacant_of_map (hvacant (.level level) rfl)
      exact ⟨rfl, rfl, rfl, slotOf_release_begun hslot, rfl, rfl, rfl, hcounters⟩
  | decoder =>
      have hslot := Slot.eq_vacant_of_map (hvacant .decoder rfl)
      exact ⟨rfl, rfl, rfl, fun _ => rfl, hslot.symm, rfl, rfl, hcounters⟩

/-- **So does a call that fails**; what is counted is the failure of a digest, too. -/
theorem alike_fail (hvacant : ∀ target, request.target? = some target → h.slotAt target = .vacant)
    (e : DictError) :
    (h.remembering format).Alike ((h.begun request format).fail request e).1
      (h.toll request (.failed e)) := by
  have hbreak : (h.remembering format).Alike ((h.begun request format).breakOff request "").1
      (h.toll request (.panicked "")) := alike_breakOff hvacant ""
  obtain ⟨hcontent, hraw, hformat, hslots, hdecoder, hpending, hstamp, hcounters⟩ := hbreak
  cases request with
  | undigested => exact ⟨hcontent, hraw, hformat, hslots, hdecoder, hpending, hstamp, hcounters⟩
  | decoder => exact ⟨hcontent, hraw, hformat, hslots, hdecoder, hpending, hstamp, hcounters⟩
  | digested level =>
      refine ⟨hcontent, hraw, hformat, hslots, hdecoder, hpending, hstamp, fun event => ?_⟩
      refine (Counters.get_record _ .digestFailure event).trans ?_
      have hcheck : ((h.begun (.digested level) format).release level).counters.get event
          = h.counters.get event + h.toll (.digested level) (.panicked "") event := hcounters event
      rw [hcheck]
      cases event <;> first | rfl | exact congrArg (· + 1) (UInt64.add_zero _)

end Begun

/-! ### How a failing call goes -/

/-- How a call opens that finds no artifact: it makes sure of the format, and goes on to its build, fails or
breaks off.  A format that is known stays as it is. -/
inductive Opens (h : Handle A D) (request : Request) : Handle A D × Progress A D → Prop
  | passed (hknown : ∀ result, h.format = some result → result = .ok ()) :
      Opens h request ((h.begun request (some (.ok ()))).pass request)
  | refused (e : DictError) (hknown : ∀ result, h.format = some result → result = .error e) :
      Opens h request ((h.begun request (some (.error e))).fail request e)
  | brokenOff (text : String) (hunknown : h.format = none) :
      Opens h request ((h.begun request none).breakOff request text)

theorem fail_snd (h : Handle A D) (request : Request) (e : DictError) :
    (h.fail request e).2 = .replied (.failed e) := by
  cases request <;> rfl

theorem breakOff_snd (h : Handle A D) (request : Request) (text : String) :
    (h.breakOff request text).2 = .replied (.panicked text) := by
  cases request <;> rfl

/-- A known format is not checked again. -/
theorem begun_of_some {h : Handle A D} {result : Except DictError Unit} (hformat : h.format = some result)
    (request : Request) : h.begun request (some result) = h.take request := by
  obtain ⟨content, isRaw, format, slots, decoder, counters, events, pending, nextStamp⟩ := h
  cases hformat
  cases request <;> rfl

/-- **How a call opens that finds no artifact.** -/
theorem opens_opened (E : Engine σ A D) {w : World σ A D} {request : Request}
    (hcall : w.handle.call request = (w.handle.take request).ensureFormat request) :
    w.handle.Opens request ((w.opened E request).1.handle, (w.opened E request).2) := by
  unfold World.opened
  rw [hcall]
  rcases hformat : w.handle.format with _ | e | ⟨⟨⟩⟩
  · have hensure : (w.handle.take request).ensureFormat request
        = (((w.handle.take request).count .formatCheck).push ⟨request, .checking⟩, .waiting) := by
      simp only [ensureFormat, format_take, hformat]
    rw [hensure]
    obtain ⟨⟨content, isRaw, format, slots, decoder, counters, events, pending, nextStamp⟩, engine⟩ := w
    cases hformat
    cases request <;>
      · simp only [settleCheck, push, count, take, setSlot, answerCheck]
        rcases (E.check engine content isRaw).1 with ⟨⟨⟩⟩ | e | text
        · exact .passed fun _ hknown => by cases hknown
        · exact .refused e fun _ hknown => by cases hknown
        · exact .brokenOff text rfl
  · have hensure : (w.handle.take request).ensureFormat request
        = (w.handle.begun request (some (.error e))).fail request e := by
      rw [begun_of_some hformat]
      simp only [ensureFormat, format_take, hformat]
    have hsettled : ∀ g : Handle A D, settleCheck E ⟨(g.fail request e).1, w.engine⟩ (g.fail request e).2
        = (⟨(g.fail request e).1, w.engine⟩, (g.fail request e).2) := by
      intro g
      rw [fail_snd]
      rfl
    rw [hensure, hsettled]
    exact .refused e fun result hknown => (Option.some.inj (hformat.symm.trans hknown)).symm
  · have hensure : (w.handle.take request).ensureFormat request
        = (w.handle.begun request (some (.ok ()))).pass request := by
      rw [begun_of_some hformat]
      simp only [ensureFormat, format_take, hformat]
    have hsettled : ∀ g : Handle A D, settleCheck E ⟨(g.pass request).1, w.engine⟩ (g.pass request).2
        = (⟨(g.pass request).1, w.engine⟩, (g.pass request).2) := by
      intro g
      cases request <;> rfl
    rw [hensure, hsettled]
    exact .passed fun result hknown => (Option.some.inj (hformat.symm.trans hknown)).symm

/-- How a build ends that was started: the call gets its artifact, fails or breaks off. -/
inductive Closes (g : Handle A D) (request : Request) : Handle A D × Progress A D → Prop
  | succeeded {result : Handle A D × Progress A D} {reply : Reply A D} (hreply : result.2 = .replied reply)
      (hfine : ¬reply.Fails) : Closes g request result
  | failed (e : DictError) : Closes g request (g.fail request e)
  | brokenOff (text : String) : Closes g request (g.breakOff request text)

/-- **How a build ends.** -/
theorem closes_settleBuild (E : Engine σ A D) {w : World σ A D} {g : Handle A D} {request : Request}
    {target : BuildTarget} (htarget : request.target? = some target)
    (hhandle : w.handle = g.push ⟨request, .building⟩) :
    g.Closes request ((settleBuild E w none).1.handle, (settleBuild E w none).2) := by
  have hpending : w.handle.pending = ⟨request, .building⟩ :: g.pending := by
    rw [hhandle]
    rfl
  cases request with
  | undigested => cases htarget
  | digested level =>
      simp only [settleBuild, hpending]
      generalize (E.build w.engine w.handle.content level).1 = verdict
      rw [hhandle]
      cases verdict with
      | success value => exact .succeeded rfl (by rintro ⟨⟩)
      | failed e => exact .failed e
      | panicked text => exact .brokenOff text
  | decoder =>
      simp only [settleBuild, hpending]
      generalize (E.buildDecoder w.engine w.handle.content).1 = verdict
      rw [hhandle]
      cases verdict with
      | success value => exact .succeeded rfl (by rintro ⟨⟩)
      | failed e => exact .failed e
      | panicked text => exact .brokenOff text

end Handle

/-- A call's build makes no requests, if it comes to a build. -/
def Engine.Lone (E : Engine σ A D) (w : World σ A D) (request : Request) : Prop :=
  (w.opened E request).2 = .waiting → (startBuild E (w.opened E request).1).1 = []

/-- A build that makes no requests ends as the engine says. -/
theorem runBuild_of_lone {E : Engine σ A D} {w : World σ A D} {depth : Nat} (hlone : (startBuild E w).1 = []) :
    runBuild E depth w = ((settleBuild E (startBuild E w).2 none).2.reply,
      (settleBuild E (startBuild E w).2 none).1) := by
  simp only [runBuild, hlone, List.foldl_nil]

namespace Handle

/-- A call for an artifact goes on to its build. -/
theorem pass_of_target? (h : Handle A D) {request : Request} {target : BuildTarget}
    (htarget : request.target? = some target) : h.pass request = (h.push ⟨request, .building⟩, .waiting) := by
  cases request <;> cases htarget <;> rfl

/-- What a call that fails has found and left. -/
structure Spared (h : Handle A D) (request : Request) (reply : Reply A D) (h' : Handle A D) : Prop where
  vacant : ∀ target, request.target? = some target → h.slotAt target = .vacant
  known : ∀ result, h.format = some result → h'.format = some result
  alike : (h.remembering h'.format).Alike h' (h.toll request reply)

section Spared

variable {h : Handle A D} {request : Request} {format : Option (Except DictError Unit)}

theorem spared_fail (hvacant : ∀ target, request.target? = some target → h.slotAt target = .vacant)
    (hknown : ∀ result, h.format = some result → format = some result) (e : DictError) :
    h.Spared request (.failed e) ((h.begun request format).fail request e).1 := by
  have hformat : ((h.begun request format).fail request e).1.format = format := format_fail _ request e
  refine ⟨hvacant, fun result hresult => hformat.trans (hknown result hresult), ?_⟩
  rw [hformat]
  exact alike_fail hvacant e

theorem spared_breakOff (hvacant : ∀ target, request.target? = some target → h.slotAt target = .vacant)
    (hknown : ∀ result, h.format = some result → format = some result) (text : String) :
    h.Spared request (.panicked text) ((h.begun request format).breakOff request text).1 := by
  have hformat : ((h.begun request format).breakOff request text).1.format = format :=
    format_breakOff _ request text
  refine ⟨hvacant, fun result hresult => hformat.trans (hknown result hresult), ?_⟩
  rw [hformat]
  exact alike_breakOff hvacant text

end Spared

/-- **A build that ends in a failure** spares the handle. -/
theorem Closes.spared {h : Handle A D} {request : Request} {format : Option (Except DictError Unit)}
    {result : Handle A D × Progress A D} (hcloses : (h.begun request format).Closes request result)
    (hvacant : ∀ target, request.target? = some target → h.slotAt target = .vacant)
    (hknown : ∀ result, h.format = some result → format = some result) (hfails : result.2.reply.Fails) :
    h.Spared request result.2.reply result.1 := by
  cases hcloses with
  | succeeded hreply hfine =>
      rw [hreply] at hfails
      exact absurd hfails hfine
  | failed e =>
      rw [fail_snd]
      exact spared_fail hvacant hknown e
  | brokenOff text =>
      rw [breakOff_snd]
      exact spared_breakOff hvacant hknown text

/-- What a call finds at once is not a failure. -/
theorem not_fails_of_found {E : Engine σ A D} {w : World σ A D} {request : Request} {reply : Reply A D}
    {depth : Nat} (hcall : (w.handle.call request).2 = .replied reply) (hfine : ¬reply.Fails) :
    ¬(serve E (depth + 1) request w).1.Fails := by
  have hreplied : (w.opened E request).2 = .replied reply := by
    rw [World.opened, hcall]
    rfl
  rw [(serve_of_replied depth hreplied).1]
  exact hfine

/-- **What a failing call leaves**, if its build makes no requests. -/
theorem spared_serve {E : Engine σ A D} {w : World σ A D} {request : Request} {depth : Nat}
    (hfails : (serve E depth request w).1.Fails) (hlone : E.Lone w request) :
    w.handle.Spared request (serve E depth request w).1 (serve E depth request w).2.handle := by
  cases depth with
  | zero => cases hfails
  | succ depth =>
      have hfinds := w.handle.finds_call request
      generalize hcall : w.handle.call request = found at hfinds
      cases hfinds with
      | digest level artifact =>
          exact absurd hfails (not_fails_of_found (congrArg Prod.snd hcall) nofun)
      | decoder artifact => exact absurd hfails (not_fails_of_found (congrArg Prod.snd hcall) nofun)
      | held => exact absurd hfails (not_fails_of_found (congrArg Prod.snd hcall) nofun)
      | vacant _ hvacant =>
          have hopens := opens_opened E hcall
          generalize hopened : ((w.opened E request).1.handle, (w.opened E request).2) = opened at hopens
          obtain ⟨hhandle, hprogress⟩ := Prod.mk.inj hopened
          cases hopens with
          | refused e hknown =>
              rw [fail_snd] at hprogress
              rw [(serve_of_replied depth hprogress).1, hhandle]
              exact spared_fail hvacant (fun result hresult => by rw [hknown result hresult]) e
          | brokenOff text hunknown =>
              rw [breakOff_snd] at hprogress
              rw [(serve_of_replied depth hprogress).1, hhandle]
              exact spared_breakOff hvacant (fun result hresult => by rw [hunknown] at hresult; cases hresult) text
          | passed hknown =>
              cases htarget : request.target? with
              | none =>
                  cases request <;> cases htarget
                  rw [(serve_of_replied depth hprogress).1] at hfails
                  cases hfails
              | some target =>
                  rw [pass_of_target? _ htarget] at hhandle hprogress
                  rw [(serve_of_waiting depth hprogress).1, runBuild_of_lone (hlone hprogress)] at hfails ⊢
                  have hcloses := closes_settleBuild E (w := (startBuild E (w.opened E request).1).2) htarget
                    ((handle_startBuild E _).trans hhandle)
                  exact hcloses.spared hvacant (fun result hresult => by rw [hknown result hresult]) hfails

end Handle

/-! ### The next call -/

/-- The end of the requests that a started build makes: whether one of them broke off, and the world then. -/
def World.requested (w : World σ A D) (E : Engine σ A D) (depth : Nat) : Option String × World σ A D :=
  (startBuild E w).1.foldl (requestNext E depth) (none, (startBuild E w).2)

/-- The engine's build for a call succeeds, and the call gets the artifact. -/
inductive Engine.Builds (E : Engine σ A D) (w : World σ A D) : Request → Reply A D → Prop
  | digest {level : Int32} {value : A}
      (hbuild : (E.build w.engine w.handle.content level).1 = .success value) :
      Builds E w (.digested level) (.digested level ⟨value, w.handle.nextStamp⟩)
  | decoder {value : D} (hbuild : (E.buildDecoder w.engine w.handle.content).1 = .success value) :
      Builds E w .decoder (.decoder ⟨value, w.handle.nextStamp⟩)

namespace Handle

/-- A call builds: the engine starts at once, and if none of its requests breaks off and it succeeds, the call
gets the artifact. -/
structure Retries (h : Handle A D) (E : Engine σ A D) (request : Request) (target : BuildTarget) : Prop where
  starts : h.noticed (.call request) = [.called request, .buildStarted target]
  builds : ∀ depth engine, serve E (depth + 1) request ⟨h, engine⟩
    = runBuild E depth ⟨(h.call request).1, engine⟩
  succeeds : ∀ depth engine reply,
    ((World.mk (h.call request).1 engine).requested E depth).1 = none →
    E.Builds ((World.mk (h.call request).1 engine).requested E depth).2 request reply →
    (serve E (depth + 1) request ⟨h, engine⟩).1 = reply

/-- A vacant slot is taken for a build if the format is known to be right. -/
theorem call_of_vacant {h : Handle A D} {request : Request} {target : BuildTarget}
    (htarget : request.target? = some target) (hvacant : h.slotAt target = .vacant)
    (hformat : h.format = some (.ok ())) :
    h.call request = ((h.take request).push ⟨request, .building⟩, .waiting) := by
  have hpass : (h.take request).ensureFormat request
      = ((h.take request).push ⟨request, .building⟩, .waiting) := by
    rw [ensureFormat, format_take, hformat]
    exact pass_of_target? _ htarget
  rw [← hpass]
  cases request with
  | undigested => cases htarget
  | digested level =>
      cases htarget
      exact h.call_digested_of_vacant (Slot.eq_vacant_of_map hvacant)
  | decoder =>
      cases htarget
      exact h.call_decoder_of_vacant (Slot.eq_vacant_of_map hvacant)

/-- **A call builds where the slot is vacant** and the format is known to be right. -/
theorem retries_of_vacant (E : Engine σ A D) {h : Handle A D} {request : Request} {target : BuildTarget}
    (htarget : request.target? = some target) (hvacant : h.slotAt target = .vacant)
    (hformat : h.format = some (.ok ())) : h.Retries E request target := by
  have hcall := call_of_vacant htarget hvacant hformat
  have hopened : ∀ engine, (World.mk h engine).opened E request
      = (⟨(h.call request).1, engine⟩, .waiting) := by
    intro engine
    rw [World.opened, hcall]
    rfl
  have hbuilds : ∀ depth engine, serve E (depth + 1) request ⟨h, engine⟩
      = runBuild E depth ⟨(h.call request).1, engine⟩ := by
    intro depth engine
    rw [(serve_of_waiting depth (congrArg Prod.snd (hopened engine))).1, hopened]
  refine ⟨?_, hbuilds, ?_⟩
  · rw [noticed, hcall]
    show [.called request] ++ (request.target?.toList.map Happening.buildStarted) = _
    rw [htarget]
    rfl
  · intro depth engine reply hnone hsucceeds
    have hpending : ((World.mk (h.call request).1 engine).requested E depth).2.handle.pending
        = ⟨request, .building⟩ :: h.pending := by
      rw [World.requested, pending_requested E (pending_serve E depth), handle_startBuild, hcall]
      exact congrArg (List.cons _) (h.pending_take request)
    have hrun : runBuild E depth ⟨(h.call request).1, engine⟩
        = ((settleBuild E ((World.mk (h.call request).1 engine).requested E depth).2
              ((World.mk (h.call request).1 engine).requested E depth).1).2.reply,
            (settleBuild E ((World.mk (h.call request).1 engine).requested E depth).2
              ((World.mk (h.call request).1 engine).requested E depth).1).1) := rfl
    rw [hbuilds, hrun, hnone]
    generalize ((World.mk (h.call request).1 engine).requested E depth).2 = w at hpending hsucceeds
    cases hsucceeds with
    | digest hbuild => simp only [settleBuild, hpending, hbuild, answerBuild, Progress.reply]
    | decoder hbuild => simp only [settleBuild, hpending, hbuild, answerDecoder, Progress.reply]

/-! ### Failures -/

/-- A call that fails is not noticed.  The handle shows what it has shown before, but for the counters; no input
that follows makes anything happen that it would not make happen without the call, if the format that the call
has made sure of is known; and the next such call builds if the format is right. -/
structure Untouched (h : Handle A D) (E : Engine σ A D) (request : Request) (reply : Reply A D)
    (h' : Handle A D) : Prop where
  looks : h.Looks h' (h.toll request reply)
  known : ∀ result, h.format = some result → h'.format = some result
  later : ∀ inputs, h'.chronicle inputs = (h.remembering h'.format).chronicle inputs
    ∧ ((h.remembering h'.format).run inputs).Looks (h'.run inputs) (h.toll request reply)
  retries : ∀ target, request.target? = some target → h'.format = some (.ok ()) →
    h'.Retries E request target

/-- **A call that fails or breaks off is not noticed** but by what it adds to the counters, whatever was asked
of the handle before, and whatever the engine does, if its build makes no requests. -/
theorem failure_unnoticed (content : ByteArray) (isRaw : Bool) (inputs : List (Input A D))
    (E : Engine σ A D) (engine : σ) (depth : Nat) (request : Request)
    (hfails : (serve E depth request ⟨(new content isRaw).run inputs, engine⟩).1.Fails)
    (hlone : E.Lone ⟨(new content isRaw).run inputs, engine⟩ request) :
    ((new content isRaw).run inputs).Untouched E request
      (serve E depth request ⟨(new content isRaw).run inputs, engine⟩).1
      (serve E depth request ⟨(new content isRaw).run inputs, engine⟩).2.handle := by
  have hspared := spared_serve hfails hlone
  have hdistinct : ((new content isRaw).run inputs : Handle A D).Distinct :=
    (continues_run _ inputs).distinct List.nodup_nil
  have hdistinct' := (continues_serve E depth request
    ⟨(new content isRaw).run inputs, engine⟩).distinct hdistinct
  generalize (new content isRaw).run inputs = h at hspared hdistinct hdistinct' ⊢
  generalize serve E depth request ⟨h, engine⟩ = served at hspared hdistinct' ⊢
  have halike := hspared.alike
  have hremembering : (h.remembering served.2.handle.format).Distinct := hdistinct
  refine ⟨?_, hspared.known, fun later => ?_, fun target htarget hformat => ?_⟩
  · obtain ⟨hcontent, hraw, hstate, hdigest, hcached, hdecoder, hcounters⟩ :=
      halike.looks hremembering hdistinct'
    exact ⟨hcontent, hraw, hstate, hdigest, hcached, hdecoder, hcounters⟩
  · obtain ⟨hrun, hchronicle⟩ := halike.run later
    exact ⟨hchronicle, hrun.looks ((continues_run _ later).distinct hremembering)
      ((continues_run _ later).distinct hdistinct')⟩
  · refine retries_of_vacant E htarget ?_ hformat
    have hsame : served.2.handle.slotAt target = h.slotAt target := halike.slotAt target
    rw [hsame, hspared.vacant target htarget]

/-- A build for level 3 fails once, where level 5 is cached.  Neither level looks different after it, and the next
call gets the digest. -/
theorem failure_unnoticed_once :
    let E := scriptedEngine ⟨none, none, [], [], false⟩
    let h : Handle ScriptedArtifact ScriptedArtifact :=
      (new ⟨#[1, 2, 3]⟩ true).run [.call (.digested 5), .checked (.success ()), .built (.success ⟨some 5, 1⟩)]
    let engine : ScriptState := ⟨0, [], [(3, 1)], 0, 0, 1, [], [], 0, []⟩
    let served := serve E 2 (.digested 3) ⟨h, engine⟩
    served.1 = .failed (.allocation ("fake digest " ++ Snapshot.levelText 3))
      ∧ served.2.handle.cachedLevels = h.cachedLevels
      ∧ served.2.handle.counters.get .digestFailure = h.counters.get .digestFailure + 1
      ∧ (serve E 2 (.digested 3) served.2).1 = .digested 3 ⟨⟨some 3, 1⟩, 1⟩ := by
  intro E h engine served
  have huntouched := failure_unnoticed ⟨#[1, 2, 3]⟩ true
    [.call (.digested 5), .checked (.success ()), .built (.success ⟨some 5, 1⟩)] E engine 2 (.digested 3)
    (.failed (.allocation ("fake digest " ++ Snapshot.levelText 3))) (fun _ => rfl)
  refine ⟨rfl, huntouched.looks.cachedLevels, huntouched.looks.counters .digestFailure, ?_⟩
  exact (huntouched.retries (.level 3) rfl rfl).succeeds 1 served.2.engine _ rfl (.digest rfl)

end Handle

end SharedDictionary
