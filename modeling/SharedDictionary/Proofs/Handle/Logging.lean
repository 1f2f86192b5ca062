import SharedDictionary.Proofs.Handle.Chronicle
import SharedDictionary.Proofs.Handle.Covering

/-!
# The log of an engine

`serve` drives a handle with an engine.  It gives the handle one input after the other
(`serveInputs`), so a request has a chronicle: it begins with the call, and it ends as the call does
(`chronicle_serve`).

`Engine.logged` is an engine that logs what it is asked and what it answers to format checks.  Its log
is the engine's part of the chronicle (`follows_serve`, `follows_after`).
-/

namespace SharedDictionary

variable {σ A D : Type}

/-! ### The inputs of a request -/

section Inputs

variable (E : Engine σ A D)

/-- The answer to the format check that the topmost call waits for, if it waits for one. -/
def checkInputs (w : World σ A D) (p : Progress A D) : List (Handle.Input A D) :=
  match p, w.handle.pending with
  | .waiting, ⟨_, .checking⟩ :: _ =>
    [.checked (E.check w.engine w.handle.content w.handle.isRaw).1]
  | _, _ => []

/-- A request up to the answer of the format check. -/
def World.opened (w : World σ A D) (request : Request) : World σ A D × Progress A D :=
  settleCheck E ⟨(w.handle.call request).1, w.engine⟩ (w.handle.call request).2

/-- The inputs of a request up to the answer of the format check. -/
def openingInputs (w : World σ A D) (request : Request) : List (Handle.Input A D) :=
  .call request :: checkInputs E ⟨(w.handle.call request).1, w.engine⟩ (w.handle.call request).2

/-- The inputs of the requests that a build makes, given those of each request. -/
def requestedInputs (depth : Nat) (ask : Request → World σ A D → List (Handle.Input A D)) :
    List Int32 → Option String × World σ A D → List (Handle.Input A D)
  | [], _ => []
  | level :: levels, sofar =>
    (if sofar.1.isSome then [] else ask (.digested level) sofar.2)
      ++ requestedInputs depth ask levels (requestNext E depth sofar level)

/-- The input that ends the build of the topmost call. -/
def buildInputs (w : World σ A D) (brokenOff : Option String) : List (Handle.Input A D) :=
  match w.handle.pending with
  | ⟨.digested level, _⟩ :: _ =>
    [.built (brokenOff.elim (E.build w.engine w.handle.content level).1 .panicked)]
  | ⟨.decoder, _⟩ :: _ =>
    [.builtDecoder (brokenOff.elim (E.buildDecoder w.engine w.handle.content).1 .panicked)]
  | _ => []

/-- The inputs that a request gives its handle, in order. -/
def serveInputs : (depth : Nat) → Request → World σ A D → List (Handle.Input A D)
  | 0, _, _ => []
  | depth + 1, request, w =>
    openingInputs E w request ++
      match w.opened E request with
      | (_, .replied _) => []
      | (opened, .waiting) =>
        let started := startBuild E opened
        let requested := started.1.foldl (requestNext E depth) (none, started.2)
        requestedInputs E depth (serveInputs depth) started.1 (none, started.2)
          ++ buildInputs E requested.2 requested.1

/-- The inputs of a build: those of its requests, and its end. -/
def runBuildInputs (depth : Nat) (w : World σ A D) : List (Handle.Input A D) :=
  let started := startBuild E w
  let requested := started.1.foldl (requestNext E depth) (none, started.2)
  requestedInputs E depth (serveInputs E depth) started.1 (none, started.2)
    ++ buildInputs E requested.2 requested.1

section Opened

variable {E} {w : World σ A D} {request : Request} (depth : Nat)

theorem serve_of_replied {reply : Reply A D} (hreplied : (w.opened E request).2 = .replied reply) :
    serve E (depth + 1) request w = (reply, (w.opened E request).1)
      ∧ serveInputs E (depth + 1) request w = openingInputs E w request := by
  rw [serve_succ, serveInputs]
  unfold World.opened at hreplied ⊢
  generalize settleCheck E _ _ = result at hreplied ⊢
  obtain ⟨w', p⟩ := result
  cases hreplied
  exact ⟨rfl, List.append_nil _⟩

theorem serve_of_waiting (hwaiting : (w.opened E request).2 = .waiting) :
    serve E (depth + 1) request w = runBuild E depth (w.opened E request).1
      ∧ serveInputs E (depth + 1) request w
        = openingInputs E w request ++ runBuildInputs E depth (w.opened E request).1 := by
  rw [serve_succ, serveInputs]
  unfold World.opened at hwaiting ⊢
  generalize settleCheck E _ _ = result at hwaiting ⊢
  obtain ⟨w', p⟩ := result
  cases hwaiting
  exact ⟨rfl, rfl⟩

end Opened

/-- The inputs of a demand. -/
def World.inputsOf (w : World σ A D) (demand : Demand) : List (Handle.Input A D) :=
  match demand with
  | .request depth request => serveInputs E depth request w
  | .prefixTaken => [.prefixTaken]

/-- The inputs of some demands, in order. -/
def World.inputs (w : World σ A D) (demands : List Demand) : List (Handle.Input A D) :=
  match demands with
  | [] => []
  | demand :: demands => w.inputsOf E demand ++ (w.meet E demand).inputs demands

end Inputs

/-! ### The log -/

/-- An engine is asked, or answers a format check. -/
def Happening.ofEngine : Happening A D → Bool
  | .checkStarted => true
  | .checkEnded _ => true
  | .buildStarted _ => true
  | _ => false

/-- An engine that logs the checks and the builds it is asked for. -/
def Engine.logged (E : Engine σ A D) : Engine (σ × List (Happening A D)) A D where
  check state content isRaw :=
    ((E.check state.1 content isRaw).1, (E.check state.1 content isRaw).2,
      state.2 ++ [.checkStarted, .checkEnded (E.check state.1 content isRaw).1])
  prepare state handle target :=
    ((E.prepare state.1 handle target).1, (E.prepare state.1 handle target).2,
      state.2 ++ [.buildStarted target])
  build state content level :=
    ((E.build state.1 content level).1, (E.build state.1 content level).2, state.2)
  buildDecoder state content :=
    ((E.buildDecoder state.1 content).1, (E.buildDecoder state.1 content).2, state.2)

theorem logged_covers (E : Engine σ A D) : E.logged.Covers Prod.fst E where
  check _ _ _ := rfl
  prepare _ _ _ := rfl
  build _ _ _ := rfl
  buildDecoder _ _ := rfl

/-- The end of a call is not logged. -/
theorem Reply.filter_ending (reply : Reply A D) (request : Request) (afterBuild : Bool) :
    [reply.ending request afterBuild].filter Happening.ofEngine = [] := by
  cases reply <;> rfl

/-- Some inputs lead from one world to another, no check is disturbed, and the engine's part of what
they make happen is logged. -/
structure World.Follows (w w' : World (σ × List (Happening A D)) A D)
    (inputs : List (Handle.Input A D)) : Prop where
  run : w'.handle = w.handle.run inputs
  undisturbed : w.handle.Undisturbed inputs
  log : w'.engine.2 = w.engine.2 ++ (w.handle.chronicle inputs).filter Happening.ofEngine

namespace World.Follows

variable {w w' w'' : World (σ × List (Happening A D)) A D} {first second : List (Handle.Input A D)}

theorem refl (w : World (σ × List (Happening A D)) A D) : w.Follows w [] :=
  ⟨rfl, trivial, (List.append_nil _).symm⟩

theorem trans (hfirst : w.Follows w' first) (hsecond : w'.Follows w'' second) :
    w.Follows w'' (first ++ second) where
  run := by rw [Handle.run_append, ← hfirst.run, hsecond.run]
  undisturbed := by
    rw [Handle.undisturbed_append, ← hfirst.run]
    exact ⟨hfirst.undisturbed, hsecond.undisturbed⟩
  log := by
    rw [Handle.chronicle_append, List.filter_append, ← List.append_assoc, ← hfirst.log,
      ← hfirst.run, hsecond.log]

end World.Follows

/-- All pending calls wait for builds. -/
def World.Building (w : World σ A D) : Prop := ∀ p ∈ w.handle.pending, p.stage = .building

theorem World.Building.not_checking {w : World σ A D} (hw : w.Building) : ¬w.handle.Checking := by
  rintro ⟨request, rest, hpending⟩
  have htop := hw ⟨request, .checking⟩ (hpending ▸ List.mem_cons_self)
  cases htop

/-- Where no call waits for a check, a call disturbs none. -/
theorem World.Building.undisturbed_call {w : World σ A D} (hw : w.Building) (request : Request)
    {inputs : List (Handle.Input A D)}
    (hrest : (w.handle.step (.call request)).Undisturbed inputs) :
    w.handle.Undisturbed (.call request :: inputs) :=
  ⟨fun hchecking => absurd hchecking hw.not_checking, hrest⟩

section Follows

variable (E : Engine σ A D) {w : World (σ × List (Happening A D)) A D} {request : Request}
  {target : BuildTarget} {rest : List Pending}

/-- The start of a build is logged. -/
theorem startBuild_logged (htarget : request.target? = some target)
    (hpending : w.handle.pending = ⟨request, .building⟩ :: rest) :
    (startBuild E.logged w).2.handle = w.handle
      ∧ (startBuild E.logged w).2.engine.2 = w.engine.2 ++ [.buildStarted target] := by
  unfold startBuild
  rw [hpending]
  cases request <;> cases htarget <;> exact ⟨rfl, rfl⟩

/-- A request was opened: it ended, or its build is to be started. -/
structure Opened (w : World (σ × List (Happening A D)) A D) (request : Request)
    (middle : List (Happening A D)) : Prop where
  settles : Handle.Settles request w.handle.pending
    ((w.opened E.logged request).1.handle, (w.opened E.logged request).2)
  run : (w.opened E.logged request).1.handle = w.handle.run (openingInputs E.logged w request)
  undisturbed : w.handle.Undisturbed (openingInputs E.logged w request)
  chronicle : w.handle.chronicle (openingInputs E.logged w request)
    = .called request :: middle ++ (w.opened E.logged request).2.upshot
        (w.opened E.logged request).1.handle.pending request false
  log : (w.opened E.logged request).1.engine.2
    = w.engine.2 ++ middle.filter Happening.ofEngine

/-- **A request is opened** by its call, and by the answer of a format check if it waits for one. -/
theorem exists_opened (hw : w.Building) (request : Request) :
    ∃ middle, Opened E w request middle := by
  have hleaves := w.handle.leaves_call request
  rcases hcall : w.handle.call request with ⟨h, p⟩
  rw [hcall] at hleaves
  have hstep : w.handle.step (.call request) = h := congrArg Prod.fst hcall
  have hnoticed : w.handle.noticed (.call request)
      = .called request :: p.upshot h.pending request false := by
    simp only [Handle.noticed, hcall]
  cases hleaves with
  | settled hsettles =>
      -- The engine is not asked about the format.
      have hopened : w.opened E.logged request = (⟨h, w.engine⟩, p)
          ∧ openingInputs E.logged w request = [.call request] := by
        simp only [World.opened, openingInputs, hcall]
        cases hsettles with
        | ended hends =>
            obtain ⟨reply, hreplied, -, -⟩ := hends
            cases hreplied
            exact ⟨rfl, rfl⟩
        | building target htarget hwaiting hpending =>
            cases hwaiting
            dsimp only at hpending
            simp only [settleCheck, checkInputs, hpending, and_self]
      obtain ⟨hopened, hinputs⟩ := hopened
      refine ⟨[], ?_⟩
      constructor
      · rw [hopened]
        exact hsettles
      · rw [hopened, hinputs]
        exact hstep.symm
      · rw [hinputs]
        exact hw.undisturbed_call request trivial
      · rw [hopened, hinputs, Handle.chronicle_singleton, hnoticed]
        rfl
      · rw [hopened]
        exact (List.append_nil _).symm
  | checking hwaiting hpending =>
      cases hwaiting
      dsimp only at hpending
      let answer := E.check w.engine.1 h.content h.isRaw
      have hopened : w.opened E.logged request = (⟨(h.answerCheck answer.1).1, answer.2,
          w.engine.2 ++ [.checkStarted, .checkEnded answer.1]⟩, (h.answerCheck answer.1).2) := by
        simp only [World.opened, hcall, settleCheck, hpending]
        rfl
      have hinputs : openingInputs E.logged w request = [.call request, .checked answer.1] := by
        simp only [openingInputs, hcall, checkInputs, hpending]
        rfl
      refine ⟨[.checkStarted, .checkEnded answer.1], ?_⟩
      constructor
      · rw [hopened]
        exact Handle.settles_answerCheck hpending answer.1
      · rw [hopened, hinputs]
        show _ = ((w.handle.step (.call request)).step (.checked answer.1))
        rw [hstep]
        rfl
      · rw [hinputs]
        exact hw.undisturbed_call request ⟨fun _ _ hinput => (by cases hinput), trivial⟩
      · rw [hopened, hinputs]
        show w.handle.noticed (.call request)
          ++ ((w.handle.step (.call request)).noticed (.checked answer.1) ++ []) = _
        rw [hstep, hnoticed, List.append_nil]
        simp only [Handle.noticed, Progress.upshot, hpending]
        rfl
      · rw [hopened]
        rfl

variable {E} in
/-- A request that ends without a build follows its opening inputs. -/
theorem Opened.follows_of_replied {middle : List (Happening A D)} {reply : Reply A D}
    (hopened : Opened E w request middle)
    (hreplied : (w.opened E.logged request).2 = .replied reply) :
    w.Follows (w.opened E.logged request).1 (openingInputs E.logged w request) where
  run := hopened.run
  undisturbed := hopened.undisturbed
  log := by
    rw [hopened.log, hopened.chronicle, hreplied, List.cons_append, List.filter_cons,
      List.filter_append]
    show _ = w.engine.2 ++ (middle.filter _ ++ [reply.ending request false].filter _)
    rw [reply.filter_ending, List.append_nil]

variable {E} in
/-- A request whose build is started follows its opening inputs up to there. -/
theorem Opened.follows_of_waiting {middle : List (Happening A D)}
    (hopened : Opened E w request middle) (htarget : request.target? = some target)
    (hwaiting : (w.opened E.logged request).2 = .waiting)
    (hpending : (w.opened E.logged request).1.handle.pending = ⟨request, .building⟩ :: rest) :
    w.Follows (startBuild E.logged (w.opened E.logged request).1).2
      (openingInputs E.logged w request) := by
  obtain ⟨hhandle, hlog⟩ := startBuild_logged E htarget hpending
  refine ⟨hhandle.trans hopened.run, hopened.undisturbed, ?_⟩
  rw [hlog, hopened.log, hopened.chronicle, hwaiting, hpending, List.cons_append,
    List.filter_cons, List.filter_append, List.append_assoc]
  simp only [Progress.upshot, List.head?_cons, Option.elim_some, Pending.starts, htarget]
  rfl

/-- A build ends with one input, which ends the request that waits for it.  The engine is asked for
nothing that it logs. -/
private theorem exists_answer (htarget : request.target? = some target)
    (hpending : w.handle.pending = ⟨request, .building⟩ :: rest) (brokenOff : Option String) :
    ∃ input state result,
      settleBuild E.logged w brokenOff = (⟨result.1, state, w.engine.2⟩, result.2)
        ∧ buildInputs E.logged w brokenOff = [input]
        ∧ (∀ other, input ≠ .call other)
        ∧ w.handle.step input = result.1
        ∧ w.handle.noticed input = result.2.upshot result.1.pending request true
        ∧ Handle.Ends request rest result := by
  cases request with
  | undigested => cases htarget
  | digested level =>
      -- Where one of its own requests broke the build off, that takes the place of the answer.
      let answer := E.build w.engine.1 w.handle.content level
      let verdict := brokenOff.elim answer.1 .panicked
      refine ⟨.built verdict, brokenOff.elim answer.2 fun _ => w.engine.1,
        w.handle.answerBuild verdict, ?_, ?_, fun _ hinput => (by cases hinput), rfl, ?_,
        Handle.ends_answerBuild hpending verdict⟩
      · simp only [settleBuild, hpending]
        cases brokenOff <;> rfl
      · simp only [buildInputs, hpending]
        rfl
      · simp only [Handle.noticed, hpending]
  | decoder =>
      let answer := E.buildDecoder w.engine.1 w.handle.content
      let verdict := brokenOff.elim answer.1 .panicked
      refine ⟨.builtDecoder verdict, brokenOff.elim answer.2 fun _ => w.engine.1,
        w.handle.answerDecoder verdict, ?_, ?_, fun _ hinput => (by cases hinput), rfl, ?_,
        Handle.ends_answerDecoder hpending verdict⟩
      · simp only [settleBuild, hpending]
        cases brokenOff <;> rfl
      · simp only [buildInputs, hpending]
        rfl
      · simp only [Handle.noticed, hpending]

/-- **The end of a build is one input.** -/
theorem follows_settleBuild (htarget : request.target? = some target)
    (hpending : w.handle.pending = ⟨request, .building⟩ :: rest) (brokenOff : Option String) :
    ∃ reply, (settleBuild E.logged w brokenOff).2 = .replied reply
      ∧ w.Follows (settleBuild E.logged w brokenOff).1 (buildInputs E.logged w brokenOff)
      ∧ (settleBuild E.logged w brokenOff).1.handle.pending = rest
      ∧ w.handle.chronicle (buildInputs E.logged w brokenOff) = [reply.ending request true] := by
  obtain ⟨input, state, result, hsettled, hinputs, hinput, hstep, hnoticed, hends⟩ :=
    exists_answer E htarget hpending brokenOff
  obtain ⟨reply, hreplied, -, hrest⟩ := hends
  have hchronicle : w.handle.chronicle [input] = [reply.ending request true] := by
    rw [Handle.chronicle_singleton, hnoticed, hreplied]
    rfl
  rw [hsettled, hinputs]
  refine ⟨reply, hreplied, ⟨hstep.symm, ⟨fun _ => hinput, trivial⟩, ?_⟩, hrest, hchronicle⟩
  rw [hchronicle, reply.filter_ending]
  exact (List.append_nil _).symm

end Follows

/-- **The requests of a build follow one another.** -/
theorem follows_requested (E : Engine σ A D) {depth : Nat}
    (hserve : ∀ request (w : World (σ × List (Happening A D)) A D), w.Building →
      w.Follows (serve E.logged depth request w).2 (serveInputs E.logged depth request w)
        ∧ (serve E.logged depth request w).2.handle.pending = w.handle.pending)
    (levels : List Int32) (sofar : Option String × World (σ × List (Happening A D)) A D)
    (hsofar : sofar.2.Building) :
    sofar.2.Follows (levels.foldl (requestNext E.logged depth) sofar).2
        (requestedInputs E.logged depth (serveInputs E.logged depth) levels sofar)
      ∧ (levels.foldl (requestNext E.logged depth) sofar).2.handle.pending
        = sofar.2.handle.pending := by
  induction levels generalizing sofar with
  | nil => exact ⟨.refl sofar.2, rfl⟩
  | cons level levels ih =>
      have hnext : sofar.2.Follows (requestNext E.logged depth sofar level).2
            (if sofar.1.isSome then [] else serveInputs E.logged depth (.digested level) sofar.2)
          ∧ (requestNext E.logged depth sofar level).2.handle.pending
            = sofar.2.handle.pending := by
        obtain ⟨_ | text, w⟩ := sofar
        · have hfirst := hserve (.digested level) w hsofar
          unfold requestNext
          rcases hreply : serve E.logged depth (.digested level) w with ⟨reply, w'⟩
          rw [hreply] at hfirst
          cases reply <;> exact hfirst
        · exact ⟨.refl w, rfl⟩
      obtain ⟨hfollows, hpending⟩ := hnext
      have hbuilding : (requestNext E.logged depth sofar level).2.Building := by
        unfold World.Building
        rw [hpending]
        exact hsofar
      obtain ⟨hrest, hkept⟩ := ih (requestNext E.logged depth sofar level) hbuilding
      exact ⟨hfollows.trans hrest, hkept.trans hpending⟩

/-- A request follows its inputs if the requests of its build do. -/
private theorem follows_serve_succ (E : Engine σ A D) {depth : Nat}
    (hserve : ∀ request (w : World (σ × List (Happening A D)) A D), w.Building →
      w.Follows (serve E.logged depth request w).2 (serveInputs E.logged depth request w)
        ∧ (serve E.logged depth request w).2.handle.pending = w.handle.pending)
    (request : Request) (w : World (σ × List (Happening A D)) A D) (hw : w.Building) :
    (w.Follows (serve E.logged (depth + 1) request w).2 (serveInputs E.logged (depth + 1) request w)
        ∧ (serve E.logged (depth + 1) request w).2.handle.pending = w.handle.pending)
      ∧ ∃ middle afterBuild,
        w.handle.chronicle (serveInputs E.logged (depth + 1) request w)
          = .called request :: middle
            ++ [(serve E.logged (depth + 1) request w).1.ending request afterBuild] := by
  obtain ⟨middle, hopened⟩ := exists_opened E hw request
  have hchronicle := hopened.chronicle
  cases hopened.settles with
  | ended hends =>
      obtain ⟨reply, hreplied, -, hpending⟩ := hends
      dsimp only at hreplied hpending
      obtain ⟨hserved, hinputs⟩ := serve_of_replied depth hreplied
      rw [hserved, hinputs]
      rw [hreplied] at hchronicle
      exact ⟨⟨hopened.follows_of_replied hreplied, hpending⟩, middle, false, hchronicle⟩
  | building target htarget hwaiting hpending =>
      dsimp only at hwaiting hpending
      obtain ⟨hserved, hinputs⟩ := serve_of_waiting depth hwaiting
      rw [hserved, hinputs]
      have hstart := hopened.follows_of_waiting htarget hwaiting hpending
      obtain ⟨hhandle, -⟩ := startBuild_logged E htarget hpending
      unfold runBuild runBuildInputs
      generalize startBuild E.logged (w.opened E.logged request).1 = started at hstart hhandle ⊢
      obtain ⟨levels, started⟩ := started
      have hbuilding : started.Building := by
        unfold World.Building
        rw [hhandle, hpending]
        exact List.forall_mem_cons.mpr ⟨rfl, hw⟩
      obtain ⟨hrequests, hkept⟩ := follows_requested E hserve levels (none, started) hbuilding
      dsimp only at hstart hhandle hrequests hkept ⊢
      generalize levels.foldl (requestNext E.logged depth) (none, started) = requested
        at hrequests hkept ⊢
      -- What is on the stack is the same before and after the requests of the build.
      obtain ⟨reply, hreplied, hend, hrest, hlast⟩ := follows_settleBuild E htarget
        (hkept.trans ((congrArg Handle.pending hhandle).trans hpending)) requested.1
      refine ⟨⟨hstart.trans (hrequests.trans hend), hrest⟩, ?_⟩
      rw [Handle.chronicle_append, ← hstart.run, Handle.chronicle_append, ← hrequests.run, hlast,
        hchronicle, hreplied, Progress.reply, ← List.append_assoc, List.cons_append,
        List.cons_append]
      exact ⟨_, true, rfl⟩

/-- **A request gives its handle its inputs**, disturbs no check, and logs what the engine was asked
for.  All it leaves on the stack is what it found there. -/
theorem follows_serve (E : Engine σ A D) (depth : Nat) (request : Request)
    (w : World (σ × List (Happening A D)) A D) (hw : w.Building) :
    w.Follows (serve E.logged depth request w).2 (serveInputs E.logged depth request w)
      ∧ (serve E.logged depth request w).2.handle.pending = w.handle.pending := by
  induction depth generalizing request w with
  | zero => exact ⟨.refl w, rfl⟩
  | succ depth ih => exact (follows_serve_succ E ih request w hw).1

/-- **The chronicle of a request** begins with its call and ends with its reply. -/
theorem chronicle_serve (E : Engine σ A D) (depth : Nat) (request : Request)
    (w : World (σ × List (Happening A D)) A D) (hw : w.Building) :
    ∃ middle afterBuild,
      w.handle.chronicle (serveInputs E.logged (depth + 1) request w)
        = .called request :: middle
          ++ [(serve E.logged (depth + 1) request w).1.ending request afterBuild] :=
  (follows_serve_succ E (follows_serve E depth) request w hw).2

/-- **What demands do is a run**, and the engine's part of its chronicle is logged.  Between demands no
call is pending. -/
theorem follows_after (E : Engine σ A D) (w : World (σ × List (Happening A D)) A D)
    (hw : w.handle.pending = []) (demands : List Demand) :
    w.Follows (w.after E.logged demands) (w.inputs E.logged demands)
      ∧ (w.after E.logged demands).handle.pending = [] := by
  induction demands generalizing w with
  | nil => exact ⟨.refl w, hw⟩
  | cons demand demands ih =>
      have hmeet : w.Follows (w.meet E.logged demand) (w.inputsOf E.logged demand)
          ∧ (w.meet E.logged demand).handle.pending = w.handle.pending := by
        cases demand with
        | request depth request =>
            refine follows_serve E depth request w ?_
            unfold World.Building
            rw [hw]
            exact List.forall_mem_nil _
        | prefixTaken =>
            exact ⟨⟨rfl, ⟨fun _ _ hinput => (by cases hinput), trivial⟩,
              (List.append_nil _).symm⟩, rfl⟩
      obtain ⟨hfollows, hpending⟩ := hmeet
      obtain ⟨hrest, hnone⟩ := ih (w.meet E.logged demand) (hpending.trans hw)
      exact ⟨hfollows.trans hrest, hnone⟩

end SharedDictionary
