import SharedDictionary.Handle.Engine
import SharedDictionary.Proofs.Handle.Slots

/-!
# The runs of a handle

What reaches a handle is an *input*: a request, an answer of the engine, or the taking of a prefix.
A handle reacts to one input after the other, so its runs are lists of inputs (`Handle.run`).

`serve` is one way to drive a handle, with an engine that answers and makes requests of its own.
Whatever the engine is, every step of it is an input, and so a relation that every input respects is
respected by whole requests (`Respects.serve`).  In particular a request runs the handle through
some inputs (`serve_eq_run`).
-/

namespace SharedDictionary

variable {σ A D : Type}

namespace Handle

/-- What reaches a handle. -/
inductive Input (A D : Type) where
  /-- A request arrives. -/
  | call (request : Request)
  /-- The engine answers the format check of the topmost call. -/
  | checked (verdict : Verdict Unit)
  /-- The engine answers the build of the topmost call, for a level. -/
  | built (verdict : Verdict A)
  /-- The engine answers the build of the topmost call, for the decoder. -/
  | builtDecoder (verdict : Verdict D)
  /-- A prefix is taken. -/
  | prefixTaken

/-- The handle after an input. -/
def step (h : Handle A D) (input : Input A D) : Handle A D :=
  match input with
  | .call request => (h.call request).1
  | .checked verdict => (h.answerCheck verdict).1
  | .built verdict => (h.answerBuild verdict).1
  | .builtDecoder verdict => (h.answerDecoder verdict).1
  | .prefixTaken => h.takePrefix

/-- The handle after some inputs, in order. -/
def run (h : Handle A D) (inputs : List (Input A D)) : Handle A D := inputs.foldl step h

theorem run_append (h : Handle A D) (first second : List (Input A D)) :
    h.run (first ++ second) = (h.run first).run second := List.foldl_append

theorem run_concat (h : Handle A D) (inputs : List (Input A D)) (input : Input A D) :
    h.run (inputs ++ [input]) = (h.run inputs).step input := run_append h inputs [input]

/-! ### What every input respects -/

/-- A handle is followed by one with the same content, in which every level still has at most one
slot. -/
structure Continues (h h' : Handle A D) : Prop where
  content : h'.content = h.content
  isRaw : h'.isRaw = h.isRaw
  distinct : h.Distinct → h'.Distinct

theorem Continues.refl (h : Handle A D) : h.Continues h := ⟨rfl, rfl, id⟩

theorem Continues.trans {h h' h'' : Handle A D} (first : h.Continues h')
    (second : h'.Continues h'') : h.Continues h'' :=
  ⟨second.content.trans first.content, second.isRaw.trans first.isRaw,
    fun hdistinct => second.distinct (first.distinct hdistinct)⟩

theorem continues_setSlot (h : Handle A D) (level : Int32) (slot : Slot A) :
    h.Continues (h.setSlot level slot) :=
  ⟨rfl, rfl, fun hdistinct => distinct_setSlot hdistinct level slot⟩

theorem continues_fail (h : Handle A D) (request : Request) (e : DictError) :
    h.Continues (h.fail request e).1 := by
  cases request with
  | digested level => exact ⟨rfl, rfl, fun hdistinct => distinct_setSlot hdistinct level _⟩
  | undigested => exact ⟨rfl, rfl, id⟩
  | decoder => exact ⟨rfl, rfl, id⟩

theorem continues_breakOff (h : Handle A D) (request : Request) (text : String) :
    h.Continues (h.breakOff request text).1 := by
  cases request with
  | digested level => exact h.continues_setSlot level _
  | undigested => exact .refl h
  | decoder => exact ⟨rfl, rfl, id⟩

theorem continues_pass (h : Handle A D) (request : Request) :
    h.Continues (h.pass request).1 := by
  cases request <;> exact ⟨rfl, rfl, id⟩

theorem continues_ensureFormat (h : Handle A D) (request : Request) :
    h.Continues (h.ensureFormat request).1 := by
  unfold ensureFormat
  split
  · exact h.continues_pass request
  · exact h.continues_fail request _
  · exact ⟨rfl, rfl, id⟩

theorem continues_call (h : Handle A D) (request : Request) :
    h.Continues (h.call request).1 := by
  cases request with
  | undigested => exact h.continues_ensureFormat .undigested
  | decoder =>
      rcases hslot : h.decoder with ⟨_ | artifact, building⟩
      · cases building with
        | true =>
            rw [h.call_decoder_of_building hslot]
            exact .refl h
        | false =>
            rw [h.call_decoder_of_vacant hslot]
            have htaken : h.Continues { h with decoder := ⟨none, true⟩ } := ⟨rfl, rfl, id⟩
            exact htaken.trans (continues_ensureFormat _ _)
      · rw [h.call_decoder_of_built (by rw [hslot])]
        exact .refl h
  | digested level =>
      rcases hslot : h.slotOf level with ⟨_ | artifact, building⟩
      · cases building with
        | true =>
            rw [h.call_digested_of_building hslot]
            exact .refl h
        | false =>
            rw [h.call_digested_of_vacant hslot]
            exact (h.continues_setSlot level _).trans (continues_ensureFormat _ _)
      · rw [h.call_digested_of_built (by rw [hslot])]
        exact ⟨rfl, rfl, id⟩

theorem continues_answerCheck (h : Handle A D) (verdict : Verdict Unit) :
    h.Continues (h.answerCheck verdict).1 := by
  unfold answerCheck
  split
  · rename_i request rest hpending
    have hpopped : ∀ format, h.Continues { h with pending := rest, format := format } :=
      fun _ => ⟨rfl, rfl, id⟩
    cases verdict with
    | success _ => exact (hpopped _).trans (continues_pass _ request)
    | failed e => exact (hpopped _).trans (continues_fail _ request e)
    | panicked text => exact (hpopped h.format).trans (continues_breakOff _ request text)
  · exact .refl h

theorem continues_answerBuild (h : Handle A D) (verdict : Verdict A) :
    h.Continues (h.answerBuild verdict).1 := by
  unfold answerBuild
  split
  · rename_i level rest hpending
    have hpopped : h.Continues { h with pending := rest } := ⟨rfl, rfl, id⟩
    cases verdict with
    | success value => exact ⟨rfl, rfl, fun hdistinct => distinct_setSlot hdistinct level _⟩
    | failed e => exact hpopped.trans (continues_fail _ _ e)
    | panicked text => exact hpopped.trans (continues_breakOff _ _ text)
  · exact .refl h

theorem continues_answerDecoder (h : Handle A D) (verdict : Verdict D) :
    h.Continues (h.answerDecoder verdict).1 := by
  unfold answerDecoder
  split
  · cases verdict <;> exact ⟨rfl, rfl, id⟩
  · exact .refl h

/-- **No input changes the content of a handle**, nor gives a level a second slot. -/
theorem continues_step (h : Handle A D) (input : Input A D) : h.Continues (h.step input) := by
  cases input with
  | call request => exact h.continues_call request
  | checked verdict => exact h.continues_answerCheck verdict
  | built verdict => exact h.continues_answerBuild verdict
  | builtDecoder verdict => exact h.continues_answerDecoder verdict
  | prefixTaken => exact ⟨rfl, rfl, id⟩

theorem continues_run (h : Handle A D) (inputs : List (Input A D)) :
    h.Continues (h.run inputs) := by
  induction inputs generalizing h with
  | nil => exact .refl h
  | cons input inputs ih => exact (h.continues_step input).trans (ih (h.step input))

end Handle

/-! ### Requests as runs -/

section Serve

variable {E : Engine σ A D} {R : World σ A D → World σ A D → Prop}

/-- What a relation between worlds must respect to hold from the start of a request to its end: it
holds across every input that the engine gives, and across the start of a build. -/
structure Respects (E : Engine σ A D) (R : World σ A D → World σ A D → Prop) : Prop where
  refl : ∀ w, R w w
  trans : ∀ {w w' w''}, R w w' → R w' w'' → R w w''
  call : ∀ w request, R w ⟨w.handle.step (.call request), w.engine⟩
  checked : ∀ w, R w ⟨w.handle.step (.checked (E.check w.engine w.handle.content w.handle.isRaw).1),
    (E.check w.engine w.handle.content w.handle.isRaw).2⟩
  prepared : ∀ w target, R w ⟨w.handle, (E.prepare w.engine w.handle target).2⟩
  built : ∀ w level, R w ⟨w.handle.step (.built (E.build w.engine w.handle.content level).1),
    (E.build w.engine w.handle.content level).2⟩
  builtDecoder : ∀ w, R w
    ⟨w.handle.step (.builtDecoder (E.buildDecoder w.engine w.handle.content).1),
      (E.buildDecoder w.engine w.handle.content).2⟩
  brokenOff : ∀ w text, R w ⟨w.handle.step (.built (.panicked text)), w.engine⟩
  brokenOffDecoder : ∀ w text, R w ⟨w.handle.step (.builtDecoder (.panicked text)), w.engine⟩

theorem Respects.settleCheck (hR : Respects E R) (w : World σ A D) (p : Progress A D) :
    R w (settleCheck E w p).1 := by
  unfold SharedDictionary.settleCheck
  split
  · exact hR.checked w
  · exact hR.refl w

theorem Respects.startBuild (hR : Respects E R) (w : World σ A D) :
    R w (startBuild E w).2 := by
  unfold SharedDictionary.startBuild
  split
  · exact hR.prepared w _
  · exact hR.prepared w _
  · exact hR.refl w

theorem Respects.settleBuild (hR : Respects E R) (w : World σ A D) (brokenOff : Option String) :
    R w (settleBuild E w brokenOff).1 := by
  unfold SharedDictionary.settleBuild
  split
  · cases brokenOff with
    | none => exact hR.built w _
    | some text => exact hR.brokenOff w text
  · cases brokenOff with
    | none => exact hR.builtDecoder w
    | some text => exact hR.brokenOffDecoder w text
  · exact hR.refl w

/-- One of the requests that a build makes, unless one before it broke off. -/
def requestNext (E : Engine σ A D) (depth : Nat) (sofar : Option String × World σ A D)
    (level : Int32) : Option String × World σ A D :=
  if sofar.1.isSome then sofar
  else
    match serve E depth (.digested level) sofar.2 with
    | (.panicked text, w) => (some text, w)
    | (_, w) => (none, w)

/-- The build of the topmost call: its start, its requests and its end. -/
def runBuild (E : Engine σ A D) (depth : Nat) (w : World σ A D) : Reply A D × World σ A D :=
  let started := startBuild E w
  let requested := started.1.foldl (requestNext E depth) (none, started.2)
  let settled := settleBuild E requested.2 requested.1
  (settled.2.reply, settled.1)

/-- A request runs a build unless it is settled without one. -/
theorem serve_succ (E : Engine σ A D) (depth : Nat) (request : Request) (w : World σ A D) :
    serve E (depth + 1) request w
      = match settleCheck E ⟨(w.handle.call request).1, w.engine⟩ (w.handle.call request).2 with
        | (w, .replied reply) => (reply, w)
        | (w, .waiting) => runBuild E depth w := rfl

theorem Respects.requestNext (hR : Respects E R) {depth : Nat}
    (hserve : ∀ request w, R w (serve E depth request w).2)
    (sofar : Option String × World σ A D) (level : Int32) :
    R sofar.2 (requestNext E depth sofar level).2 := by
  obtain ⟨_ | text, w⟩ := sofar
  · have hfirst := hserve (.digested level) w
    unfold SharedDictionary.requestNext
    rcases hreply : serve E depth (.digested level) w with ⟨reply, w'⟩
    rw [hreply] at hfirst
    cases reply <;> exact hfirst
  · exact hR.refl w

theorem Respects.runBuild (hR : Respects E R) {depth : Nat}
    (hserve : ∀ request w, R w (serve E depth request w).2) (w : World σ A D) :
    R w (runBuild E depth w).2 := by
  have hrequests : ∀ (levels : List Int32) (sofar : Option String × World σ A D),
      R sofar.2 (levels.foldl (SharedDictionary.requestNext E depth) sofar).2 := by
    intro levels
    induction levels with
    | nil => exact fun sofar => hR.refl sofar.2
    | cons level levels ih =>
        intro sofar
        exact hR.trans (hR.requestNext hserve sofar level) (ih _)
  exact hR.trans (hR.startBuild w) (hR.trans (hrequests _ (none, _)) (hR.settleBuild _ _))

/-- **What every input respects, a request respects**, however deep its builds nest. -/
theorem Respects.serve (hR : Respects E R) (depth : Nat) (request : Request) (w : World σ A D) :
    R w (serve E depth request w).2 := by
  induction depth generalizing request w with
  | zero => exact hR.refl w
  | succ depth ih =>
      have hcall := hR.call w request
      have hcheck := hR.settleCheck ⟨(w.handle.call request).1, w.engine⟩ (w.handle.call request).2
      rw [serve_succ]
      rcases hsettled : SharedDictionary.settleCheck E ⟨(w.handle.call request).1, w.engine⟩
        (w.handle.call request).2 with ⟨checked, _ | _⟩ <;> rw [hsettled] at hcheck
      · exact hR.trans hcall hcheck
      · exact hR.trans hcall (hR.trans hcheck (hR.runBuild ih checked))

/-- The handles that runs connect. -/
theorem respects_run (E : Engine σ A D) :
    Respects E fun w w' => ∃ inputs, w'.handle = w.handle.run inputs where
  refl _ := ⟨[], rfl⟩
  trans := by
    rintro w w' w'' ⟨first, hfirst⟩ ⟨second, hsecond⟩
    exact ⟨first ++ second, by rw [hsecond, hfirst, Handle.run_append]⟩
  call _ request := ⟨[.call request], rfl⟩
  checked _ := ⟨[.checked _], rfl⟩
  prepared _ _ := ⟨[], rfl⟩
  built _ _ := ⟨[.built _], rfl⟩
  builtDecoder _ := ⟨[.builtDecoder _], rfl⟩
  brokenOff _ text := ⟨[.built (.panicked text)], rfl⟩
  brokenOffDecoder _ text := ⟨[.builtDecoder (.panicked text)], rfl⟩

/-- **A request runs its handle through some inputs**, whatever the engine. -/
theorem serve_eq_run (E : Engine σ A D) (depth : Nat) (request : Request) (w : World σ A D) :
    ∃ inputs, (serve E depth request w).2.handle = w.handle.run inputs :=
  (respects_run E).serve depth request w

/-- A request changes neither the content of its handle nor whether it is raw. -/
theorem continues_serve (E : Engine σ A D) (depth : Nat) (request : Request) (w : World σ A D) :
    w.handle.Continues (serve E depth request w).2.handle := by
  obtain ⟨inputs, hrun⟩ := serve_eq_run E depth request w
  rw [hrun]
  exact w.handle.continues_run inputs

end Serve

end SharedDictionary
