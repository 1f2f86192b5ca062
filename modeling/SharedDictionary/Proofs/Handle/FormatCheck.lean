import SharedDictionary.Proofs.Handle.Accounting

/-!
# The format is checked once

A handle remembers what the engine answers to the format check, and asks no more.  A check that breaks
off is not an answer, so the next call asks again.

The checks of a run therefore have a simple form: some that broke off, and then at most one that
returned (`Vetted`).  What is remembered decides what a handle can do at all.  Before an answer there is
at most the one call that waits for it; after a refusal there is none, and every call fails with the
same error (`Refused.noticed`); only after a success builds start, so without one no slot is filled
(`built_eq_none_of_not_ofBuild`).

All of this needs that the engine makes no request of the handle while it checks the format
(`Handle.Undisturbed`), as it does when it is driven by `serve`.

The main result is `format_checked_once`.
-/

namespace SharedDictionary

variable {σ A D : Type}

namespace Happening

/-- A format check starts or ends. -/
def ofCheck : Happening A D → Bool
  | .checkStarted => true
  | .checkEnded _ => true
  | _ => false

/-- A build starts, or a call returns at the end of its build. -/
def ofBuild : Happening A D → Bool
  | .buildStarted _ => true
  | .returned _ _ afterBuild => afterBuild
  | _ => false

/-- Only a build builds something. -/
theorem built?_eq_none {happening : Happening A D} (hbuild : happening.ofBuild = false) :
    happening.built? = none := by
  cases happening with
  | returned request reply afterBuild =>
      cases hbuild
      cases request <;> cases reply <;> rfl
  | _ => rfl

end Happening

/-- Format checks that broke off one after the other. -/
def brokenChecks (texts : List String) : List (Happening A D) :=
  texts.flatMap fun text => [.checkStarted, .checkEnded (.panicked text)]

theorem brokenChecks_concat (texts : List String) (text : String) :
    (brokenChecks (texts ++ [text]) : List (Happening A D))
      = brokenChecks texts ++ [.checkStarted, .checkEnded (.panicked text)] := by
  unfold brokenChecks
  rw [List.flatMap_append, List.flatMap_singleton]

namespace Handle

/-! ### What is remembered agrees with what happened -/

/-- What a handle remembers of the format, the calls that wait, and the checks and builds so far agree:
some checks broke off, and then at most one returned. -/
inductive Vetted (h : Handle A D) (told : List (Happening A D)) : Prop
  /-- No check is going on, and none has returned. -/
  | unasked (texts : List String) (hformat : h.format = none) (hpending : h.pending = [])
      (hchecks : told.filter Happening.ofCheck = brokenChecks texts)
      (hbuilds : ∀ happening ∈ told, happening.ofBuild = false)
  /-- A call waits for the check. -/
  | asking (texts : List String) (request : Request) (hformat : h.format = none)
      (hpending : h.pending = [⟨request, .checking⟩])
      (hchecks : told.filter Happening.ofCheck = brokenChecks texts ++ [.checkStarted])
      (hbuilds : ∀ happening ∈ told, happening.ofBuild = false)
  /-- The content was refused. -/
  | refused (texts : List String) (e : DictError) (hformat : h.format = some (.error e))
      (hpending : h.pending = [])
      (hchecks : told.filter Happening.ofCheck
        = brokenChecks texts ++ [.checkStarted, .checkEnded (.failed e)])
      (hbuilds : ∀ happening ∈ told, happening.ofBuild = false)
  /-- The content was accepted, and calls wait for builds only. -/
  | passed (texts : List String) (hformat : h.format = some (.ok ()))
      (hpending : ∀ p ∈ h.pending, p.stage = .building)
      (hchecks : told.filter Happening.ofCheck
        = brokenChecks texts ++ [.checkStarted, .checkEnded (.success ())])

variable {h h' : Handle A D} {told more : List (Happening A D)} {request : Request}
  {rest : List Pending} {result : Handle A D × Progress A D}

/-- Without checks among them, more happenings leave the checks as they were. -/
private theorem filter_append_of_not (hmore : ∀ happening ∈ more, happening.ofCheck = false) :
    (told ++ more).filter Happening.ofCheck = told.filter Happening.ofCheck := by
  have hnone : more.filter Happening.ofCheck = [] := by
    refine List.filter_eq_nil_iff.mpr fun happening hmem => ?_
    rw [hmore happening hmem]
    exact Bool.false_ne_true
  rw [List.filter_append, hnone, List.append_nil]

/-- Where the engine is asked nothing and the calls that wait are the same, all stays as it is. -/
theorem Vetted.quiet (hh : h.Vetted told) (hformat : h'.format = h.format)
    (hpending : h'.pending = h.pending)
    (hmore : ∀ happening ∈ more, happening.ofCheck = false ∧ happening.ofBuild = false) :
    h'.Vetted (told ++ more) := by
  have hfilter : (told ++ more).filter Happening.ofCheck = told.filter Happening.ofCheck :=
    filter_append_of_not fun happening hmem => (hmore happening hmem).1
  have hsilent : (∀ happening ∈ told, happening.ofBuild = false) →
      ∀ happening ∈ told ++ more, happening.ofBuild = false := fun htold =>
    List.forall_mem_append.mpr ⟨htold, fun happening hmem => (hmore happening hmem).2⟩
  cases hh with
  | unasked texts hnone hempty hchecks hbuilds =>
      exact .unasked texts (hformat.trans hnone) (hpending.trans hempty) (hfilter.trans hchecks)
        (hsilent hbuilds)
  | asking texts request hnone hone hchecks hbuilds =>
      exact .asking texts request (hformat.trans hnone) (hpending.trans hone)
        (hfilter.trans hchecks) (hsilent hbuilds)
  | refused texts e herror hempty hchecks hbuilds =>
      exact .refused texts e (hformat.trans herror) (hpending.trans hempty)
        (hfilter.trans hchecks) (hsilent hbuilds)
  | passed texts hok hall hchecks =>
      exact .passed texts (hformat.trans hok) (hpending ▸ hall) (hfilter.trans hchecks)

theorem Ends.pending (hends : Ends request rest result) : result.1.pending = rest := by
  obtain ⟨_, -, -, hpending⟩ := hends
  exact hpending

/-- The end of a call without a build asks nothing of the engine. -/
theorem quiet_upshot (hends : Ends request rest result) :
    ∀ happening ∈ result.2.upshot result.1.pending request false,
      happening.ofCheck = false ∧ happening.ofBuild = false := by
  obtain ⟨reply, hreplied, -, -⟩ := hends
  rw [hreplied]
  refine List.forall_mem_singleton.mpr ?_
  cases reply <;> exact ⟨rfl, rfl⟩

/-- Where the content was accepted, a call ends or waits for its build. -/
theorem vetted_of_settles (texts : List String)
    (hchecks : told.filter Happening.ofCheck
      = brokenChecks texts ++ [.checkStarted, .checkEnded (.success ())])
    (hrest : ∀ p ∈ rest, p.stage = .building) (hformat : result.1.format = some (.ok ()))
    (hsettles : Settles request rest result) (afterBuild : Bool) :
    result.1.Vetted (told ++ result.2.upshot result.1.pending request afterBuild) := by
  cases hsettles with
  | ended hends =>
      obtain ⟨reply, hreplied, -, hpending⟩ := hends
      refine .passed texts hformat (hpending ▸ hrest) ?_
      rw [filter_append_of_not, hchecks]
      rw [hreplied]
      refine List.forall_mem_singleton.mpr ?_
      cases reply <;> rfl
  | building target htarget hwaiting hpending =>
      refine .passed texts hformat ?_ ?_
      · rw [hpending]
        exact List.forall_mem_cons.mpr ⟨rfl, hrest⟩
      · rw [filter_append_of_not, hchecks]
        rw [hwaiting, hpending]
        simp only [Progress.upshot, List.head?_cons, Option.elim_some, Pending.starts, htarget]
        exact List.forall_mem_singleton.mpr rfl

@[simp] theorem format_fail (h : Handle A D) (request : Request) (e : DictError) :
    (h.fail request e).1.format = h.format := by
  cases request <;> rfl

@[simp] theorem format_breakOff (h : Handle A D) (request : Request) (text : String) :
    (h.breakOff request text).1.format = h.format := by
  cases request <;> rfl

@[simp] theorem format_pass (h : Handle A D) (request : Request) :
    (h.pass request).1.format = h.format := by
  cases request <;> rfl

/-- A call keeps what is remembered in agreement, unless a check is going on. -/
theorem Vetted.call (hh : h.Vetted told) (hundisturbed : ¬h.Checking) (request : Request) :
    (h.call request).1.Vetted (told ++ .called request
      :: (h.call request).2.upshot (h.call request).1.pending request false) := by
  rw [List.append_cons]
  have hcalled : h.Vetted (told ++ [.called request]) :=
    hh.quiet rfl rfl (List.forall_mem_singleton.mpr ⟨rfl, rfl⟩)
  have hfinds := h.finds_call request
  generalize h.call request = result at hfinds ⊢
  cases hfinds with
  | digest => exact hcalled.quiet rfl rfl (List.forall_mem_singleton.mpr ⟨rfl, rfl⟩)
  | decoder => exact hcalled.quiet rfl rfl (List.forall_mem_singleton.mpr ⟨rfl, rfl⟩)
  | held => exact hcalled.quiet rfl rfl (List.forall_mem_singleton.mpr ⟨rfl, rfl⟩)
  | vacant =>
      -- The slot that the call takes plays no part: how it goes on depends on what is remembered.
      have hpending := h.pending_take request
      have hformat := h.format_take request
      generalize h.take request = taken at hpending hformat ⊢
      cases hcalled with
      | unasked texts hnone hempty hchecks hbuilds =>
          have hensure : taken.ensureFormat request
              = ((taken.count .formatCheck).push ⟨request, .checking⟩, .waiting) := by
            simp only [ensureFormat, hformat, hnone]
          rw [hensure]
          refine .asking texts request (hformat.trans hnone) ?_ ?_ ?_
          · exact congrArg (List.cons ⟨request, .checking⟩) (hpending.trans hempty)
          · rw [List.filter_append, hchecks]
            rfl
          · exact List.forall_mem_append.mpr ⟨hbuilds, List.forall_mem_singleton.mpr rfl⟩
      | asking texts other hnone hone hchecks hbuilds =>
          exact absurd ⟨other, [], hone⟩ hundisturbed
      | refused texts e herror hempty hchecks hbuilds =>
          have hensure : taken.ensureFormat request = taken.fail request e := by
            simp only [ensureFormat, hformat, herror]
          rw [hensure]
          have htaken : taken.Vetted (told ++ [.called request]) :=
            .refused texts e (hformat.trans herror) (hpending.trans hempty) hchecks hbuilds
          have hends := taken.ends_fail request e
          exact htaken.quiet (taken.format_fail request e) hends.pending (quiet_upshot hends)
      | passed texts hok hall hchecks =>
          have hensure : taken.ensureFormat request = taken.pass request := by
            simp only [ensureFormat, hformat, hok]
          rw [hensure]
          refine vetted_of_settles texts hchecks (hpending ▸ hall) ?_ (taken.settles_pass request)
            false
          rw [taken.format_pass, hformat, hok]

/-- The answer of a check is remembered if it is one. -/
theorem Vetted.checked (hh : h.Vetted told) (hpending : h.pending = ⟨request, .checking⟩ :: rest)
    (verdict : Verdict Unit) :
    (h.answerCheck verdict).1.Vetted (told ++ .checkEnded verdict
      :: (h.answerCheck verdict).2.upshot (h.answerCheck verdict).1.pending request false) := by
  rw [List.append_cons]
  -- Only the one call that asked can wait for an answer.
  obtain ⟨texts, hnone, rfl, hchecks, hbuilds⟩ : ∃ texts, h.format = none ∧ rest = []
      ∧ told.filter Happening.ofCheck = brokenChecks texts ++ [.checkStarted]
      ∧ ∀ happening ∈ told, happening.ofBuild = false := by
    cases hh with
    | unasked texts hnone hempty hchecks hbuilds =>
        rw [hempty] at hpending
        cases hpending
    | asking texts other hnone hone hchecks hbuilds =>
        rw [hone] at hpending
        cases hpending
        exact ⟨texts, hnone, rfl, hchecks, hbuilds⟩
    | refused texts e herror hempty hchecks hbuilds =>
        rw [hempty] at hpending
        cases hpending
    | passed texts hok hall hchecks =>
        have htop := hall ⟨request, .checking⟩ (hpending ▸ List.mem_cons_self)
        cases htop
  have hanswered : (told ++ [Happening.checkEnded verdict]).filter Happening.ofCheck
      = brokenChecks texts ++ [.checkStarted, .checkEnded verdict] := by
    rw [List.filter_append, hchecks]
    exact List.append_assoc _ _ _
  have hsilent : ∀ happening ∈ told ++ [Happening.checkEnded verdict],
      happening.ofBuild = false :=
    List.forall_mem_append.mpr ⟨hbuilds, List.forall_mem_singleton.mpr rfl⟩
  simp only [answerCheck, hpending]
  rcases verdict with ⟨⟨⟩⟩ | e | text
  · exact vetted_of_settles texts hanswered (List.forall_mem_nil _) (format_pass _ request)
      (settles_pass { h with pending := [], format := some (.ok ()) } request) false
  · have hfailed : ({ h with pending := [], format := some (.error e) } : Handle A D).Vetted
        (told ++ [.checkEnded (.failed e)]) := .refused texts e rfl rfl hanswered hsilent
    have hends := ends_fail { h with pending := [], format := some (.error e) } request e
    exact hfailed.quiet (format_fail _ request e) hends.pending (quiet_upshot hends)
  · have hbroken : ({ h with pending := [] } : Handle A D).Vetted
        (told ++ [.checkEnded (.panicked text)]) :=
      .unasked (texts ++ [text]) hnone rfl
        (hanswered.trans (brokenChecks_concat texts text).symm) hsilent
    have hends := ends_breakOff { h with pending := [] } request text
    exact hbroken.quiet (format_breakOff _ request text) hends.pending (quiet_upshot hends)

/-- Only where the content was accepted, a call waits for a build. -/
private theorem Vetted.passed_of_building (hh : h.Vetted told)
    (hpending : h.pending = ⟨request, .building⟩ :: rest) :
    ∃ texts, h.format = some (.ok ()) ∧ (∀ p ∈ rest, p.stage = .building)
      ∧ told.filter Happening.ofCheck
        = brokenChecks texts ++ [.checkStarted, .checkEnded (.success ())] := by
  cases hh with
  | unasked texts hnone hempty hchecks hbuilds =>
      rw [hempty] at hpending
      cases hpending
  | asking texts other hnone hone hchecks hbuilds =>
      rw [hone] at hpending
      cases hpending
  | refused texts e herror hempty hchecks hbuilds =>
      rw [hempty] at hpending
      cases hpending
  | passed texts hok hall hchecks =>
      exact ⟨texts, hok, fun p hmem => hall p (hpending ▸ List.mem_cons_of_mem _ hmem), hchecks⟩

/-- **An input keeps what is remembered in agreement**, unless it disturbs a check. -/
theorem Vetted.step (hh : h.Vetted told) {input : Input A D}
    (hundisturbed : h.Checking → ∀ request, input ≠ .call request) :
    (h.step input).Vetted (told ++ h.noticed input) := by
  have hreacts := h.reacts input
  generalize h.step input = h', h.noticed input = more at hreacts ⊢
  cases hreacts with
  | called request =>
      exact hh.call (fun hchecking => hundisturbed hchecking request rfl) request
  | checked request rest verdict hpending => exact hh.checked hpending verdict
  | built level rest verdict hpending =>
      obtain ⟨texts, hok, hrest, hchecks⟩ := hh.passed_of_building hpending
      refine vetted_of_settles texts hchecks hrest ?_ (.ended (ends_answerBuild hpending verdict))
        true
      simp only [answerBuild, hpending]
      cases verdict <;> exact hok
  | builtDecoder rest verdict hpending =>
      obtain ⟨texts, hok, hrest, hchecks⟩ := hh.passed_of_building hpending
      refine vetted_of_settles texts hchecks hrest ?_
        (.ended (ends_answerDecoder hpending verdict)) true
      simp only [answerDecoder, hpending]
      cases verdict <;> exact hok
  | prefixTaken => exact hh.quiet rfl rfl (List.forall_mem_singleton.mpr ⟨rfl, rfl⟩)
  | ignored => exact hh.quiet rfl rfl (List.forall_mem_nil _)

/-- **In every run whose checks are undisturbed, what is remembered agrees with what happened.** -/
theorem vetted_run (content : ByteArray) (isRaw : Bool) (inputs : List (Input A D))
    (hundisturbed : (new content isRaw).Undisturbed inputs) :
    ((new content isRaw).run inputs).Vetted ((new content isRaw).chronicle inputs) := by
  induction inputs using List.reverseRecOn with
  | nil => exact .unasked [] rfl rfl rfl (List.forall_mem_nil _)
  | append_singleton inputs input ih =>
      obtain ⟨hbefore, hlast, -⟩ := (undisturbed_append _ inputs [input]).mp hundisturbed
      rw [run_concat, chronicle_concat]
      exact (ih hbefore).step hlast

/-! ### What follows from the answer -/

/-- Some checks broke off, and then at most one returned. -/
def ChecksOnce (told : List (Happening A D)) : Prop :=
  ∃ texts last, told.filter Happening.ofCheck = brokenChecks texts ++ last
    ∧ (last = [] ∨ last = [.checkStarted]
      ∨ ∃ verdict : Verdict Unit, (∀ text, verdict ≠ .panicked text)
        ∧ last = [.checkStarted, .checkEnded verdict])

theorem Vetted.checksOnce (hh : h.Vetted told) : ChecksOnce told := by
  cases hh with
  | unasked texts _ _ hchecks =>
      exact ⟨texts, [], hchecks.trans (List.append_nil _).symm, Or.inl rfl⟩
  | asking texts request _ _ hchecks =>
      exact ⟨texts, [.checkStarted], hchecks, Or.inr (Or.inl rfl)⟩
  | refused texts e _ _ hchecks =>
      exact ⟨texts, _, hchecks, Or.inr (Or.inr ⟨.failed e, fun _ heq => (by cases heq), rfl⟩)⟩
  | passed texts _ _ hchecks =>
      exact ⟨texts, _, hchecks, Or.inr (Or.inr ⟨.success (), fun _ heq => (by cases heq), rfl⟩)⟩

/-- A check that broke off did not fail. -/
private theorem failed_not_mem_brokenChecks (texts : List String) (e : DictError) :
    (.checkEnded (.failed e) : Happening A D) ∉ brokenChecks texts := by
  intro hmem
  obtain ⟨text, -, hmem⟩ := List.mem_flatMap.mp hmem
  simp at hmem

/-- A refusal is remembered; no call waits, and no build was started. -/
theorem Vetted.of_failed (hh : h.Vetted told) {e : DictError}
    (hfailed : .checkEnded (.failed e) ∈ told) :
    h.format = some (.error e) ∧ h.pending = []
      ∧ ∀ happening ∈ told, happening.ofBuild = false := by
  have hcheck : .checkEnded (.failed e) ∈ told.filter Happening.ofCheck :=
    List.mem_filter.mpr ⟨hfailed, rfl⟩
  have hlast : ∀ (texts : List String) (last : List (Happening A D)),
      told.filter Happening.ofCheck = brokenChecks texts ++ last →
      .checkEnded (.failed e) ∈ last := by
    intro texts last hchecks
    rw [hchecks] at hcheck
    exact (List.mem_append.mp hcheck).resolve_left (failed_not_mem_brokenChecks texts e)
  cases hh with
  | unasked texts _ _ hchecks =>
      cases hlast texts [] (hchecks.trans (List.append_nil _).symm)
  | asking texts request _ _ hchecks => simpa using hlast texts _ hchecks
  | refused texts e' herror hempty hchecks hbuilds =>
      have heq : e = e' := by simpa using hlast texts _ hchecks
      exact ⟨heq ▸ herror, hempty, hbuilds⟩
  | passed texts _ _ hchecks => simpa using hlast texts _ hchecks

/-- Without a success, no build was started. -/
theorem Vetted.success_or_not_ofBuild (hh : h.Vetted told) :
    .checkEnded (.success ()) ∈ told ∨ ∀ happening ∈ told, happening.ofBuild = false := by
  cases hh with
  | unasked texts _ _ _ hbuilds => exact Or.inr hbuilds
  | asking texts request _ _ _ hbuilds => exact Or.inr hbuilds
  | refused texts e _ _ _ hbuilds => exact Or.inr hbuilds
  | passed texts _ _ hchecks =>
      have hcheck : .checkEnded (.success ()) ∈ told.filter Happening.ofCheck := by
        rw [hchecks]
        simp
      exact Or.inl (List.mem_of_mem_filter hcheck)

/-- Where nothing was built, every slot is empty. -/
theorem built_eq_none_of_not_ofBuild (content : ByteArray) (isRaw : Bool)
    (inputs : List (Input A D))
    (hbuilds : ∀ happening ∈ (new content isRaw : Handle A D).chronicle inputs,
      happening.ofBuild = false) (target : BuildTarget) :
    (((new content isRaw).run inputs).slotAt target).built = none := by
  obtain ⟨-, hmem⟩ := fills_run content isRaw inputs
  rw [← Option.not_isSome_iff_eq_none, ← hmem]
  intro hbuilt
  obtain ⟨happening, hhappening, htarget⟩ := List.mem_filterMap.mp hbuilt
  rw [Happening.built?_eq_none (hbuilds happening hhappening)] at htarget
  cases htarget

/-! ### Refused content -/

/-- A refused handle: it remembers the error, no call waits, and every slot is vacant. -/
structure Refused (h : Handle A D) (e : DictError) : Prop where
  format : h.format = some (.error e)
  pending : h.pending = []
  vacant : ∀ target, h.slotAt target = .vacant

theorem refused_run (content : ByteArray) (isRaw : Bool) {inputs : List (Input A D)}
    (hundisturbed : (new content isRaw).Undisturbed inputs) {e : DictError}
    (hfailed : .checkEnded (.failed e) ∈ (new content isRaw).chronicle inputs) :
    ((new content isRaw).run inputs).Refused e := by
  obtain ⟨hformat, hpending, hbuilds⟩ := (vetted_run content isRaw inputs hundisturbed).of_failed
    hfailed
  refine ⟨hformat, hpending, fun target => ?_⟩
  -- A slot that is held has its build on the stack, and the stack is empty.
  have hbuilding := (consistent_run content isRaw inputs).building target
  rw [underway, hpending] at hbuilding
  refine Slot.eq_vacant (built_eq_none_of_not_ofBuild content isRaw inputs hbuilds target) ?_
  rw [← Bool.not_eq_true, hbuilding]
  exact List.not_mem_nil

/-- **A refused handle fails every call at once.** -/
theorem Refused.call_eq {e : DictError} (hh : h.Refused e) (request : Request) :
    h.call request = (h.take request).fail request e := by
  have hfinds := h.finds_call request
  generalize h.call request = result at hfinds ⊢
  cases hfinds with
  | digest level artifact hbuilt =>
      have hslot := congrArg (fun slot => slot.built.isSome) (hh.vacant (.level level))
      simp only [slotAt, Slot.isSome_built_map, hbuilt] at hslot
      cases hslot
  | decoder artifact hbuilt =>
      have hslot := congrArg (fun slot => slot.built.isSome) (hh.vacant .decoder)
      simp only [slotAt, Slot.isSome_built_map, hbuilt] at hslot
      cases hslot
  | held request target htarget hheld =>
      rw [hh.vacant] at hheld
      cases hheld
  | vacant => simp only [ensureFormat, format_take, hh.format]

/-- What may still happen around a refused handle: prefixes are taken, and calls fail with its error. -/
inductive AfterRefusal (e : DictError) : Happening A D → Prop
  | prefixTaken : AfterRefusal e .prefixTaken
  | called (request : Request) : AfterRefusal e (.called request)
  | returned (request : Request) : AfterRefusal e (.returned request (.failed e) false)

theorem Refused.noticed {e : DictError} (hh : h.Refused e) (input : Input A D) :
    ∀ happening ∈ h.noticed input, AfterRefusal e happening := by
  have hreacts := h.reacts input
  generalize h.step input = h', h.noticed input = more at hreacts ⊢
  have hidle : ∀ {p : Pending} {rest : List Pending}, h.pending ≠ p :: rest := by
    intro p rest hpending
    rw [hh.pending] at hpending
    cases hpending
  cases hreacts with
  | called request =>
      have hreplied : (h.call request).2 = .replied (.failed e) := by
        rw [hh.call_eq]
        cases request <;> rfl
      rw [hreplied]
      exact List.forall_mem_cons.mpr
        ⟨.called request, List.forall_mem_singleton.mpr (.returned request)⟩
  | checked request rest verdict hpending => exact absurd hpending hidle
  | built level rest verdict hpending => exact absurd hpending hidle
  | builtDecoder rest verdict hpending => exact absurd hpending hidle
  | prefixTaken => exact List.forall_mem_singleton.mpr .prefixTaken
  | ignored => exact List.forall_mem_nil _

/-- **After a refusal, every call fails with the same error.** -/
theorem afterRefusal_chronicle (content : ByteArray) (isRaw : Bool) {inputs : List (Input A D)}
    {e : DictError} (hundisturbed : (new content isRaw).Undisturbed inputs)
    (hfailed : .checkEnded (.failed e) ∈ (new content isRaw).chronicle inputs)
    (later : List (Input A D)) (hlater : ((new content isRaw).run inputs).Undisturbed later) :
    ∀ happening ∈ ((new content isRaw).run inputs).chronicle later, AfterRefusal e happening := by
  induction later generalizing inputs with
  | nil => exact List.forall_mem_nil _
  | cons input later ih =>
      obtain ⟨hnow, hrest⟩ := hlater
      -- The input joins the run, whose checks include the refusal still.
      have hboth : (new content isRaw).Undisturbed (inputs ++ [input]) :=
        (undisturbed_append _ inputs [input]).mpr ⟨hundisturbed, hnow, trivial⟩
      have hstill : .checkEnded (.failed e) ∈ (new content isRaw).chronicle (inputs ++ [input]) := by
        rw [chronicle_append]
        exact List.mem_append_left _ hfailed
      rw [← run_concat] at hrest
      have hlast := ih hboth hstill hrest
      rw [run_concat] at hlast
      exact List.forall_mem_append.mpr
        ⟨(refused_run content isRaw hundisturbed hfailed).noticed input, hlast⟩

/-- **Only a request makes the engine check the format.** -/
theorem checkStarted_not_mem (content : ByteArray) (isRaw : Bool) (inputs : List (Input A D))
    (hnone : ∀ request, .called request ∉ (new content isRaw : Handle A D).chronicle inputs) :
    .checkStarted ∉ (new content isRaw : Handle A D).chronicle inputs := by
  intro hstarted
  have hrequests : ((new content isRaw : Handle A D).chronicle inputs).countP Happening.isRequest
      = 0 := by
    refine List.countP_eq_zero.mpr fun happening hmem hrequest => ?_
    cases happening with
    | called request => exact hnone request hmem
    | _ => cases hrequest
  have hchecks := (balances_run (new content isRaw) inputs).checks
  rw [hrequests] at hchecks
  exact List.countP_eq_zero.mp (Nat.le_zero.mp hchecks) .checkStarted hstarted rfl

/-- **What is cached was built after a success.** -/
theorem success_of_built (content : ByteArray) (isRaw : Bool) {inputs : List (Input A D)}
    (hundisturbed : (new content isRaw).Undisturbed inputs) {target : BuildTarget}
    (hbuilt : (((new content isRaw).run inputs).slotAt target).built.isSome) :
    .checkEnded (.success ()) ∈ (new content isRaw : Handle A D).chronicle inputs := by
  obtain hsuccess | hbuilds := (vetted_run content isRaw inputs hundisturbed).success_or_not_ofBuild
  · exact hsuccess
  · rw [built_eq_none_of_not_ofBuild content isRaw inputs hbuilds target] at hbuilt
    cases hbuilt

/-- What the format check of a handle comes to. -/
structure OneCheck (h : Handle A D) (told : List (Happening A D)) : Prop where
  /-- Checks broke off until one returned, and none was made after it. -/
  once : ChecksOnce told
  /-- Without a request there is no check. -/
  requested : (∀ request, .called request ∉ told) → .checkStarted ∉ told
  /-- After a refusal every call fails with its error, nothing is built and nothing is cached. -/
  refused : ∀ e, .checkEnded (.failed e) ∈ told →
    (∀ target, .buildStarted target ∉ told) ∧ h.cachedLevels = [] ∧ h.decoder.built = none
      ∧ (∀ request, (h.call request).2 = .replied (.failed e))
      ∧ ∀ later, h.Undisturbed later → ∀ happening ∈ h.chronicle later, AfterRefusal e happening
  /-- What is cached was built after a success. -/
  cached : ∀ level ∈ h.cachedLevels, .checkEnded (.success ()) ∈ told
  decoder : h.decoder.built.isSome → .checkEnded (.success ()) ∈ told

end Handle

/-- A refused handle fails a request without asking the engine. -/
theorem serve_refused {τ : Type} (E : Engine τ A D) (depth : Nat) (request : Request)
    {w : World τ A D} {e : DictError} (hw : w.handle.Refused e) :
    (serve E (depth + 1) request w).1 = .failed e
      ∧ (serve E (depth + 1) request w).2.engine = w.engine := by
  have hreplied : (w.handle.call request).2 = .replied (.failed e) := by
    rw [hw.call_eq]
    cases request <;> rfl
  have hopened : w.opened E request
      = (⟨(w.handle.call request).1, w.engine⟩, .replied (.failed e)) := by
    rw [World.opened, hreplied]
    rfl
  obtain ⟨hserve, -⟩ := serve_of_replied depth (congrArg Prod.snd hopened)
  rw [hserve, hopened]
  exact ⟨rfl, rfl⟩

/-- A refused handle has no views but prefixes. -/
theorem view_refused {τ : Type} (E : Engine τ A D) (depth : Nat) {mode : DictMode}
    (hmode : mode ≠ .prefixed) (level : Int32) {w : World τ A D} {e : DictError}
    (hw : w.handle.Refused e) :
    (view E (depth + 1) mode level w).1 = .error (.error e)
      ∧ (viewForDecompression E (depth + 1) mode w).1 = .error (.error e) := by
  cases mode with
  | prefixed => exact absurd rfl hmode
  | digested =>
      obtain ⟨hreply, -⟩ := serve_refused E depth (.digested level) hw
      obtain ⟨hdecoder, -⟩ := serve_refused E depth .decoder hw
      constructor
      · rcases hserve : serve E (depth + 1) (.digested level) w with ⟨reply, w'⟩
        rw [hserve] at hreply
        cases hreply
        simp only [view, hserve]
      · rcases hserve : serve E (depth + 1) .decoder w with ⟨reply, w'⟩
        rw [hserve] at hdecoder
        cases hdecoder
        simp only [viewForDecompression, hserve]
  | undigested =>
      obtain ⟨hreply, -⟩ := serve_refused E depth .undigested hw
      rcases hserve : serve E (depth + 1) .undigested w with ⟨reply, w'⟩
      rw [hserve] at hreply
      cases hreply
      simp only [view, viewForDecompression, hserve, and_self]

/-- Where no request is made, the engine is not asked for anything. -/
theorem engine_after_of_prefixes {τ : Type} (E : Engine τ A D) (w : World τ A D)
    (demands : List Demand) (hnone : ∀ depth request, .request depth request ∉ demands) :
    (w.after E demands).engine = w.engine := by
  induction demands generalizing w with
  | nil => rfl
  | cons demand demands ih =>
      have hrest : ∀ depth request, .request depth request ∉ demands :=
        fun depth request hmem => hnone depth request (List.mem_cons_of_mem demand hmem)
      cases demand with
      | request depth request => exact absurd List.mem_cons_self (hnone depth request)
      | prefixTaken => exact ih (w.meet E .prefixTaken) hrest

namespace Handle

/-- **The format check of every undisturbed run.** -/
theorem oneCheck_run (content : ByteArray) (isRaw : Bool) (inputs : List (Input A D))
    (hundisturbed : (new content isRaw).Undisturbed inputs) :
    ((new content isRaw).run inputs).OneCheck ((new content isRaw).chronicle inputs) where
  once := (vetted_run content isRaw inputs hundisturbed).checksOnce
  requested := checkStarted_not_mem content isRaw inputs
  refused e hfailed := by
    obtain ⟨-, -, hbuilds⟩ := (vetted_run content isRaw inputs hundisturbed).of_failed hfailed
    have hrefused := refused_run content isRaw hundisturbed hfailed
    have hbuilt := built_eq_none_of_not_ofBuild content isRaw inputs hbuilds
    refine ⟨fun target hstarted => ?_, ?_, ?_, fun request => ?_, ?_⟩
    · have hbuild := hbuilds _ hstarted
      cases hbuild
    · refine List.eq_nil_iff_forall_not_mem.mpr fun level hlevel => ?_
      rw [mem_cachedLevels_run, hbuilt] at hlevel
      cases hlevel
    · rw [← Option.not_isSome_iff_eq_none, ← isSome_built_slotAt_decoder, hbuilt]
      exact Bool.false_ne_true
    · rw [hrefused.call_eq]
      cases request <;> rfl
    · exact afterRefusal_chronicle content isRaw hundisturbed hfailed
  cached level hlevel :=
    success_of_built content isRaw hundisturbed ((mem_cachedLevels_run _ _ _ level).mp hlevel)
  decoder hbuilt := by
    rw [← isSome_built_slotAt_decoder] at hbuilt
    exact success_of_built content isRaw hundisturbed hbuilt

/-- **The format is checked once, and what the check says is final.**  In every run of a new handle
whose checks are undisturbed, some checks broke off and then at most one returned, and only a request
makes the engine check at all.  After a refusal every call fails with its error, nothing is built and
nothing is cached; what is cached was built after a success.

What demands do is such a run, whatever the engine, and its log shows the same: without a request it is
empty; after a refusal it does not grow, and there are no views but prefixes.  A prefix is the content
itself and asks the engine for nothing, whatever the check says. -/
theorem format_checked_once (content : ByteArray) (isRaw : Bool) :
    (∀ inputs : List (Input A D), (new content isRaw).Undisturbed inputs →
      ((new content isRaw).run inputs).OneCheck ((new content isRaw).chronicle inputs))
    ∧ ∀ {σ : Type} (E : Engine σ A D) (state : σ) (demands : List Demand),
      let start : World (σ × List (Happening A D)) A D := ⟨.new content isRaw, state, []⟩
      let reached := start.after E.logged demands
      let log := reached.engine.2
      reached.through Prod.fst = World.after E ⟨.new content isRaw, state⟩ demands
      ∧ (reached.handle = (new content isRaw).run (start.inputs E.logged demands)
        ∧ (new content isRaw : Handle A D).Undisturbed (start.inputs E.logged demands)
        ∧ log = ((new content isRaw).chronicle (start.inputs E.logged demands)).filter
            Happening.ofEngine)
      ∧ ChecksOnce log
      ∧ ((∀ depth request, .request depth request ∉ demands) → log = [])
      ∧ (∀ e, .checkEnded (.failed e) ∈ log →
        (∀ target, .buildStarted target ∉ log)
          ∧ reached.handle.cachedLevels = [] ∧ reached.handle.decoder.built = none
          ∧ (∀ depth request, (serve E.logged (depth + 1) request reached).1 = .failed e
            ∧ (serve E.logged (depth + 1) request reached).2.engine.2 = log)
          ∧ ∀ depth mode level, mode ≠ .prefixed →
            (view E.logged (depth + 1) mode level reached).1 = .error (.error e)
              ∧ (viewForDecompression E.logged (depth + 1) mode reached).1 = .error (.error e))
      ∧ ((∀ level ∈ reached.handle.cachedLevels, .checkEnded (.success ()) ∈ log)
        ∧ (reached.handle.decoder.built.isSome → .checkEnded (.success ()) ∈ log))
      ∧ (∀ depth level,
        (view E.logged depth .prefixed level reached).1 = .ok (.prefixed content)
          ∧ (view E.logged depth .prefixed level reached).2.engine.2 = log
          ∧ (viewForDecompression E.logged depth .prefixed reached).1 = .ok (.prefixed content)
          ∧ (viewForDecompression E.logged depth .prefixed reached).2.engine.2 = log)
      ∧ ∀ depth mode level,
        (view E.logged depth mode level reached).2
            = reached.meet E.logged (.ofMode depth (.digested level) mode)
          ∧ (viewForDecompression E.logged depth mode reached).2
            = reached.meet E.logged (.ofMode depth .decoder mode) := by
  refine ⟨oneCheck_run content isRaw, ?_⟩
  intro σ E state demands start reached log
  obtain ⟨⟨hrun, hundisturbed, hlog⟩, -⟩ := follows_after E start rfl demands
  change log = ((new content isRaw).chronicle (start.inputs E.logged demands)).filter
    Happening.ofEngine at hlog
  have hone := oneCheck_run content isRaw (start.inputs E.logged demands) hundisturbed
  have hmem : ∀ happening, happening ∈ log → happening
      ∈ (new content isRaw).chronicle (start.inputs E.logged demands) := by
    intro happening hhappening
    rw [hlog] at hhappening
    exact List.mem_of_mem_filter hhappening
  have hchecks : log.filter Happening.ofCheck
      = ((new content isRaw).chronicle (start.inputs E.logged demands)).filter
          Happening.ofCheck := by
    rw [hlog, List.filter_filter]
    refine List.filter_congr fun happening _ => ?_
    cases happening <;> rfl
  have hsuccess : .checkEnded (.success ())
      ∈ (new content isRaw).chronicle (start.inputs E.logged demands) →
      .checkEnded (.success ()) ∈ log := by
    intro hsuccess
    rw [hlog]
    exact List.mem_filter.mpr ⟨hsuccess, rfl⟩
  change reached.handle = (new content isRaw).run (start.inputs E.logged demands) at hrun
  have hcontent : reached.handle.content = content := by
    rw [hrun]
    exact (continues_run _ _).content
  rw [← hrun] at hone
  refine ⟨(after_covered (logged_covers E) start demands).symm, ⟨hrun, hundisturbed, hlog⟩,
    ?_, ?_, ?_, ⟨?_, ?_⟩, ?_, ?_⟩
  · unfold ChecksOnce
    rw [hchecks]
    exact hone.once
  · exact fun hnone => congrArg Prod.snd (engine_after_of_prefixes E.logged start demands hnone)
  · intro e hfailed
    obtain ⟨hbuilds, hcached, hdecoder, -, -⟩ := hone.refused e (hmem _ hfailed)
    have hrefused := refused_run content isRaw hundisturbed (hmem _ hfailed)
    rw [← hrun] at hrefused
    refine ⟨fun target hstarted => hbuilds target (hmem _ hstarted), hcached, hdecoder, ?_, ?_⟩
    · intro depth request
      obtain ⟨hreply, hengine⟩ := serve_refused E.logged depth request hrefused
      exact ⟨hreply, congrArg Prod.snd hengine⟩
    · exact fun depth mode level hmode => view_refused E.logged depth hmode level hrefused
  · exact fun level hlevel => hsuccess (hone.cached level hlevel)
  · exact fun hbuilt => hsuccess (hone.decoder hbuilt)
  · intro depth level
    have hview : (.ok (.prefixed reached.handle.content) : Except Fault (DictView (Built A)))
        = .ok (.prefixed content) := by rw [hcontent]
    have hdecoderView : (.ok (.prefixed reached.handle.content) : Except Fault (DictView (Built D)))
        = .ok (.prefixed content) := by rw [hcontent]
    exact ⟨hview, rfl, hdecoderView, rfl⟩
  · exact fun depth mode level => ⟨world_view E.logged depth mode level reached,
      world_viewForDecompression E.logged depth mode reached⟩

end Handle

end SharedDictionary
