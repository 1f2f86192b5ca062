import Mathlib.Data.List.Sort
import SharedDictionary.Proofs.Handle.Accounting

/-!
# Handles that are alike

A handle that was asked for something that came to nothing may have a slot more than before, and other
counters.  Whether that shows is a question about all inputs that follow.

Two handles are *alike* if each finds the same in its slots as the other, whether or not it has them, and if they
agree in everything else but what they have counted and reported (`Handle.Alike`).  Every input finds the same
in both, makes the same happen, and leaves them alike (`Handle.Alike.step`); so no run tells them apart
(`Handle.Alike.run`), and all they show is the same but the counters (`Handle.Alike.looks`).
-/

namespace SharedDictionary

variable {A D : Type}

namespace Handle

/-- What a handle shows is what another shows, but for the counters, which have so much more. -/
structure Looks (h h' : Handle A D) (more : CounterEvent → UInt64) : Prop where
  content : h'.content = h.content
  isRaw : h'.isRaw = h.isRaw
  digestState : ∀ level, h'.digestState level = h.digestState level
  digest : ∀ level, (h'.slotOf level).built = (h.slotOf level).built
  cachedLevels : h'.cachedLevels = h.cachedLevels
  decoder : h'.decoder = h.decoder
  counters : ∀ e, h'.counters.get e = h.counters.get e + more e

/-- Handles that differ in nothing but empty slots, counters and reports. -/
structure Alike (h h' : Handle A D) (more : CounterEvent → UInt64) : Prop where
  content : h'.content = h.content
  isRaw : h'.isRaw = h.isRaw
  format : h'.format = h.format
  slotOf : ∀ level, h'.slotOf level = h.slotOf level
  decoder : h'.decoder = h.decoder
  pending : h'.pending = h.pending
  nextStamp : h'.nextStamp = h.nextStamp
  counters : ∀ e, h'.counters.get e = h.counters.get e + more e

section Alike

variable {h h' : Handle A D} {more : CounterEvent → UInt64}

theorem Alike.slotAt (ha : h.Alike h' more) (target : BuildTarget) : h'.slotAt target = h.slotAt target := by
  cases target with
  | level level => exact congrArg (Slot.map Sum.inl) (ha.slotOf level)
  | decoder => exact congrArg (Slot.map Sum.inr) ha.decoder

/-- **Handles that are alike show the same**, but for the counters. -/
theorem Alike.looks (ha : h.Alike h' more) (hdistinct : h.Distinct) (hdistinct' : h'.Distinct) :
    h.Looks h' more where
  content := ha.content
  isRaw := ha.isRaw
  digestState level := by rw [digestState_eq, digestState_eq, ha.slotAt]
  digest level := by rw [ha.slotOf]
  cachedLevels := by
    refine List.Pairwise.eq_of_mem_iff (pairwise_cachedLevels hdistinct')
      (pairwise_cachedLevels hdistinct) fun level => ?_
    rw [mem_cachedLevels_iff hdistinct', mem_cachedLevels_iff hdistinct, ha.slotOf]
  decoder := ha.decoder
  counters := ha.counters

/-! ### The parts of a step -/

theorem Alike.setSlot (ha : h.Alike h' more) (level : Int32) (slot : Slot A) :
    (h.setSlot level slot).Alike (h'.setSlot level slot) more where
  content := ha.content
  isRaw := ha.isRaw
  format := ha.format
  slotOf other := by rw [slotOf_setSlot, slotOf_setSlot, ha.slotOf]
  decoder := ha.decoder
  pending := ha.pending
  nextStamp := ha.nextStamp
  counters := ha.counters

theorem Alike.count (ha : h.Alike h' more) (event : CounterEvent) :
    (h.count event).Alike (h'.count event) more where
  content := ha.content
  isRaw := ha.isRaw
  format := ha.format
  slotOf := ha.slotOf
  decoder := ha.decoder
  pending := ha.pending
  nextStamp := ha.nextStamp
  counters e := by
    show (h'.counters.record event).get e = (h.counters.record event).get e + more e
    rw [Counters.get_record, Counters.get_record, ha.counters]
    split
    · rw [UInt64.add_assoc, UInt64.add_comm (more e), ← UInt64.add_assoc]
    · rfl

/-- Reports make no difference. -/
theorem Alike.report (ha : h.Alike h' more) (event : HandleEvent) :
    (h.report event).Alike (h'.report event) more :=
  ⟨ha.content, ha.isRaw, ha.format, ha.slotOf, ha.decoder, ha.pending, ha.nextStamp, ha.counters⟩

theorem Alike.withPending (ha : h.Alike h' more) (pending : List Pending) :
    ({ h with pending := pending } : Handle A D).Alike { h' with pending := pending } more :=
  ⟨ha.content, ha.isRaw, ha.format, ha.slotOf, ha.decoder, rfl, ha.nextStamp, ha.counters⟩

theorem Alike.push (ha : h.Alike h' more) (p : Pending) : (h.push p).Alike (h'.push p) more :=
  ⟨ha.content, ha.isRaw, ha.format, ha.slotOf, ha.decoder, congrArg (List.cons p) ha.pending, ha.nextStamp,
    ha.counters⟩

theorem Alike.withFormat (ha : h.Alike h' more) (format : Option (Except DictError Unit)) :
    ({ h with format := format } : Handle A D).Alike { h' with format := format } more :=
  ⟨ha.content, ha.isRaw, rfl, ha.slotOf, ha.decoder, ha.pending, ha.nextStamp, ha.counters⟩

theorem Alike.withDecoder (ha : h.Alike h' more) (slot : Slot D) :
    ({ h with decoder := slot } : Handle A D).Alike { h' with decoder := slot } more :=
  ⟨ha.content, ha.isRaw, ha.format, ha.slotOf, rfl, ha.pending, ha.nextStamp, ha.counters⟩

theorem Alike.nextBuild (ha : h.Alike h' more) :
    ({ h with nextStamp := h.nextStamp + 1 } : Handle A D).Alike
      { h' with nextStamp := h'.nextStamp + 1 } more :=
  ⟨ha.content, ha.isRaw, ha.format, ha.slotOf, ha.decoder, ha.pending, congrArg (· + 1) ha.nextStamp,
    ha.counters⟩

theorem Alike.release (ha : h.Alike h' more) (level : Int32) :
    (h.release level).Alike (h'.release level) more := by
  have hslot : (h'.slot? level).getD .vacant = (h.slot? level).getD .vacant := ha.slotOf level
  unfold Handle.release
  rw [hslot]
  exact ha.setSlot level _

theorem Alike.releaseDecoder (ha : h.Alike h' more) : h.releaseDecoder.Alike h'.releaseDecoder more := by
  unfold Handle.releaseDecoder
  rw [ha.decoder]
  exact ha.withDecoder _

/-- What a step comes to is alike. -/
def AlikeAfter (result result' : Handle A D × Progress A D) (more : CounterEvent → UInt64) : Prop :=
  result.1.Alike result'.1 more ∧ result'.2 = result.2

theorem Alike.fail (ha : h.Alike h' more) (request : Request) (e : DictError) :
    AlikeAfter (h.fail request e) (h'.fail request e) more := by
  cases request with
  | digested level => exact ⟨((ha.release level).count _).report _, rfl⟩
  | undigested => exact ⟨ha, rfl⟩
  | decoder => exact ⟨ha.releaseDecoder, rfl⟩

theorem Alike.breakOff (ha : h.Alike h' more) (request : Request) (text : String) :
    AlikeAfter (h.breakOff request text) (h'.breakOff request text) more := by
  cases request with
  | digested level => exact ⟨ha.release level, rfl⟩
  | undigested => exact ⟨ha, rfl⟩
  | decoder => exact ⟨ha.releaseDecoder, rfl⟩

theorem Alike.pass (ha : h.Alike h' more) (request : Request) :
    AlikeAfter (h.pass request) (h'.pass request) more := by
  cases request with
  | digested level => exact ⟨ha.push _, rfl⟩
  | undigested => exact ⟨ha.count _, rfl⟩
  | decoder => exact ⟨ha.push _, rfl⟩

theorem Alike.ensureFormat (ha : h.Alike h' more) (request : Request) :
    AlikeAfter (h.ensureFormat request) (h'.ensureFormat request) more := by
  unfold Handle.ensureFormat
  rw [ha.format]
  split
  · exact ha.pass request
  · exact ha.fail request _
  · exact ⟨(ha.count _).push _, rfl⟩

/-! ### Steps -/

/-- A call finds the same in handles that are alike. -/
theorem Alike.call (ha : h.Alike h' more) (request : Request) :
    AlikeAfter (h.call request) (h'.call request) more := by
  cases request with
  | undigested => exact ha.ensureFormat .undigested
  | digested level =>
      have hslot' := ha.slotOf level
      rcases hslot : h.slotOf level with ⟨_ | artifact, _ | _⟩ <;> rw [hslot] at hslot'
      · rw [h.call_digested_of_vacant hslot, h'.call_digested_of_vacant hslot']
        exact (ha.setSlot level _).ensureFormat _
      · rw [h.call_digested_of_building hslot, h'.call_digested_of_building hslot']
        exact ⟨ha, rfl⟩
      all_goals
        rw [h.call_digested_of_built (by rw [hslot]), h'.call_digested_of_built (by rw [hslot'])]
        exact ⟨(ha.count _).report _, rfl⟩
  | decoder =>
      have hslot' := ha.decoder
      rcases hslot : h.decoder with ⟨_ | artifact, _ | _⟩ <;> rw [hslot] at hslot'
      · rw [h.call_decoder_of_vacant hslot, h'.call_decoder_of_vacant hslot']
        exact (ha.withDecoder _).ensureFormat _
      · rw [h.call_decoder_of_building hslot, h'.call_decoder_of_building hslot']
        exact ⟨ha, rfl⟩
      all_goals
        rw [h.call_decoder_of_built (by rw [hslot]), h'.call_decoder_of_built (by rw [hslot'])]
        exact ⟨ha, rfl⟩

theorem Alike.answerCheck (ha : h.Alike h' more) (verdict : Verdict Unit) :
    AlikeAfter (h.answerCheck verdict) (h'.answerCheck verdict) more := by
  unfold Handle.answerCheck
  rw [ha.pending]
  split
  · rename_i request rest hpending
    have hpopped := ha.withPending rest
    cases verdict with
    | success _ => exact (hpopped.withFormat _).pass request
    | failed e => exact (hpopped.withFormat _).fail request e
    | panicked text => exact hpopped.breakOff request text
  · exact ⟨ha, rfl⟩

theorem Alike.answerBuild (ha : h.Alike h' more) (verdict : Verdict A) :
    AlikeAfter (h.answerBuild verdict) (h'.answerBuild verdict) more := by
  unfold Handle.answerBuild
  rw [ha.pending]
  split
  · rename_i level rest hpending
    have hpopped := ha.withPending rest
    cases verdict with
    | success value =>
        rw [ha.nextStamp]
        have hbuilt := ((hpopped.nextBuild.setSlot level ⟨some ⟨value, h.nextStamp⟩, false⟩).count
          .digestBuilt).report (.digestBuilt level)
        rw [show ({ h' with pending := rest } : Handle A D).nextStamp = h.nextStamp from ha.nextStamp]
          at hbuilt
        exact ⟨hbuilt, rfl⟩
    | failed e => exact hpopped.fail _ e
    | panicked text => exact hpopped.breakOff _ text
  · exact ⟨ha, rfl⟩

theorem Alike.answerDecoder (ha : h.Alike h' more) (verdict : Verdict D) :
    AlikeAfter (h.answerDecoder verdict) (h'.answerDecoder verdict) more := by
  unfold Handle.answerDecoder
  rw [ha.pending]
  split
  · rename_i rest hpending
    have hpopped := ha.withPending rest
    cases verdict with
    | success value =>
        rw [ha.nextStamp]
        have hbuilt := ((hpopped.nextBuild.withDecoder ⟨some ⟨value, h.nextStamp⟩, false⟩).count
          .decoderBuilt).report .decoderBuilt
        rw [show ({ h' with pending := rest } : Handle A D).nextStamp = h.nextStamp from ha.nextStamp]
          at hbuilt
        exact ⟨hbuilt, rfl⟩
    | failed e => exact hpopped.fail _ e
    | panicked text => exact hpopped.breakOff _ text
  · exact ⟨ha, rfl⟩

/-- **An input makes the same happen to handles that are alike**, and leaves them so. -/
theorem Alike.step (ha : h.Alike h' more) (input : Input A D) :
    (h.step input).Alike (h'.step input) more ∧ h'.noticed input = h.noticed input := by
  cases input with
  | call request =>
      obtain ⟨hcall, hprogress⟩ := ha.call request
      refine ⟨hcall, ?_⟩
      rw [noticed, noticed, hprogress, hcall.pending]
  | checked verdict =>
      obtain ⟨hanswer, hprogress⟩ := ha.answerCheck verdict
      refine ⟨hanswer, ?_⟩
      rw [noticed, noticed, hprogress, hanswer.pending, ha.pending]
  | built verdict =>
      obtain ⟨hanswer, hprogress⟩ := ha.answerBuild verdict
      refine ⟨hanswer, ?_⟩
      rw [noticed, noticed, hprogress, hanswer.pending, ha.pending]
  | builtDecoder verdict =>
      obtain ⟨hanswer, hprogress⟩ := ha.answerDecoder verdict
      refine ⟨hanswer, ?_⟩
      rw [noticed, noticed, hprogress, hanswer.pending, ha.pending]
  | prefixTaken => exact ⟨ha.count _, rfl⟩

/-- **No run tells handles apart that are alike.** -/
theorem Alike.run (ha : h.Alike h' more) (inputs : List (Input A D)) :
    (h.run inputs).Alike (h'.run inputs) more ∧ h'.chronicle inputs = h.chronicle inputs := by
  induction inputs generalizing h h' with
  | nil => exact ⟨ha, rfl⟩
  | cons input inputs ih =>
      obtain ⟨hstep, hnoticed⟩ := ha.step input
      obtain ⟨hrun, hchronicle⟩ := ih hstep
      refine ⟨hrun, ?_⟩
      rw [chronicle, chronicle, hnoticed, hchronicle]

end Alike

end Handle

end SharedDictionary
