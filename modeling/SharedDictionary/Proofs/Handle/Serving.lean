import SharedDictionary.Proofs.Handle.Covering
import SharedDictionary.Proofs.Handle.Runs

/-!
# Dictionaries served by the codec

The codec's engine answers at once and requests nothing.  So whatever was asked of a dictionary before,
what it remembers of the format is what its content comes to, every artifact that is there is the one
its content is built to, and no build is in progress (`SharedDict.Faithful`).  What a view comes to
depends on the content alone, and on whether it is raw: `SharedDict.Faithful.view_eq` and
`SharedDict.Faithful.viewForDecompression_eq`.

A dictionary whose content the format check lets pass and that can be loaded grants all that is asked of
it behind the check (`SharedDict.Grants`); if the check refuses the content, the dictionary denies all of
it with the error of the check (`SharedDict.Denies`).

Content that can serve in every mode (`Usable`) has every view, and each holds what the content loads
to: `SharedDict.Settled.view_eq` and `SharedDict.Settled.viewForDecompression_eq`.
-/

namespace SharedDictionary

/-- Content that can serve in every mode: the format check lets it pass, and its tables, if it has
any, can be read. -/
def Usable (content : ByteArray) (isRaw : Bool) : Prop :=
  checkFormat content isRaw = .ok () ∧ (LoadedDictionary.load? content).isSome

/-- The format check lets raw content pass whatever it is. -/
theorem checkFormat_of_isRaw {content : ByteArray} {isRaw : Bool} (h : isRaw = true) :
    checkFormat content isRaw = .ok () := by
  rw [h]
  rfl

/-- Content without a header can serve if it is declared raw. -/
theorem usable_of_isFormatted_eq_false {content : ByteArray}
    (h : Dictionary.isFormatted content = false) : Usable content true := by
  refine ⟨rfl, ?_⟩
  rw [LoadedDictionary.load?_eq_plain h]
  rfl

/-- In particular content that is shorter than a header, such as none at all. -/
theorem usable_of_size_lt {content : ByteArray} (h : content.size < Dictionary.headerLength) :
    Usable content true := by
  refine usable_of_isFormatted_eq_false ?_
  rw [Dictionary.isFormatted, decide_eq_false (Nat.not_le.mpr h), Bool.false_and]

/-- Content that is not declared raw can serve if the format check lets it pass: the check reads the
tables. -/
theorem usable_iff_checkFormat {content : ByteArray} :
    Usable content false ↔ checkFormat content false = .ok () := by
  refine ⟨And.left, fun h => ⟨h, ?_⟩⟩
  rcases hload : LoadedDictionary.load? content with _ | dict
  · simp only [checkFormat, hload, Option.isNone_none, if_true, Bool.false_eq_true, if_false] at h
    repeat' split at h
    all_goals cases h
  · rfl

/-! ### What content comes to -/

/-- What the digest of content for a level comes to: the format is checked first. -/
def digestOutcome (content : ByteArray) (isRaw : Bool) (level : Int32) :
    Except DictError CompressionDigest :=
  match checkFormat content isRaw with
  | .ok () => buildDigest content level
  | .error e => .error e

/-- What the digest of content for the decoder comes to. -/
def decoderOutcome (content : ByteArray) (isRaw : Bool) : Except DictError DecompressionDigest :=
  match checkFormat content isRaw with
  | .ok () => buildDecoderDigest content
  | .error e => .error e

/-- What a view for compressors comes to. -/
def viewOutcome (content : ByteArray) (isRaw : Bool) (level : Int32) :
    DictMode → Except DictError (DictView CompressionDigest)
  | .digested => (digestOutcome content isRaw level).map (.digested (some level))
  | .undigested => (checkFormat content isRaw).map fun () => .undigested content
  | .prefixed => .ok (.prefixed content)

/-- What a view for decompressors comes to. -/
def decompressionViewOutcome (content : ByteArray) (isRaw : Bool) :
    DictMode → Except DictError (DictView DecompressionDigest)
  | .digested => (decoderOutcome content isRaw).map (.digested none)
  | .undigested => (checkFormat content isRaw).map fun () => .undigested content
  | .prefixed => .ok (.prefixed content)

/-- A reply is what an outcome comes to: an artifact made from its value, or its failure. -/
def Reply.Gives {α A D : Type} (reply : Reply A D) (make : Built α → Reply A D)
    (outcome : Except DictError α) : Prop :=
  match outcome with
  | .ok value => ∃ stamp, reply = make ⟨value, stamp⟩
  | .error e => reply = .failed e

namespace SharedDict

/-- The dictionaries of some content, whatever was asked of them. -/
inductive Reached (content : ByteArray) (isRaw : Bool) : SharedDict → Prop
  /-- Nothing was asked. -/
  | new : Reached content isRaw (.new content isRaw)
  /-- One more request was served. -/
  | served {w : SharedDict} (request : Request) (h : Reached content isRaw w) :
      Reached content isRaw (serve codecEngine codecDepth request w).2
  /-- One more prefix was taken. -/
  | prefixTaken {w : SharedDict} (h : Reached content isRaw w) :
      Reached content isRaw ⟨w.handle.takePrefix, w.engine⟩

/-- What was asked of a dictionary changes neither its content nor whether it is raw. -/
theorem Reached.sameContent {content : ByteArray} {isRaw : Bool} {w : SharedDict}
    (h : Reached content isRaw w) : w.handle.content = content ∧ w.handle.isRaw = isRaw := by
  induction h with
  | new => exact ⟨rfl, rfl⟩
  | @served w request _ ih =>
      have hcontinues := continues_serve codecEngine codecDepth request w
      exact ⟨hcontinues.content.trans ih.1, hcontinues.isRaw.trans ih.2⟩
  | prefixTaken _ ih => exact ih

/-- What a dictionary remembers of the format is what its content comes to, so is every artifact that is
there, and none is being built. -/
structure Faithful (w : SharedDict) : Prop where
  format : w.handle.format = none
    ∨ w.handle.format = some (checkFormat w.handle.content w.handle.isRaw)
  idle : ∀ level, (w.handle.slotOf level).building = false
  digest : ∀ level artifact, (w.handle.slotOf level).built = some artifact →
    digestOutcome w.handle.content w.handle.isRaw level = .ok artifact.value
  decoderIdle : w.handle.decoder.building = false
  decoder : ∀ artifact, w.handle.decoder.built = some artifact →
    decoderOutcome w.handle.content w.handle.isRaw = .ok artifact.value

/-- Nothing but the counters tells whether the engine was asked for the format check. -/
theorem settleCheck_ensureFormat {h : Handle CompressionDigest DecompressionDigest}
    (hformat : h.format = none ∨ h.format = some (checkFormat h.content h.isRaw))
    (request : Request) :
    ∃ counters, settleCheck codecEngine ⟨(h.ensureFormat request).1, ()⟩
        (h.ensureFormat request).2
      = match checkFormat h.content h.isRaw with
        | .ok () =>
          (⟨({ h with format := some (.ok ()), counters := counters }.pass request).1, ()⟩,
            ({ h with format := some (.ok ()), counters := counters }.pass request).2)
        | .error e =>
          (⟨({ h with format := some (.error e), counters := counters }.fail request e).1, ()⟩,
            ({ h with format := some (.error e), counters := counters }.fail request e).2) := by
  rcases hformat with hnone | hknown
  · refine ⟨h.counters.record .formatCheck, ?_⟩
    rcases hcheck : checkFormat h.content h.isRaw with e | ⟨⟨⟩⟩ <;>
      simp only [Handle.ensureFormat, hnone, settleCheck, Handle.push, Handle.count, codecEngine,
        hcheck, Verdict.ofExcept, Handle.answerCheck]
  · refine ⟨h.counters, ?_⟩
    rcases hcheck : checkFormat h.content h.isRaw with e | ⟨⟨⟩⟩ <;> rw [hcheck] at hknown
    · have hsame : { h with format := some (.error e), counters := h.counters } = h := by
        rw [← hknown]
      simp only [Handle.ensureFormat, hknown, hsame]
      cases request <;> rfl
    · have hsame : { h with format := some (.ok ()), counters := h.counters } = h := by
        rw [← hknown]
      simp only [Handle.ensureFormat, hknown, hsame]
      cases request <;> rfl

variable {dict : LoadedDictionary} {w : SharedDict} {e : DictError}

/-- A faithful dictionary stays faithful where its slots stay as they are or get the artifact they
should have. -/
private theorem Faithful.next {h' : Handle CompressionDigest DecompressionDigest}
    (hw : Faithful w) (hcontent : h'.content = w.handle.content)
    (hraw : h'.isRaw = w.handle.isRaw)
    (hformat : h'.format = w.handle.format
      ∨ h'.format = some (checkFormat w.handle.content w.handle.isRaw))
    (hslots : ∀ level, h'.slotOf level = w.handle.slotOf level
      ∨ ∃ digest stamp, h'.slotOf level = ⟨some ⟨digest, stamp⟩, false⟩
        ∧ digestOutcome w.handle.content w.handle.isRaw level = .ok digest)
    (hdecoder : h'.decoder = w.handle.decoder
      ∨ ∃ digest stamp, h'.decoder = ⟨some ⟨digest, stamp⟩, false⟩
        ∧ decoderOutcome w.handle.content w.handle.isRaw = .ok digest) :
    Faithful ⟨h', ()⟩ where
  format := by
    rw [hcontent, hraw]
    rcases hformat with hkept | hset
    · rw [hkept]
      exact hw.format
    · exact Or.inr hset
  idle level := by
    rcases hslots level with hkept | ⟨digest, stamp, hset, -⟩
    · rw [hkept]
      exact hw.idle level
    · rw [hset]
  digest level artifact hbuilt := by
    rw [hcontent, hraw]
    rcases hslots level with hkept | ⟨digest, stamp, hset, houtcome⟩
    · rw [hkept] at hbuilt
      exact hw.digest level artifact hbuilt
    · rw [hset] at hbuilt
      cases hbuilt
      exact houtcome
  decoderIdle := by
    rcases hdecoder with hkept | ⟨digest, stamp, hset, -⟩
    · rw [hkept]
      exact hw.decoderIdle
    · rw [hset]
  decoder artifact hbuilt := by
    rw [hcontent, hraw]
    rcases hdecoder with hkept | ⟨digest, stamp, hset, houtcome⟩
    · rw [hkept] at hbuilt
      exact hw.decoder artifact hbuilt
    · rw [hset] at hbuilt
      cases hbuilt
      exact houtcome

/-- A vacant slot that was taken and is released again is as it was. -/
private theorem slotOf_release_taken {h h' : Handle CompressionDigest DecompressionDigest}
    {level : Int32} (hvacant : h.slotOf level = .vacant)
    (htaken : h'.slots = (h.setSlot level ⟨none, true⟩).slots) (other : Int32) :
    (h'.release level).slotOf other = h.slotOf other := by
  have hsame : ∀ other, h'.slotOf other = (h.setSlot level ⟨none, true⟩).slotOf other := by
    intro other
    unfold Handle.slotOf Handle.slot?
    rw [htaken]
  show (h'.setSlot level { h'.slotOf level with building := false }).slotOf other = _
  rw [Handle.slotOf_setSlot, hsame, hsame, Handle.slotOf_setSlot, Handle.slotOf_setSlot, if_pos rfl]
  split
  · rename_i hlevel
    rw [hlevel, hvacant]
    rfl
  · rfl

/-- **What the digest of a level comes to depends on the content alone**, and a dictionary stays
faithful. -/
theorem Faithful.serve_digested (hw : Faithful w) (depth : Nat) (level : Int32) :
    (serve codecEngine (depth + 1) (.digested level) w).1.Gives (.digested level)
        (digestOutcome w.handle.content w.handle.isRaw level)
      ∧ Faithful (serve codecEngine (depth + 1) (.digested level) w).2 := by
  obtain ⟨h, ⟨⟩⟩ := w
  generalize hserve : serve codecEngine (depth + 1) (.digested level) ⟨h, ()⟩ = result
  cases hbuilt : (h.slotOf level).built with
  | some artifact =>
      rw [serve, h.call_digested_of_built hbuilt] at hserve
      simp only [settleCheck] at hserve
      subst hserve
      rw [hw.digest level artifact hbuilt]
      exact ⟨⟨artifact.stamp, rfl⟩, hw.next rfl rfl (.inl rfl) (fun _ => .inl rfl) (.inl rfl)⟩
  | none =>
      have hvacant : h.slotOf level = .vacant := Slot.eq_vacant hbuilt (hw.idle level)
      obtain ⟨counters, hsettle⟩ := settleCheck_ensureFormat
        (h := h.setSlot level ⟨none, true⟩) hw.format (.digested level)
      change _ = (match checkFormat h.content h.isRaw with
        | .ok () => _
        | .error e => _) at hsettle
      rw [serve, h.call_digested_of_vacant hvacant] at hserve
      rcases hcheck : checkFormat h.content h.isRaw with e | ⟨⟨⟩⟩
      · have houtcome : digestOutcome h.content h.isRaw level = .error e := by
          rw [digestOutcome, hcheck]
        simp only [hcheck] at hsettle
        simp only [hsettle, Handle.fail] at hserve
        subst hserve
        rw [houtcome]
        refine ⟨rfl, hw.next rfl rfl (.inr (congrArg some hcheck.symm)) (fun other => .inl ?_)
          (.inl rfl)⟩
        exact slotOf_release_taken hvacant rfl other
      · have houtcome : digestOutcome h.content h.isRaw level = buildDigest h.content level := by
          rw [digestOutcome, hcheck]
        simp only [hcheck] at hsettle
        have hbuild : buildDigest (h.setSlot level ⟨none, true⟩).content level
            = buildDigest h.content level := rfl
        simp only [hsettle] at hserve
        simp only [Handle.pass, startBuild, Handle.push, codecEngine, List.foldl_nil, settleBuild,
          hbuild] at hserve
        rw [houtcome]
        rcases hdigest : buildDigest h.content level with e | digest
        · simp only [hdigest, Verdict.ofExcept, Handle.answerBuild, Handle.fail,
            Progress.reply] at hserve
          subst hserve
          refine ⟨rfl, hw.next rfl rfl (.inr (congrArg some hcheck.symm)) (fun other => .inl ?_)
            (.inl rfl)⟩
          exact slotOf_release_taken hvacant rfl other
        · simp only [hdigest, Verdict.ofExcept, Handle.answerBuild, Progress.reply] at hserve
          subst hserve
          refine ⟨⟨_, rfl⟩, hw.next rfl rfl (.inr (congrArg some hcheck.symm)) (fun other => ?_)
            (.inl rfl)⟩
          rw [Handle.slotOf_report, Handle.slotOf_count, Handle.slotOf_setSlot]
          split
          · rename_i heq
            rw [heq]
            exact .inr ⟨digest, _, rfl, houtcome.trans hdigest⟩
          · rename_i hne
            exact .inl ((Handle.slotOf_setSlot h level other ⟨none, true⟩).trans (if_neg hne))

/-- **What the digest of the decoder comes to depends on the content alone.** -/
theorem Faithful.serve_decoder (hw : Faithful w) (depth : Nat) :
    (serve codecEngine (depth + 1) .decoder w).1.Gives .decoder
        (decoderOutcome w.handle.content w.handle.isRaw)
      ∧ Faithful (serve codecEngine (depth + 1) .decoder w).2 := by
  obtain ⟨h, ⟨⟩⟩ := w
  generalize hserve : serve codecEngine (depth + 1) .decoder ⟨h, ()⟩ = result
  cases hbuilt : h.decoder.built with
  | some artifact =>
      rw [serve, h.call_decoder_of_built hbuilt] at hserve
      simp only [settleCheck] at hserve
      subst hserve
      rw [hw.decoder artifact hbuilt]
      exact ⟨⟨artifact.stamp, rfl⟩, hw⟩
  | none =>
      have hvacant : h.decoder = .vacant := Slot.eq_vacant hbuilt hw.decoderIdle
      obtain ⟨counters, hsettle⟩ := settleCheck_ensureFormat
        (h := { h with decoder := ⟨none, true⟩ }) hw.format .decoder
      rw [serve, h.call_decoder_of_vacant hvacant] at hserve
      rcases hcheck : checkFormat h.content h.isRaw with e | ⟨⟨⟩⟩
      · have houtcome : decoderOutcome h.content h.isRaw = .error e := by
          rw [decoderOutcome, hcheck]
        simp only [hcheck] at hsettle
        simp only [hsettle, Handle.fail, Handle.releaseDecoder] at hserve
        subst hserve
        rw [houtcome]
        exact ⟨rfl, hw.next rfl rfl (.inr (congrArg some hcheck.symm)) (fun _ => .inl rfl)
          (.inl hvacant.symm)⟩
      · have houtcome : decoderOutcome h.content h.isRaw = buildDecoderDigest h.content := by
          rw [decoderOutcome, hcheck]
        simp only [hcheck] at hsettle
        simp only [hsettle] at hserve
        simp only [Handle.pass, startBuild, Handle.push, codecEngine, List.foldl_nil,
          settleBuild] at hserve
        rw [houtcome]
        rcases hdigest : buildDecoderDigest h.content with e | digest
        · simp only [hdigest, Verdict.ofExcept, Handle.answerDecoder, Handle.fail,
            Handle.releaseDecoder, Progress.reply] at hserve
          subst hserve
          exact ⟨rfl, hw.next rfl rfl (.inr (congrArg some hcheck.symm)) (fun _ => .inl rfl)
            (.inl hvacant.symm)⟩
        · simp only [hdigest, Verdict.ofExcept, Handle.answerDecoder, Progress.reply] at hserve
          subst hserve
          exact ⟨⟨_, rfl⟩, hw.next rfl rfl (.inr (congrArg some hcheck.symm)) (fun _ => .inl rfl)
            (.inr ⟨digest, _, rfl, houtcome.trans hdigest⟩)⟩

/-- **Whether content is handed out depends on the content alone.** -/
theorem Faithful.serve_undigested (hw : Faithful w) (depth : Nat) :
    (serve codecEngine (depth + 1) .undigested w).1.Gives (fun _ => .undigested)
        (checkFormat w.handle.content w.handle.isRaw)
      ∧ Faithful (serve codecEngine (depth + 1) .undigested w).2 := by
  obtain ⟨h, ⟨⟩⟩ := w
  generalize hserve : serve codecEngine (depth + 1) .undigested ⟨h, ()⟩ = result
  obtain ⟨counters, hsettle⟩ := settleCheck_ensureFormat hw.format .undigested
  rw [serve] at hserve
  rcases hcheck : checkFormat h.content h.isRaw with e | ⟨⟨⟩⟩
  · simp only [hcheck] at hsettle
    simp only [Handle.call, hsettle, Handle.fail] at hserve
    subst hserve
    exact ⟨rfl, hw.next rfl rfl (.inr (congrArg some hcheck.symm)) (fun _ => .inl rfl) (.inl rfl)⟩
  · simp only [hcheck] at hsettle
    simp only [Handle.call, hsettle, Handle.pass] at hserve
    subst hserve
    exact ⟨⟨0, rfl⟩, hw.next rfl rfl (.inr (congrArg some hcheck.symm)) (fun _ => .inl rfl)
      (.inl rfl)⟩

theorem faithful_new (content : ByteArray) (isRaw : Bool) : Faithful (.new content isRaw) where
  format := .inl rfl
  idle _ := rfl
  digest _ _ hbuilt := by cases hbuilt
  decoderIdle := rfl
  decoder _ hbuilt := by cases hbuilt

/-- A dictionary stays faithful whatever it is asked for. -/
theorem Faithful.meet (hw : Faithful w) (demand : Demand) :
    Faithful (w.meet codecEngine demand) := by
  cases demand with
  | prefixTaken => exact hw.next rfl rfl (.inl rfl) (fun _ => .inl rfl) (.inl rfl)
  | request depth request =>
      cases depth with
      | zero => exact hw
      | succ depth =>
          cases request with
          | digested level => exact (hw.serve_digested depth level).2
          | undigested => exact (hw.serve_undigested depth).2
          | decoder => exact (hw.serve_decoder depth).2

/-- **A dictionary stays faithful**, however much it is asked for. -/
theorem Faithful.after (hw : Faithful w) (demands : List Demand) :
    Faithful (w.after codecEngine demands) := by
  induction demands generalizing w with
  | nil => exact hw
  | cons demand demands ih => exact ih (hw.meet demand)

theorem Reached.faithful {content : ByteArray} {isRaw : Bool} (h : Reached content isRaw w) :
    Faithful w := by
  induction h with
  | new => exact faithful_new content isRaw
  | @served w request _ ih => exact ih.meet (.request codecDepth request)
  | prefixTaken _ ih => exact ih.meet .prefixTaken

/-! ### What views come to -/

/-- A request for the content is answered with the outcome of the check, and the content stays what it
is. -/
private theorem Faithful.exists_served (hw : Faithful w) (depth : Nat) :
    ∃ w' : SharedDict, w'.handle.content = w.handle.content
      ∧ serve codecEngine (depth + 1) .undigested w
        = match checkFormat w.handle.content w.handle.isRaw with
          | .ok () => (.undigested, w')
          | .error e => (.failed e, w') := by
  obtain ⟨hgives, -⟩ := hw.serve_undigested depth
  have hcontent := (continues_serve codecEngine (depth + 1) .undigested w).content
  rcases hserve : serve codecEngine (depth + 1) .undigested w with ⟨reply, w'⟩
  rw [hserve] at hgives hcontent
  refine ⟨w', hcontent, ?_⟩
  rcases hcheck : checkFormat w.handle.content w.handle.isRaw with e | ⟨⟨⟩⟩ <;>
    rw [hcheck] at hgives
  · exact congrArg (·, w') hgives
  · obtain ⟨_, hreply⟩ := hgives
    exact congrArg (·, w') hreply

/-- **What a view for compressors comes to depends on the content alone.** -/
theorem Faithful.view_eq (hw : Faithful w) (depth : Nat) (mode : DictMode) (level : Int32) :
    (view codecEngine (depth + 1) mode level w).1.map DictView.unstamped
      = (viewOutcome w.handle.content w.handle.isRaw level mode).mapError .error := by
  cases mode with
  | digested =>
      obtain ⟨hgives, -⟩ := hw.serve_digested depth level
      rcases hserve : serve codecEngine (depth + 1) (.digested level) w with ⟨reply, w'⟩
      rw [hserve] at hgives
      rcases houtcome : digestOutcome w.handle.content w.handle.isRaw level with e | digest <;>
        rw [houtcome] at hgives
      · cases hgives
        simp only [view, hserve, viewOutcome, houtcome]
        rfl
      · obtain ⟨stamp, hreply⟩ := hgives
        cases hreply
        simp only [view, hserve, viewOutcome, houtcome]
        rfl
  | undigested =>
      obtain ⟨w', hcontent, hserve⟩ := hw.exists_served depth
      rcases hcheck : checkFormat w.handle.content w.handle.isRaw with e | ⟨⟨⟩⟩ <;>
        rw [hcheck] at hserve
      · simp only [view, hserve, viewOutcome, hcheck]
        rfl
      · simp only [view, hserve, viewOutcome, hcheck, hcontent]
        rfl
  | prefixed => rfl

/-- **What a view for decompressors comes to depends on the content alone.** -/
theorem Faithful.viewForDecompression_eq (hw : Faithful w) (depth : Nat) (mode : DictMode) :
    (viewForDecompression codecEngine (depth + 1) mode w).1.map DictView.unstamped
      = (decompressionViewOutcome w.handle.content w.handle.isRaw mode).mapError .error := by
  cases mode with
  | digested =>
      obtain ⟨hgives, -⟩ := hw.serve_decoder depth
      rcases hserve : serve codecEngine (depth + 1) .decoder w with ⟨reply, w'⟩
      rw [hserve] at hgives
      rcases houtcome : decoderOutcome w.handle.content w.handle.isRaw with e | digest <;>
        rw [houtcome] at hgives
      · cases hgives
        simp only [viewForDecompression, hserve, decompressionViewOutcome, houtcome]
        rfl
      · obtain ⟨stamp, hreply⟩ := hgives
        cases hreply
        simp only [viewForDecompression, hserve, decompressionViewOutcome, houtcome]
        rfl
  | undigested =>
      obtain ⟨w', hcontent, hserve⟩ := hw.exists_served depth
      rcases hcheck : checkFormat w.handle.content w.handle.isRaw with e | ⟨⟨⟩⟩ <;>
        rw [hcheck] at hserve
      · simp only [viewForDecompression, hserve, decompressionViewOutcome, hcheck]
        rfl
      · simp only [viewForDecompression, hserve, decompressionViewOutcome, hcheck, hcontent]
        rfl
  | prefixed => rfl

/-! ### What is asked behind the format check -/

/-- A dictionary grants all that is asked of it behind the format check: its digests are made from one
thing that its content loads to, and its content is to be had undigested. -/
structure Grants (w : SharedDict) (dict : LoadedDictionary) : Prop where
  digest : ∀ depth level,
    (view codecEngine (depth + 1) .digested level w).1.map DictView.unstamped
      = .ok (.digested (some level) ⟨level, dict⟩)
  decoder : ∀ depth,
    (viewForDecompression codecEngine (depth + 1) .digested w).1.map DictView.unstamped
      = .ok (.digested none ⟨dict⟩)
  undigested : ∀ depth level,
    (view codecEngine (depth + 1) .undigested level w).1.map DictView.unstamped
        = .ok (.undigested w.handle.content)
      ∧ (viewForDecompression codecEngine (depth + 1) .undigested w).1.map DictView.unstamped
        = .ok (.undigested w.handle.content)

/-- A dictionary denies all that is asked of it behind the format check, with one error. -/
structure Denies (w : SharedDict) (e : DictError) : Prop where
  digest : ∀ depth level,
    (view codecEngine (depth + 1) .digested level w).1.map DictView.unstamped = .error (.error e)
  decoder : ∀ depth,
    (viewForDecompression codecEngine (depth + 1) .digested w).1.map DictView.unstamped
      = .error (.error e)
  undigested : ∀ depth level,
    (view codecEngine (depth + 1) .undigested level w).1.map DictView.unstamped
        = .error (.error e)
      ∧ (viewForDecompression codecEngine (depth + 1) .undigested w).1.map DictView.unstamped
        = .error (.error e)

/-- A dictionary grants what is asked of it if the check lets its content pass and it can be loaded. -/
theorem Faithful.grants (hw : Faithful w)
    (hcheck : checkFormat w.handle.content w.handle.isRaw = .ok ())
    (hload : LoadedDictionary.load? w.handle.content = some dict) : w.Grants dict where
  digest depth level := by
    rw [hw.view_eq depth .digested level]
    simp only [viewOutcome, digestOutcome, hcheck, buildDigest, hload]
    rfl
  decoder depth := by
    rw [hw.viewForDecompression_eq depth .digested]
    simp only [decompressionViewOutcome, decoderOutcome, hcheck, buildDecoderDigest, hload]
    rfl
  undigested depth level := by
    rw [hw.view_eq depth .undigested level, hw.viewForDecompression_eq depth .undigested]
    simp only [viewOutcome, decompressionViewOutcome, hcheck]
    exact ⟨rfl, rfl⟩

/-- A dictionary denies what is asked of it if the check refuses its content. -/
theorem Faithful.denies (hw : Faithful w)
    (hcheck : checkFormat w.handle.content w.handle.isRaw = .error e) : w.Denies e where
  digest depth level := by
    rw [hw.view_eq depth .digested level]
    simp only [viewOutcome, digestOutcome, hcheck]
    rfl
  decoder depth := by
    rw [hw.viewForDecompression_eq depth .digested]
    simp only [decompressionViewOutcome, decoderOutcome, hcheck]
    rfl
  undigested depth level := by
    rw [hw.view_eq depth .undigested level, hw.viewForDecompression_eq depth .undigested]
    simp only [viewOutcome, decompressionViewOutcome, hcheck]
    exact ⟨rfl, rfl⟩

/-- The digests are made from one thing only. -/
theorem Grants.unique {dict' : LoadedDictionary} (h : w.Grants dict) (h' : w.Grants dict') :
    dict = dict' := by
  have hsame := (h.decoder 0).symm.trans (h'.decoder 0)
  injection hsame with hview
  injection hview with _ hdigest
  injection hdigest

/-- There is one error only. -/
theorem Denies.unique {e' : DictError} (h : w.Denies e) (h' : w.Denies e') : e = e' := by
  have hsame := (h.decoder 0).symm.trans (h'.decoder 0)
  injection hsame with hfault
  injection hfault

/-- What is granted is not denied. -/
theorem Grants.not_denies (h : w.Grants dict) : ¬w.Denies e := by
  intro hdenies
  have hsame := (h.decoder 0).symm.trans (hdenies.decoder 0)
  cases hsame

/-! ### Content that can serve in every mode -/

/-- A faithful dictionary whose content can serve in every mode. -/
structure Settled (dict : LoadedDictionary) (w : SharedDict) : Prop where
  faithful : Faithful w
  checked : checkFormat w.handle.content w.handle.isRaw = .ok ()
  loaded : LoadedDictionary.load? w.handle.content = some dict

/-- **What was asked of a dictionary does not change what it serves**: it is settled as long as its
content can serve. -/
theorem Reached.settled {content : ByteArray} {isRaw : Bool} (h : Reached content isRaw w)
    (husable : Usable content isRaw) (hload : LoadedDictionary.load? content = some dict) :
    Settled dict w := by
  obtain ⟨hcontent, hraw⟩ := h.sameContent
  refine ⟨h.faithful, ?_, ?_⟩
  · rw [hcontent, hraw]
    exact husable.1
  · rw [hcontent]
    exact hload

/-- The view of a compressor, from what the content loads to. -/
def viewOf (dict : LoadedDictionary) (content : ByteArray) (level : Int32) :
    DictMode → DictView CompressionDigest
  | .digested => .digested (some level) ⟨level, dict⟩
  | .undigested => .undigested content
  | .prefixed => .prefixed content

/-- The view of a decompressor, from what the content loads to. -/
def decompressionViewOf (dict : LoadedDictionary) (content : ByteArray) :
    DictMode → DictView DecompressionDigest
  | .digested => .digested none ⟨dict⟩
  | .undigested => .undigested content
  | .prefixed => .prefixed content

/-- **A settled dictionary has a view for compressors in every mode**, and it holds what the content
loads to. -/
theorem Settled.view_eq (hw : Settled dict w) (mode : DictMode) (level : Int32) :
    (view codecEngine codecDepth mode level w).1.map DictView.unstamped
      = .ok (viewOf dict w.handle.content level mode) := by
  refine (hw.faithful.view_eq 0 mode level).trans ?_
  cases mode with
  | digested =>
      simp only [viewOutcome, digestOutcome, hw.checked, buildDigest, hw.loaded]
      rfl
  | undigested =>
      simp only [viewOutcome, hw.checked]
      rfl
  | prefixed => rfl

/-- **A settled dictionary has a view for decompressors in every mode**, and it holds what the
content loads to. -/
theorem Settled.viewForDecompression_eq (hw : Settled dict w) (mode : DictMode) :
    (viewForDecompression codecEngine codecDepth mode w).1.map DictView.unstamped
      = .ok (decompressionViewOf dict w.handle.content mode) := by
  refine (hw.faithful.viewForDecompression_eq 0 mode).trans ?_
  cases mode with
  | digested =>
      simp only [decompressionViewOutcome, decoderOutcome, hw.checked, buildDecoderDigest,
        hw.loaded]
      rfl
  | undigested =>
      simp only [decompressionViewOutcome, hw.checked]
      rfl
  | prefixed => rfl

end SharedDict

end SharedDictionary
