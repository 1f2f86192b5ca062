import SharedDictionary.Proofs.Frame.Acceptance
import SharedDictionary.Proofs.Session.Concatenation
import SharedDictionary.Proofs.Session.Identifiers

/-!
# Wrong prefixes are not accepted silently

A prefix leaves no mark in a frame: nothing tells beforehand that a frame was made with another one.  What is
left is the outcome.  Content that a session accepts has the size and the checksum that the frame declares,
whatever it was decoded with (`Decompressor.fits_of_verdict?`).  And when the decoder fails, the session tells
a mismatch from damage by three things together: a prefix was pending, the headers of the blocks lead exactly
to the end of the input, and the decoder missed the checksum or asked for another dictionary.

The decoder's own verdict is `Decompressor.verdict?`, before the session has named a failure.  An input that
is refused without being decoded has none, and is never called a mismatch.

The main result is `Decompressor.decompressFrame_judged`.
-/

namespace SharedDictionary

namespace Decompressor

variable {d : Decompressor} {input : ByteArray}

/-! ### The verdict of the decoder -/

/-- What the decoder makes of an input, if the session lets it decode it. -/
def verdict? (d : Decompressor) (input : ByteArray) : Option (Except StreamFailure ByteArray) :=
  match d.checkSize input with
  | .error _ => none
  | .ok declared =>
    match d.dictionary with
    | .error _ => none
    | .ok dict =>
      match declared with
      | some size =>
        if maxCapacity < size then none else some ((decodeWhole dict input size).mapError .codec)
      | none => some (decodeStream dict d.hasPendingPrefix input d.config.frameLimit)

/-- Why an input is not decoded at all. -/
inductive Refusal (d : Decompressor) (input : ByteArray) : Fault → Prop
  /-- The header or the dictionary is not accepted. -/
  | refused (operation text : String) : Refusal d input (.error (.codec operation text))
  /-- No memory holds content of the declared size. -/
  | tooLarge {size : Nat} (h : d.checkSize input = .ok (some size)) (hlarge : maxCapacity < size)
      (text : String) : Refusal d input (.panic text)

theorem Refusal.of_checkSize {e : DictError} (h : d.checkSize input = .error e) :
    Refusal d input (.error e) := by
  unfold checkSize at h
  split at h
  · cases h
    exact .refused _ _
  · cases h
  · split at h
    · cases h
      exact .refused _ _
    · cases h

theorem Refusal.of_dictionary {e : DictError} (h : d.dictionary = .error e) :
    Refusal d input (.error e) := by
  unfold dictionary at h
  split at h
  · cases h
  · cases h
  · split at h
    · cases h
    · split at h
      · cases h
      · cases h
        exact .refused _ _
  · cases h

/-- **A session passes the verdict of the decoder on**, and gives a failure its name. -/
theorem decode_eq (d : Decompressor) (input : ByteArray) :
    (∃ verdict, d.verdict? input = some verdict
        ∧ d.decode input = verdict.mapError fun failure => .error (d.streamError input failure))
      ∨ (d.verdict? input = none ∧ ∃ fault, Refusal d input fault ∧ d.decode input = .error fault) := by
  unfold verdict? decode
  cases hcheck : d.checkSize input with
  | error e => exact Or.inr ⟨rfl, _, .of_checkSize hcheck, rfl⟩
  | ok declared =>
      cases hdict : d.dictionary with
      | error e => exact Or.inr ⟨rfl, _, .of_dictionary hdict, rfl⟩
      | ok dict =>
          cases declared with
          | none => exact Or.inl ⟨_, rfl, rfl⟩
          | some size =>
              simp only
              by_cases hlarge : maxCapacity < size
              · rw [if_pos hlarge, if_pos hlarge]
                exact Or.inr ⟨rfl, _, .tooLarge hcheck hlarge _, rfl⟩
              · rw [if_neg hlarge, if_neg hlarge]
                refine Or.inl ⟨_, rfl, ?_⟩
                cases decodeWhole dict input size <;> rfl

/-! ### Accepted content -/

/-- A declared size that passes the limit is that of the header. -/
theorem contentSize_of_checkSize {header : FrameHeader} {declared : Option Nat}
    (hread : HeaderScan.read input 0 input.size = .ok (.frame header))
    (h : d.checkSize input = .ok declared) : header.contentSize = declared := by
  rw [checkSize, declaredSize?, hread] at h
  simp only at h
  by_cases hlast : header.contentSize = some (2 ^ 64 - 2)
  · rw [if_pos hlast] at h
    cases h
  · rw [if_neg hlast] at h
    cases hsize : header.contentSize with
    | none =>
        rw [hsize] at h
        cases h
        rfl
    | some size =>
        rw [hsize] at h
        simp only at h
        split at h
        · cases h
        · cases h
          rfl

/-- **Content that the decoder accepts fits the frame**, if that is all there is. -/
theorem fits_of_verdict? {header : FrameHeader} {content : ByteArray}
    (hread : HeaderScan.read input 0 input.size = .ok (.frame header))
    (hwhole : isWholeFrame input = true) (h : d.verdict? input = some (.ok content)) :
    header.Fits input input.size content := by
  have hsize := isWholeFrame_iff.mp hwhole
  unfold verdict? at h
  split at h
  · cases h
  · rename_i declared hcheck
    have hdeclared := contentSize_of_checkSize hread hcheck
    split at h
    · cases h
    · rename_i dict hdict
      split at h
      · rename_i size
        split at h
        · cases h
        · cases hdecode : decodeWhole dict input size with
          | error e =>
              rw [hdecode] at h
              cases h
          | ok content' =>
              rw [hdecode] at h
              cases h
              exact decodeWhole_fits hread hsize hdecode
      · exact decodeStream_fits hread hdeclared hsize (Option.some.inj h)

theorem verdict?_of_decode {content : ByteArray} (h : d.decode input = .ok content) :
    d.verdict? input = some (.ok content) := by
  obtain ⟨verdict, hverdict, heq⟩ | ⟨-, fault, -, heq⟩ := decode_eq d input
  · rw [h] at heq
    cases verdict with
    | error failure => cases heq
    | ok content' =>
        cases heq
        exact hverdict
  · rw [h] at heq
    cases heq

/-! ### Named failures -/

/-- Another prefix may be what the decoder failed for. -/
structure LikelyMismatch (d : Decompressor) (input : ByteArray) (e : CodecError) : Prop where
  pending : d.hasPendingPrefix = true
  whole : frameSize input 0 input.size = .ok input.size
  cause : e = .wrongChecksum ∨ e = .wrongDictionary

theorem likelyMismatch_iff {e : CodecError} :
    d.LikelyMismatch input e
      ↔ (d.hasPendingPrefix && isWholeFrame input && suggestsMismatch e) = true := by
  rw [Bool.and_eq_true, Bool.and_eq_true, isWholeFrame_iff, suggestsMismatch, Bool.or_eq_true,
    beq_iff_eq, beq_iff_eq]
  exact ⟨fun h => ⟨⟨h.pending, h.whole⟩, h.cause⟩, fun h => ⟨h.1.1, h.1.2, h.2⟩⟩

/-- **A failure is called a mismatch exactly if it may be one**, and a failure to decompress otherwise. -/
theorem streamError_eq (d : Decompressor) (input : ByteArray) (failure : StreamFailure) :
    (∃ e, failure = .codec e ∧ d.LikelyMismatch input e
        ∧ d.streamError input failure = .contentMismatch e.message)
      ∨ ((∀ e, failure = .codec e → ¬ d.LikelyMismatch input e)
        ∧ ∃ text, d.streamError input failure = .codec "decompress" text) := by
  cases failure with
  | codec e =>
      by_cases hlikely : d.LikelyMismatch input e
      · refine Or.inl ⟨e, rfl, hlikely, ?_⟩
        exact if_pos (likelyMismatch_iff.mp hlikely)
      · refine Or.inr ⟨fun e' he => ?_, e.message, ?_⟩
        · cases he
          exact hlikely
        · exact if_neg (mt likelyMismatch_iff.mpr hlikely)
  | limit => exact Or.inr ⟨nofun, _, rfl⟩
  | truncated => exact Or.inr ⟨nofun, _, rfl⟩

/-- A frame whose content some memory can hold is decoded, or it fails with an error. -/
theorem decode_ne_panic {header : FrameHeader} {size : Nat}
    (hread : HeaderScan.read input 0 input.size = .ok (.frame header))
    (hdeclared : header.contentSize = some size) (hsize : size ≤ maxCapacity) (text : String) :
    d.decode input ≠ .error (.panic text) := by
  intro hpanic
  obtain ⟨verdict, -, heq⟩ | ⟨-, fault, hrefusal, heq⟩ := decode_eq d input
  · rw [hpanic] at heq
    cases verdict <;> cases heq
  · rw [hpanic] at heq
    cases heq
    cases hrefusal with
    | tooLarge hcheck hlarge =>
        rw [contentSize_of_checkSize hread hcheck] at hdeclared
        cases hdeclared
        omega

theorem decompressFrame_eq_error_iff {fault : Fault} {out : ByteArray} :
    (d.decompressFrame input out).1 = .error fault ↔ d.decode input = .error fault := by
  unfold decompressFrame
  split
  · rename_i e hdecode
    rw [hdecode]
    exact ⟨fun h => congrArg Except.error (Except.error.inj h),
      fun h => congrArg Except.error (Except.error.inj h)⟩
  · rename_i content hdecode
    rw [hdecode]
    exact ⟨nofun, nofun⟩

/-- The session fails as the decoder does. -/
theorem decode_of_verdict?_error {failure : StreamFailure}
    (h : d.verdict? input = some (.error failure)) :
    d.decode input = .error (.error (d.streamError input failure)) := by
  obtain ⟨verdict, hverdict, heq⟩ | ⟨hnone, -⟩ := decode_eq d input
  · rw [h] at hverdict
    cases hverdict
    exact heq
  · rw [h] at hnone
    cases hnone

/-- **A mismatch is reported exactly for a likely mismatch of the decoder's.** -/
theorem decode_eq_contentMismatch_iff {text : String} :
    d.decode input = .error (.error (.contentMismatch text))
      ↔ ∃ e, d.verdict? input = some (.error (.codec e)) ∧ d.LikelyMismatch input e
        ∧ text = e.message := by
  constructor
  · intro h
    obtain ⟨verdict, hverdict, heq⟩ | ⟨-, fault, hrefusal, heq⟩ := decode_eq d input
    · rw [h] at heq
      cases verdict with
      | ok content => cases heq
      | error failure =>
          have hname := Fault.error.inj (Except.error.inj heq)
          obtain ⟨e, rfl, hlikely, hmismatch⟩ | ⟨-, text', hother⟩ := d.streamError_eq input failure
          · rw [hmismatch] at hname
            exact ⟨e, hverdict, hlikely, DictError.contentMismatch.inj hname⟩
          · rw [hother] at hname
            cases hname
    · rw [h] at heq
      cases heq
      cases hrefusal
  · rintro ⟨e, hverdict, hlikely, rfl⟩
    rw [decode_of_verdict?_error hverdict]
    obtain ⟨e', he, -, hmismatch⟩ | ⟨hnot, -⟩ := d.streamError_eq input (.codec e)
    · cases he
      rw [hmismatch]
    · exact absurd hlikely (hnot e rfl)

/-! ### Frames made with a prefix -/

/-- **Whatever a frame is read with, it comes to content of the same size and the same checksum, or to an
error.** -/
theorem decode_encodeFrame (d : Decompressor) {dict : LoadedDictionary} (checksum : Bool)
    {data : ByteArray} (hid : dict.id < 2 ^ 32) (hdata : data.size ≤ maxCapacity) :
    (∃ content, d.decode (encodeFrame dict checksum data) = .ok content ∧ content.size = data.size
        ∧ (checksum = true →
          Checksum.low content 0 content.size = Checksum.low data 0 data.size))
      ∨ ∃ e, d.decode (encodeFrame dict checksum data) = .error (.error e) := by
  have hsize : data.size < 2 ^ 64 - 1 := by
    simp only [maxCapacity] at hdata
    omega
  have hstands := standsAt_self (encodeFrame dict checksum data)
  have hstop := Nat.le_of_eq (Nat.zero_add (encodeFrame dict checksum data).size)
  have hread := HeaderScan.read_encodeFrame hstands hsize hid hstop
  have hwhole := isWholeFrame_iff.mpr (frameSize_encodeFrame hstands hsize hid hstop)
  cases hdecode : d.decode (encodeFrame dict checksum data) with
  | error fault =>
      cases fault with
      | error e => exact Or.inr ⟨e, rfl⟩
      | panic text =>
          exact absurd hdecode
            (decode_ne_panic hread (contentSize_writtenHeader data.size dict.id checksum) hdata text)
  | ok content =>
      have hfits := fits_of_verdict? hread hwhole (verdict?_of_decode hdecode)
      refine Or.inl ⟨content, rfl, hfits.size _ (contentSize_writtenHeader _ _ _), ?_⟩
      rintro rfl
      have hlow : Checksum.low data 0 data.size < 256 ^ 4 := Nat.mod_lt _ (Nat.two_pow_pos 32)
      rw [← hfits.checksum (checksum_writtenHeader _ _ _),
        (standsAt_trailer_encodeFrame dict data).littleEndian_number, Nat.mod_eq_of_lt hlow]

/-- **No wrong prefix is accepted silently.**

Content that a session appends for an input that is one whole frame has the size that the frame declares, and
the checksum that ends it, if there are such.  So a frame that was made with a prefix comes, under any other
prefix and in any other session, to bytes of the same size and the same checksum as the data it was made from,
or to an error that leaves session and output as they were.  No data is larger than a range of memory.

For any input at all, a mismatch is reported if and only if a prefix is pending, the headers of the blocks
lead exactly to the end of the input, and the decoder fails its checksum or asks for another dictionary.  Any
other failure of the decoder is a failure to decompress. -/
theorem decompressFrame_judged (d : Decompressor) (out : ByteArray) :
    (∀ input header d' out', HeaderScan.read input 0 input.size = .ok (.frame header) →
      frameSize input 0 input.size = .ok input.size →
      d.decompressFrame input out = (.ok (), d', out') →
        ∃ content, out' = out ++ content
          ∧ (∀ size, header.contentSize = some size → content.size = size)
          ∧ (header.checksum = true →
            littleEndian input (input.size - 4) 4 = Checksum.low content 0 content.size))
    ∧ (∀ (config : SessionConfig) (content data : ByteArray), data.size ≤ maxCapacity →
      ∃ c frame, Compressor.new config (some (.prefixed content)) = .ok c
        ∧ c.compressFrame data ByteArray.empty = (.ok (), c.afterFrame, frame)
        ∧ ((∃ bytes, d.decompressFrame frame out = (.ok (), d.afterFrame, out ++ bytes)
              ∧ bytes.size = data.size
              ∧ (config.usesChecksum = true →
                Checksum.low bytes 0 bytes.size = Checksum.low data 0 data.size))
          ∨ ∃ e, d.decompressFrame frame out = (.error (.error e), d, out)))
    ∧ ∀ input,
      (∀ text, (d.decompressFrame input out).1 = .error (.error (.contentMismatch text))
        ↔ ∃ e, d.verdict? input = some (.error (.codec e)) ∧ d.LikelyMismatch input e
          ∧ text = e.message)
      ∧ ∀ failure, d.verdict? input = some (.error failure) →
        (∀ e, failure = .codec e → ¬ d.LikelyMismatch input e) →
        ∃ text, (d.decompressFrame input out).1 = .error (.error (.codec "decompress" text)) := by
  refine ⟨?_, ?_, fun input => ⟨fun text => ?_, ?_⟩⟩
  · intro input header d' out' hread hsize h
    cases hdecode : d.decode input with
    | error fault =>
        rw [decompressFrame, hdecode] at h
        cases h
    | ok content =>
        rw [decompressFrame, hdecode] at h
        cases h
        have hfits := fits_of_verdict? hread (isWholeFrame_iff.mpr hsize) (verdict?_of_decode hdecode)
        exact ⟨content, rfl, hfits.size, hfits.checksum⟩
  · intro config content data hdata
    refine ⟨⟨config, some (.prefixed content)⟩,
      encodeFrame (.plain content) config.usesChecksum data, ?_, ?_, ?_⟩
    · rw [Compressor.new]
      exact if_neg (by simp [DictView.mode])
    · rw [Compressor.compressFrame, ← ByteArray.empty_append (b := encodeFrame _ _ _)]
      rfl
    · have hid : (LoadedDictionary.plain content).id < 2 ^ 32 := Nat.two_pow_pos 32
      obtain ⟨bytes, hdecode, hsame⟩ | ⟨e, hdecode⟩ :=
        d.decode_encodeFrame config.usesChecksum hid hdata
      · refine Or.inl ⟨bytes, ?_, hsame⟩
        rw [decompressFrame, hdecode]
      · refine Or.inr ⟨e, ?_⟩
        rw [decompressFrame, hdecode]
  · rw [decompressFrame_eq_error_iff, decode_eq_contentMismatch_iff]
  · intro failure hverdict hunlikely
    obtain ⟨e, he, hlikely, -⟩ | ⟨-, text, hother⟩ := d.streamError_eq input failure
    · exact absurd hlikely (hunlikely e he)
    · refine ⟨text, decompressFrame_eq_error_iff.mpr ?_⟩
      rw [decode_of_verdict?_error hverdict, hother]

/-- A session whose prefix is `b` reads a frame that was made with `a`, and one that names a dictionary. -/
theorem decompressFrame_judged_pending :
    let d : Decompressor := ⟨.standard, some (.prefixed ⟨#[98]⟩)⟩
    let named := encodeFrame ⟨⟨#[97]⟩, 0, 5, .initial⟩ true ⟨#[104, 105]⟩
    (∃ c frame, Compressor.new .standard (some (.prefixed ⟨#[97]⟩)) = .ok c
        ∧ c.compressFrame ⟨#[104, 105]⟩ ByteArray.empty = (.ok (), c.afterFrame, frame)
        ∧ ((∃ bytes, d.decompressFrame frame ByteArray.empty
              = (.ok (), d.afterFrame, ByteArray.empty ++ bytes) ∧ bytes.size = 2
              ∧ (true = true → Checksum.low bytes 0 bytes.size = Checksum.low ⟨#[104, 105]⟩ 0 2))
          ∨ ∃ e, d.decompressFrame frame ByteArray.empty
            = (.error (.error e), d, ByteArray.empty)))
      ∧ (d.decompressFrame named ByteArray.empty).1
        = .error (.error (.contentMismatch "Dictionary mismatch"))
      ∧ ∃ e, d.verdict? named = some (.error (.codec e)) ∧ d.LikelyMismatch named e
        ∧ "Dictionary mismatch" = e.message := by
  intro d named
  obtain ⟨-, hexchange, hreport⟩ := decompressFrame_judged d ByteArray.empty
  have hrefused : d.decode named = .error (.error (.contentMismatch "Dictionary mismatch")) :=
    decode_encodeFrame_of_ne (d := d) true rfl (by decide) (by decide) (by decide) (by decide)
      (by decide)
  have hmismatch : (d.decompressFrame named ByteArray.empty).1
      = .error (.error (.contentMismatch "Dictionary mismatch")) :=
    decompressFrame_eq_error_iff.mpr hrefused
  exact ⟨hexchange .standard ⟨#[97]⟩ ⟨#[104, 105]⟩ (by decide), hmismatch,
    ((hreport named).1 _).mp hmismatch⟩

end Decompressor

end SharedDictionary
