import SharedDictionary.Proofs.Frame.Lookahead
import SharedDictionary.Proofs.Handle.Serving
import SharedDictionary.Proofs.Session.Concatenation

/-!
# Digested and undigested decompression

A decompressor that holds the digest of a dictionary reads what one reads that prepares the undigested
content for each frame, whatever the input is.  This is so because both decode with the same tables and
the same history (`Decompressor.decode_congr`), as long as there is content.

Empty content is special.  Digested it is a dictionary, a cold one; undigested it is none.  No input
tells these apart by its content, but one failure can have two names: where a frame is damaged and also
longer than it declares, the digested side reports the damage and the undigested side the length.  The
main result is `views_interchangeable`, and `emptyViews_differ` is a frame with two names for its failure.
-/

namespace SharedDictionary

namespace Decompressor

/-- A session decodes by its parameters, the dictionary of its next frame, and whether that is a
prefix. -/
theorem decode_congr {d d' : Decompressor} (hconfig : d.config = d'.config)
    (hdictionary : d.dictionary = d'.dictionary) (hpending : d.hasPendingPrefix = d'.hasPendingPrefix)
    (input : ByteArray) : d.decode input = d'.decode input := by
  have hdecodeError : d.decodeError input = d'.decodeError input := by
    funext e
    rw [decodeError, decodeError, hpending]
  have hstreamError : d.streamError input = d'.streamError input := by
    funext e
    cases e with
    | codec e => exact congrFun hdecodeError e
    | limit => rw [streamError, streamError, hconfig]
    | truncated => rfl
  rw [decode, decode, checkSize, checkSize, hconfig, hdictionary, hpending, hdecodeError, hstreamError]

/-! ### Sessions that decode alike -/

section Alike

variable {e e' : Fault} {d d' : Decompressor}

/-- Single-frame calls come to the same if decoding does. -/
theorem decompressFrame_sameOr (hdecode : ∀ input, SameOr e e' (d.decode input) (d'.decode input))
    (hpending : d.hasPendingPrefix = false) (hpending' : d'.hasPendingPrefix = false)
    (input out : ByteArray) :
    SameOr e e' (d.decompressFrame input out).1 (d'.decompressFrame input out).1
      ∧ (d.decompressFrame input out).2.2 = (d'.decompressFrame input out).2.2
      ∧ (d.decompressFrame input out).2.1 = d ∧ (d'.decompressFrame input out).2.1 = d' := by
  rcases hdecode input with hsame | ⟨hfails, hfails'⟩
  · rcases hcontent : d.decode input with fault | content
    · rw [decompressFrame_of_error hcontent, decompressFrame_of_error (hsame ▸ hcontent)]
      exact ⟨.inl rfl, rfl, rfl, rfl⟩
    · rw [decompressFrame_of_ok hcontent, decompressFrame_of_ok (hsame ▸ hcontent)]
      exact ⟨.inl rfl, rfl, afterFrame_of_not_pending hpending,
        afterFrame_of_not_pending hpending'⟩
  · rw [decompressFrame_of_error hfails, decompressFrame_of_error hfails']
    exact ⟨.inr ⟨rfl, rfl⟩, rfl, rfl, rfl⟩

/-- Runs over whole inputs come to the same if decoding does. -/
theorem decompressFrom_sameOr (hdecode : ∀ input, SameOr e e' (d.decode input) (d'.decode input))
    (hpending : d.hasPendingPrefix = false) (hpending' : d'.hasPendingPrefix = false)
    (input : ByteArray) (start : Nat) (out : ByteArray) :
    SameOr e e' (d.decompressFrom input start out).1 (d'.decompressFrom input start out).1
      ∧ (d.decompressFrom input start out).2 = d ∧ (d'.decompressFrom input start out).2 = d' := by
  induction d, start, out using run_induction input with
  | done d start out hdone =>
      rw [d.decompressFrom_of_le out hdone, d'.decompressFrom_of_le out hdone]
      exact ⟨.inl rfl, rfl, rfl⟩
  | unfound d start out fault hmore hsize =>
      rw [d.decompressFrom_of_error out hmore hsize, d'.decompressFrom_of_error out hmore hsize]
      exact ⟨.inl rfl, rfl, rfl⟩
  | fails d start out size fault hmore hsize hfails =>
      rw [decompressFrom_of_decode_error hmore hsize hfails]
      rcases hdecode (input.extract start (start + size)) with hsame | ⟨hfails', hother⟩
      · rw [decompressFrom_of_decode_error hmore hsize (hsame ▸ hfails)]
        exact ⟨.inl rfl, rfl, rfl⟩
      · rw [decompressFrom_of_decode_error hmore hsize hother]
        cases hfails.symm.trans hfails'
        exact ⟨.inr ⟨rfl, rfl⟩, rfl, rfl⟩
  | reads d start out size content hmore hsize hreads ih =>
      have hreads' : d'.decode (input.extract start (start + size)) = .ok content := by
        rcases hdecode (input.extract start (start + size)) with hsame | ⟨hfails, -⟩
        · rw [← hsame, hreads]
        · rw [hreads] at hfails
          cases hfails
      have hstays := afterFrame_of_not_pending hpending
      rw [hstays] at ih
      rw [decompressFrom_of_decode_ok hmore hsize hreads,
        decompressFrom_of_decode_ok hmore hsize hreads', hstays,
        afterFrame_of_not_pending hpending']
      exact ih hdecode hpending

end Alike

/-- Two results are the same, or they name a failure differently: as damage, and as an output that is too
small. -/
abbrev SameUpToName {α : Type} (r r' : Except Fault α) : Prop :=
  SameOr (.error (.ofCodec "decompress" .corruption)) (.error (.ofCodec "decompress" .outputTooSmall))
    r r'

/-- **Empty content decodes the same digested or not**, up to the name of one failure. -/
theorem decode_empty (config : SessionConfig) (input : ByteArray) :
    SameUpToName
      (decode ⟨config, some (.digested none ⟨.plain ByteArray.empty⟩)⟩ input)
      (decode ⟨config, some (.undigested ByteArray.empty)⟩ input) := by
  have hsize : checkSize ⟨config, some (.digested none ⟨.plain ByteArray.empty⟩)⟩ input
      = checkSize ⟨config, some (.undigested ByteArray.empty)⟩ input := rfl
  have hdigested : dictionary ⟨config, some (.digested none ⟨.plain ByteArray.empty⟩)⟩
      = .ok (some (.plain ByteArray.empty)) := rfl
  have hundigested : dictionary ⟨config, some (.undigested ByteArray.empty)⟩ = .ok none := rfl
  rw [decode, decode, hsize, hdigested, hundigested]
  rcases checkSize ⟨config, some (.undigested ByteArray.empty)⟩ input with e | (_ | size)
  · exact .inl rfl
  · have hstream := (decodeStream_plain_empty input config.frameLimit).mapError fun e =>
      Fault.error (streamError ⟨config, some (.undigested ByteArray.empty)⟩ input e)
    exact hstream
  · dsimp only
    split
    · exact .inl rfl
    · have hwhole := (decodeWhole_plain_empty input size).mapError fun e =>
        Fault.error (decodeError ⟨config, some (.undigested ByteArray.empty)⟩ input e)
      exact hwhole

end Decompressor

/-! ### Views of one dictionary -/

section Views

variable {content : ByteArray} {isRaw : Bool} {w : SharedDict} {v : DictView DecompressionDigest}

/-- A digested view that was obtained holds what the content loads to. -/
theorem SharedDict.Reached.digestedView_eq (hw : SharedDict.Reached content isRaw w)
    (hview : (viewForDecompression codecEngine codecDepth .digested w).1.map DictView.unstamped
      = .ok v) :
    ∃ dict, LoadedDictionary.load? content = some dict ∧ v = .digested none ⟨dict⟩ := by
  obtain ⟨rfl, rfl⟩ := hw.sameContent
  have hview := (hw.faithful.viewForDecompression_eq 0 .digested).symm.trans hview
  rw [decompressionViewOutcome, decoderOutcome] at hview
  rcases hcheck : checkFormat w.handle.content w.handle.isRaw with fault | ⟨⟨⟩⟩ <;>
    rw [hcheck] at hview
  · cases hview
  · rcases hload : LoadedDictionary.load? w.handle.content with _ | dict
    · simp only [buildDecoderDigest, hload] at hview
      cases hview
    · simp only [buildDecoderDigest, hload] at hview
      cases hview
      exact ⟨dict, rfl, rfl⟩

/-- An undigested view that was obtained holds the content. -/
theorem SharedDict.Reached.undigestedView_eq (hw : SharedDict.Reached content isRaw w)
    (hview : (viewForDecompression codecEngine codecDepth .undigested w).1.map DictView.unstamped
      = .ok v) :
    v = .undigested content := by
  obtain ⟨rfl, rfl⟩ := hw.sameContent
  have hview := (hw.faithful.viewForDecompression_eq 0 .undigested).symm.trans hview
  rw [decompressionViewOutcome] at hview
  rcases hcheck : checkFormat w.handle.content w.handle.isRaw with fault | ⟨⟨⟩⟩ <;>
    rw [hcheck] at hview
  · cases hview
  · cases hview
    rfl

/-- Sessions on views of one dictionary decode alike: without any difference if there is content, and up
to the name of one failure if there is none. -/
theorem decode_views {dict : LoadedDictionary} (hload : LoadedDictionary.load? content = some dict)
    (config : SessionConfig) :
    ∃ e e' : DictError, (∀ input, SameOr (.error e) (.error e')
        (Decompressor.decode ⟨config, some (.digested none ⟨dict⟩)⟩ input)
        (Decompressor.decode ⟨config, some (.undigested content)⟩ input))
      ∧ (e = e' ∨ content = ByteArray.empty ∧ e = .ofCodec "decompress" .corruption
        ∧ e' = .ofCodec "decompress" .outputTooSmall) := by
  by_cases hempty : content = ByteArray.empty
  · subst hempty
    cases hload
    exact ⟨_, _, Decompressor.decode_empty config, .inr ⟨rfl, rfl, rfl⟩⟩
  · have hsome : content.isEmpty = false := by
      rw [← Bool.not_eq_true, isEmpty_iff]
      exact hempty
    have hdictionary : Decompressor.dictionary ⟨config, some (.digested none ⟨dict⟩)⟩
        = Decompressor.dictionary ⟨config, some (.undigested content)⟩ := by
      simp only [Decompressor.dictionary, hsome, hload]
      rfl
    refine ⟨default, default, fun input => .inl ?_, .inl rfl⟩
    exact Decompressor.decode_congr (by rfl) hdictionary (by rfl) input

end Views

/-- **Digested and undigested decompression are interchangeable**, up to the name of one failure.  A
session on the digested view of a dictionary and one on its undigested view come to the same result with
every input, frame by frame and for all frames, write the same output and stay as they are.  The
exception needs a dictionary without content: then what the digested side calls damage can be what the
undigested side calls an output that is too small. -/
theorem views_interchangeable {content : ByteArray} {isRaw : Bool} {w w' : SharedDict}
    (hw : SharedDict.Reached content isRaw w) (hw' : SharedDict.Reached content isRaw w')
    {v v' : DictView DecompressionDigest}
    (hview : (viewForDecompression codecEngine codecDepth .digested w).1.map DictView.unstamped
      = .ok v)
    (hview' : (viewForDecompression codecEngine codecDepth .undigested w').1.map DictView.unstamped
      = .ok v')
    (config : SessionConfig) (input : ByteArray) :
    let d : Decompressor := ⟨config, some v⟩
    let d' : Decompressor := ⟨config, some v'⟩
    (∀ out,
        ((d.decompressFrame input out).1 = (d'.decompressFrame input out).1
          ∨ content = ByteArray.empty
            ∧ (d.decompressFrame input out).1
              = .error (.error (.codec "decompress" "Data corruption detected"))
            ∧ (d'.decompressFrame input out).1
              = .error (.error (.codec "decompress" "Destination buffer is too small")))
        ∧ (d.decompressFrame input out).2.2 = (d'.decompressFrame input out).2.2
        ∧ (d.decompressFrame input out).2.1 = d ∧ (d'.decompressFrame input out).2.1 = d')
      ∧ ((d.decompressFrames input).1 = (d'.decompressFrames input).1
          ∨ content = ByteArray.empty
            ∧ (d.decompressFrames input).1
              = .error (.error (.codec "decompress" "Data corruption detected"))
            ∧ (d'.decompressFrames input).1
              = .error (.error (.codec "decompress" "Destination buffer is too small")))
      ∧ (d.decompressFrames input).2 = d ∧ (d'.decompressFrames input).2 = d' := by
  intro d d'
  obtain ⟨dict, hload, rfl⟩ := hw.digestedView_eq hview
  obtain rfl := hw'.undigestedView_eq hview'
  obtain ⟨e, e', hdecode, hnames⟩ := decode_views hload config
  have hname : ∀ {α : Type} {r r' : Except Fault α}, SameOr (.error e) (.error e') r r' →
      r = r' ∨ content = ByteArray.empty
        ∧ r = .error (.error (.codec "decompress" "Data corruption detected"))
        ∧ r' = .error (.error (.codec "decompress" "Destination buffer is too small")) := by
    intro α r r' hsame
    rcases hsame with hsame | ⟨hfails, hfails'⟩
    · exact .inl hsame
    · rcases hnames with rfl | ⟨hempty, rfl, rfl⟩
      · exact .inl (hfails.trans hfails'.symm)
      · exact .inr ⟨hempty, hfails, hfails'⟩
  refine ⟨fun out => ?_, ?_⟩
  · obtain ⟨hresult, houtput⟩ := Decompressor.decompressFrame_sameOr hdecode rfl rfl input out
    exact ⟨hname hresult, houtput⟩
  · obtain ⟨hresult, hsessions⟩ :=
      Decompressor.decompressFrom_sameOr hdecode rfl rfl input 0 ByteArray.empty
    exact ⟨hname hresult, hsessions⟩

/-- Three bytes of raw content, and an input that is no frame. -/
theorem views_interchangeable_raw :
    ∃ v v', (viewForDecompression codecEngine codecDepth .digested
          (SharedDict.new ⟨#[1, 2, 3]⟩ true)).1.map DictView.unstamped = .ok v
      ∧ (viewForDecompression codecEngine codecDepth .undigested
          (SharedDict.new ⟨#[1, 2, 3]⟩ true)).1.map DictView.unstamped = .ok v'
      ∧ (Decompressor.decompressFrame ⟨.standard, some v⟩ ⟨#[7]⟩ ByteArray.empty).1
        = (Decompressor.decompressFrame ⟨.standard, some v'⟩ ⟨#[7]⟩ ByteArray.empty).1 := by
  have hw : SharedDict.Reached ⟨#[1, 2, 3]⟩ true (SharedDict.new ⟨#[1, 2, 3]⟩ true) := .new
  have hsettled := hw.settled (usable_of_size_lt (by decide)) rfl
  have hview := hsettled.viewForDecompression_eq .digested
  have hview' := hsettled.viewForDecompression_eq .undigested
  refine ⟨_, _, hview, hview', ?_⟩
  rcases ((views_interchangeable hw hw hview hview' .standard ⟨#[7]⟩).1 ByteArray.empty).1
    with hsame | ⟨hempty, -⟩
  · exact hsame
  · exact absurd hempty (by decide)

/-- A frame whose only sequence is damaged and longer than the frame declares, and a dictionary without
content: both views are to be had, and the failure has two names. -/
theorem emptyViews_differ :
    let frame : ByteArray := ⟨#[0x28, 0xB5, 0x2F, 0xFD, 0x20, 10, 0x45, 0, 0, 0x08, 97, 1, 0x54, 1, 0,
      17, 0x80]⟩
    ∃ v v', (viewForDecompression codecEngine codecDepth .digested
          (SharedDict.new ByteArray.empty true)).1.map DictView.unstamped = .ok v
      ∧ (viewForDecompression codecEngine codecDepth .undigested
          (SharedDict.new ByteArray.empty true)).1.map DictView.unstamped = .ok v'
      ∧ (Decompressor.decompressFrame ⟨.standard, some v⟩ frame ByteArray.empty).1
        = .error (.error (.codec "decompress" "Data corruption detected"))
      ∧ (Decompressor.decompressFrame ⟨.standard, some v'⟩ frame ByteArray.empty).1
        = .error (.error (.codec "decompress" "Destination buffer is too small")) := by
  intro frame
  have hw : SharedDict.Reached ByteArray.empty true (SharedDict.new ByteArray.empty true) := .new
  have hsettled := hw.settled (usable_of_size_lt (by decide)) rfl
  refine ⟨_, _, hsettled.viewForDecompression_eq .digested,
    hsettled.viewForDecompression_eq .undigested, ?_, ?_⟩
  · decide +kernel
  · decide +kernel

end SharedDictionary
