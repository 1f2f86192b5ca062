import SharedDictionary.Proofs.Bytes.Standing
import SharedDictionary.Proofs.Dictionary.Requirements
import SharedDictionary.Proofs.Handle.Serving
import SharedDictionary.Session.Compressor
import SharedDictionary.Session.Decompressor

/-!
# What raw content is good for

Raw content passes the format check whatever it is.  But whoever prepares content looks at it again:
where it opens with a header, its tables are read, and raw content whose tables cannot be read is
refused after all (`raw_content`).

There are three kinds of raw content.  Without a header it is plain history.  With a header and tables
that can be read it serves too, but as a formatted dictionary (`Serves`).  With a header and tables that
cannot be read it has no digests, and sessions fail on its undigested views (`Refuses`).
-/

namespace SharedDictionary

/-- Tables that were read hold a Huffman code, which plain history comes without. -/
theorem LoadedDictionary.plain_ne_of_readTables? {content : ByteArray}
    {state : Entropy.CodingState} {start : Nat}
    (htables : Dictionary.readTables? content = some (state, start)) :
    plain content ≠ ⟨content, start, Dictionary.readId content, state⟩ := by
  intro hplain
  have hinitial : Entropy.CodingState.initial = state := congrArg LoadedDictionary.state hplain
  rw [Dictionary.readTables?] at htables
  -- One step for each part that is read: the header, the code, three tables and the offsets.
  obtain ⟨_, -, htables⟩ := Option.bind_eq_some_iff.mp htables
  obtain ⟨⟨huffman, _⟩, -, htables⟩ := Option.bind_eq_some_iff.mp htables
  obtain ⟨⟨offsets, _⟩, -, htables⟩ := Option.bind_eq_some_iff.mp htables
  obtain ⟨⟨matchLengths, _⟩, -, htables⟩ := Option.bind_eq_some_iff.mp htables
  obtain ⟨⟨literalLengths, _⟩, -, htables⟩ := Option.bind_eq_some_iff.mp htables
  obtain ⟨_, -, htables⟩ := Option.bind_eq_some_iff.mp htables
  obtain ⟨_, -, htables⟩ := Option.bind_eq_some_iff.mp htables
  rw [← hinitial] at htables
  cases htables

/-- Formatted content opens with the magic number. -/
theorem Dictionary.hasMagic_of_isFormatted {content : ByteArray}
    (hformatted : isFormatted content = true) : hasMagic content = true :=
  ((Bool.and_eq_true _ _).mp hformatted).2

namespace SharedDict

variable {content : ByteArray} {dict : LoadedDictionary} {w : SharedDict}

/-- A dictionary serves with what its content loads to: its digests are to be had, and sessions on its
digested and undigested views prepare the same. -/
structure Serves (w : SharedDict) (dict : LoadedDictionary) : Prop where
  digest : ∀ depth level,
    (view codecEngine (depth + 1) .digested level w).1.map DictView.unstamped
      = .ok (.digested (some level) ⟨level, dict⟩)
  decoder : ∀ depth,
    (viewForDecompression codecEngine (depth + 1) .digested w).1.map DictView.unstamped
      = .ok (.digested none ⟨dict⟩)
  compresses : ∀ config level data,
    Compressor.encode ⟨config, some (.digested (some level) ⟨level, dict⟩)⟩ data
        = .ok (encodeFrame dict config.usesChecksum data)
      ∧ Compressor.encode ⟨config, some (.undigested w.handle.content)⟩ data
        = .ok (encodeFrame dict config.usesChecksum data)
  decompresses : ∀ config,
    Decompressor.dictionary ⟨config, some (.digested none ⟨dict⟩)⟩ = .ok (some dict)
      ∧ Decompressor.dictionary ⟨config, some (.undigested w.handle.content)⟩
        = .ok (if w.handle.content.isEmpty then none else some dict)

/-- A dictionary refuses to serve: it has no digests, and sessions on its undigested views fail, a
decompressor on every input whose size is within its limit. -/
structure Refuses (w : SharedDict) : Prop where
  digest : ∀ depth level,
    (view codecEngine (depth + 1) .digested level w).1.map DictView.unstamped
      = .error (.error (.badFormat ("zstd rejected the dictionary tables while building a "
          ++ "digested compression dictionary")))
  decoder : ∀ depth,
    (viewForDecompression codecEngine (depth + 1) .digested w).1.map DictView.unstamped
      = .error (.error (.badFormat ("zstd rejected the dictionary tables while building a "
          ++ "digested decompression dictionary")))
  compresses : ∀ config data,
    Compressor.encode ⟨config, some (.undigested w.handle.content)⟩ data
      = .error (.ofCodec "compress" .allocation)
  decompresses : ∀ config input declared,
    Decompressor.checkSize ⟨config, some (.undigested w.handle.content)⟩ input = .ok declared →
    Decompressor.decode ⟨config, some (.undigested w.handle.content)⟩ input
      = .error (.error (.ofCodec "load undigested dictionary" .allocation))

/-- Raw content that can be loaded serves. -/
theorem Faithful.serves (hw : Faithful w) (hraw : w.handle.isRaw = true)
    (hload : LoadedDictionary.load? w.handle.content = some dict) : w.Serves dict where
  digest := (hw.grants (checkFormat_of_isRaw hraw) hload).digest
  decoder := (hw.grants (checkFormat_of_isRaw hraw) hload).decoder
  compresses config level data := by
    refine ⟨rfl, ?_⟩
    simp only [Compressor.encode, Compressor.dictionary, hload]
    rfl
  decompresses config := by
    refine ⟨rfl, ?_⟩
    simp only [Decompressor.dictionary, hload]
    split <;> rfl

/-- Raw content that cannot be loaded refuses to serve. -/
theorem Faithful.refuses (hw : Faithful w) (hraw : w.handle.isRaw = true)
    (hmagic : Dictionary.hasMagic w.handle.content = true)
    (hload : LoadedDictionary.load? w.handle.content = none) : w.Refuses where
  digest depth level := by
    rw [hw.view_eq depth .digested level, hraw]
    simp only [viewOutcome, digestOutcome, checkFormat, if_true, buildDigest, hload, loadFailure,
      hmagic]
    rfl
  decoder depth := by
    rw [hw.viewForDecompression_eq depth .digested, hraw]
    simp only [decompressionViewOutcome, decoderOutcome, checkFormat, if_true, buildDecoderDigest,
      hload, loadFailure, hmagic]
    rfl
  compresses config data := by
    simp only [Compressor.encode, Compressor.dictionary, hload]
    rfl
  decompresses config input declared hsize := by
    -- Empty content would count as no dictionary, but the magic number takes four bytes.
    have hsome : w.handle.content.isEmpty = false := by
      rw [← Bool.not_eq_true, isEmpty_iff]
      intro hempty
      rw [hempty] at hmagic
      cases hmagic
    have hdictionary : Decompressor.dictionary ⟨config, some (.undigested w.handle.content)⟩
        = .error (.ofCodec "load undigested dictionary" .allocation) := by
      simp only [Decompressor.dictionary, hsome, hload]
      rfl
    rw [Decompressor.decode, hsize, hdictionary]

/-- A dictionary serves with one thing only. -/
theorem Serves.unique {dict' : LoadedDictionary} (h : w.Serves dict) (h' : w.Serves dict') :
    dict = dict' := by
  have hsame := (h.decoder 0).symm.trans (h'.decoder 0)
  injection hsame with hview
  injection hview with _ hdigest
  injection hdigest

/-- A dictionary that serves does not refuse to. -/
theorem Serves.not_refuses (h : w.Serves dict) : ¬ w.Refuses := by
  intro hrefuses
  have hsame := (h.decoder 0).symm.trans (hrefuses.decoder 0)
  cases hsame

/-- **Raw content serves as plain history exactly if no header opens it.**  Whatever a dictionary of
raw content was asked for, its undigested views are to be had.  With a header the content serves as
the formatted dictionary that it would be without the declaration, if its tables can be read; if they
cannot, it refuses to serve. -/
theorem raw_content (content : ByteArray) (demands : List Demand) :
    let w : SharedDict := (SharedDict.new content true).after codecEngine demands
    (∀ depth level,
        (view codecEngine (depth + 1) .undigested level w).1.map DictView.unstamped
            = .ok (.undigested content)
          ∧ (viewForDecompression codecEngine (depth + 1) .undigested w).1.map DictView.unstamped
            = .ok (.undigested content))
      ∧ (w.Serves (.plain content) ↔ Dictionary.isFormatted content = false)
      ∧ (Dictionary.isFormatted content = true →
          (∀ state start, Dictionary.readTables? content = some (state, start) →
              w.Serves ⟨content, start, Dictionary.readId content, state⟩)
            ∧ (Dictionary.readTables? content = none ↔ w.Refuses)) := by
  intro w
  have hw : Faithful w := (faithful_new content true).after demands
  have hsame := continues_after codecEngine (SharedDict.new content true) demands
  have hcontent : w.handle.content = content := hsame.content
  have hraw : w.handle.isRaw = true := hsame.isRaw
  have htables : ∀ state start, Dictionary.isFormatted content = true →
      Dictionary.readTables? content = some (state, start) →
      w.Serves ⟨content, start, Dictionary.readId content, state⟩ := by
    intro state start hformatted hread
    refine hw.serves hraw ?_
    rw [hcontent]
    exact LoadedDictionary.load?_of_readTables? hformatted hread
  have hrefuses : Dictionary.isFormatted content = true →
      Dictionary.readTables? content = none → w.Refuses := by
    intro hformatted hread
    refine hw.refuses hraw ?_ ?_
    · rw [hcontent]
      exact Dictionary.hasMagic_of_isFormatted hformatted
    · rw [hcontent]
      exact LoadedDictionary.load?_eq_none hformatted hread
  refine ⟨fun depth level => ⟨?_, ?_⟩, ⟨fun hplain => ?_, fun hheaderless => ?_⟩,
    fun hformatted => ⟨fun state start => htables state start hformatted,
      hrefuses hformatted, fun hw => ?_⟩⟩
  · rw [hw.view_eq depth .undigested level, hcontent, hraw]
    rfl
  · rw [hw.viewForDecompression_eq depth .undigested, hcontent, hraw]
    rfl
  · -- With a header, either nothing serves, or something with a Huffman code does.
    rw [← Bool.not_eq_true]
    intro hformatted
    rcases hread : Dictionary.readTables? content with _ | ⟨state, start⟩
    · exact hplain.not_refuses (hrefuses hformatted hread)
    · have hloaded := hplain.unique (htables state start hformatted hread)
      exact LoadedDictionary.plain_ne_of_readTables? hread hloaded
  · refine hw.serves hraw ?_
    rw [hcontent]
    exact LoadedDictionary.load?_eq_plain hheaderless
  · rcases hread : Dictionary.readTables? content with _ | ⟨state, start⟩
    · rfl
    · exact absurd hw (htables state start hformatted hread).not_refuses

/-- Eight bytes of raw content that are a header and nothing else: there is no digest for a level or for
the decoder, and a session on the undigested view fails. -/
theorem raw_content_headerOnly :
    let content : ByteArray := ⟨#[0x37, 0xA4, 0x30, 0xEC, 1, 0, 0, 0]⟩
    let w : SharedDict := .new content true
    (view codecEngine codecDepth .digested 3 w).1.map DictView.unstamped
        = .error (.error (.badFormat ("zstd rejected the dictionary tables while building a "
            ++ "digested compression dictionary")))
      ∧ (viewForDecompression codecEngine codecDepth .digested w).1.map DictView.unstamped
        = .error (.error (.badFormat ("zstd rejected the dictionary tables while building a "
            ++ "digested decompression dictionary")))
      ∧ Compressor.encode ⟨.standard, some (.undigested content)⟩ ByteArray.empty
        = .error (.ofCodec "compress" .allocation) := by
  intro content w
  have hload : LoadedDictionary.load? content = none :=
    LoadedDictionary.load?_eq_none (by decide) rfl
  have hrefuses : w.Refuses := (faithful_new content true).refuses rfl (by decide) hload
  exact ⟨hrefuses.digest 0 3, hrefuses.decoder 0, hrefuses.compresses .standard ByteArray.empty⟩

end SharedDict

end SharedDictionary
