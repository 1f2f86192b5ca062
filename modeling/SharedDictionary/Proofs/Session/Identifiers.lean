import SharedDictionary.Proofs.Session.Exchange

/-!
# Frames name their dictionary

A formatted dictionary has an identifier.  It is loaded with the content (`LoadedDictionary.id_of_load?`),
a compressor writes it into the header of every frame, and a decompressor compares it with that of its
own dictionary before it decodes anything.  A prefix, content without a header and no dictionary at all
have the identifier zero.

`Foreign` lists what a decompressor can hold without holding the dictionary that a frame names.  The
main result is `frame_refused_under_another_id`: none of it gets such a frame decoded.
-/

namespace SharedDictionary

/-! ### Identifiers -/

/-- Content without a header has no identifier. -/
theorem Dictionary.readId_of_isFormatted_eq_false {content : ByteArray}
    (h : isFormatted content = false) : readId content = 0 := by
  rw [isFormatted, Bool.and_eq_false_iff, decide_eq_false_iff_not, Nat.not_le] at h
  rw [readId, if_pos]
  rcases h with hshort | hmagic
  · rw [decide_eq_true hshort, Bool.true_or]
  · rw [hmagic, Bool.not_false, Bool.or_true]

/-- **What is loaded has the identifier of the content.** -/
theorem LoadedDictionary.id_of_load? {content : ByteArray} {dict : LoadedDictionary}
    (h : load? content = some dict) : dict.id = Dictionary.readId content := by
  rcases hformatted : Dictionary.isFormatted content with _ | _
  · rw [load?_eq_plain hformatted] at h
    cases h
    exact (Dictionary.readId_of_isFormatted_eq_false hformatted).symm
  · rw [load?, if_pos hformatted] at h
    obtain ⟨⟨state, start⟩, -, rfl⟩ := Option.map_eq_some_iff.mp h
    rfl

/-- A session with a view has the identifier that the content of the view was loaded with. -/
theorem availableId_decompressionViewOf (config : SessionConfig) {content : ByteArray}
    {dict : LoadedDictionary} (hload : LoadedDictionary.load? content = some dict) {mode : DictMode}
    (hmode : mode ≠ .prefixed) :
    ∃ given, Decompressor.dictionary
        ⟨config, some (SharedDict.decompressionViewOf dict content mode)⟩ = .ok given
      ∧ availableId given = dict.id := by
  cases mode with
  | digested => exact ⟨_, rfl, rfl⟩
  | undigested =>
      simp only [SharedDict.decompressionViewOf, Decompressor.dictionary, hload]
      split
      · rename_i hempty
        obtain rfl : content = ByteArray.empty := isEmpty_iff.mp hempty
        cases hload
        exact ⟨_, rfl, rfl⟩
      · exact ⟨_, rfl, rfl⟩
  | prefixed => exact absurd rfl hmode

/-! ### Decompressors without the dictionary -/

/-- What a decompressor can hold that is not the dictionary with an identifier. -/
inductive Foreign (id : Nat) : Option (DictView DecompressionDigest) → Prop
  /-- No dictionary. -/
  | absent : Foreign id none
  /-- A prefix, whatever it contains. -/
  | pending (content : ByteArray) : Foreign id (some (.prefixed content))
  /-- Raw content without a header, digested or not. -/
  | headerless {content : ByteArray} {w : SharedDict} {mode : DictMode}
      {v : DictView DecompressionDigest} (hw : SharedDict.Reached content true w)
      (hplain : Dictionary.isFormatted content = false) (hmode : mode ≠ .prefixed)
      (hview : (viewForDecompression codecEngine codecDepth mode w).1.map DictView.unstamped = .ok v) :
      Foreign id (some v)
  /-- A formatted dictionary with another identifier, digested or not. -/
  | formatted {content : ByteArray} {isRaw : Bool} {w : SharedDict} {mode : DictMode}
      {v : DictView DecompressionDigest} (hw : SharedDict.Reached content isRaw w)
      (husable : Usable content isRaw) (hformatted : Dictionary.isFormatted content = true)
      (hother : Dictionary.readId content ≠ id) (hmode : mode ≠ .prefixed)
      (hview : (viewForDecompression codecEngine codecDepth mode w).1.map DictView.unstamped = .ok v) :
      Foreign id (some v)

/-- A view of content with another identifier brings that identifier into the session. -/
private theorem exists_availableId_ne {id : Nat} (config : SessionConfig) {content : ByteArray}
    {isRaw : Bool} {w : SharedDict} {mode : DictMode} {v : DictView DecompressionDigest}
    (hw : SharedDict.Reached content isRaw w) (husable : Usable content isRaw)
    (hother : Dictionary.readId content ≠ id) (hmode : mode ≠ .prefixed)
    (hview : (viewForDecompression codecEngine codecDepth mode w).1.map DictView.unstamped = .ok v) :
    ∃ given, Decompressor.dictionary ⟨config, some v⟩ = .ok given ∧ availableId given ≠ id := by
  obtain ⟨dict, hload⟩ := Option.isSome_iff_exists.mp husable.2
  rw [(hw.settled husable hload).viewForDecompression_eq mode, hw.sameContent.1] at hview
  cases hview
  obtain ⟨given, hgiven, hid⟩ := availableId_decompressionViewOf config hload hmode
  refine ⟨given, hgiven, ?_⟩
  rwa [hid, LoadedDictionary.id_of_load? hload]

/-- The dictionary of the next frame has another identifier. -/
theorem Foreign.availableId_ne {id : Nat} {held : Option (DictView DecompressionDigest)}
    (h : Foreign id held) (hid : id ≠ 0) (config : SessionConfig) :
    ∃ given, Decompressor.dictionary ⟨config, held⟩ = .ok given ∧ availableId given ≠ id := by
  cases h with
  | absent => exact ⟨none, rfl, hid.symm⟩
  | pending content =>
      refine ⟨_, rfl, ?_⟩
      split
      · exact hid.symm
      · exact hid.symm
  | headerless hw hplain hmode hview =>
      refine exists_availableId_ne config hw (usable_of_isFormatted_eq_false hplain) ?_ hmode hview
      rw [Dictionary.readId_of_isFormatted_eq_false hplain]
      exact hid.symm
  | formatted hw husable hformatted hother hmode hview =>
      exact exists_availableId_ne config hw husable hother hmode hview

/-- What the refusal of a frame that names another dictionary is reported as: a prefix that is pending
may be the wrong one. -/
def Decompressor.refusal (d : Decompressor) : DictError :=
  if d.hasPendingPrefix then .contentMismatch "Dictionary mismatch"
  else .codec "decompress" "Dictionary mismatch"

/-- A session refuses a frame that names a dictionary it does not have. -/
theorem Decompressor.decode_encodeFrame_of_ne {d : Decompressor} {dict : LoadedDictionary}
    {given : Option LoadedDictionary} (checksum : Bool) {data : ByteArray}
    (hgiven : d.dictionary = .ok given) (hnamed : dict.id ≠ 0) (hother : availableId given ≠ dict.id)
    (hid : dict.id < 2 ^ 32) (hdata : data.size ≤ maxCapacity)
    (hlimit : data.size ≤ d.config.frameLimit) :
    d.decode (encodeFrame dict checksum data) = .error (.error d.refusal) := by
  have hsize : data.size < 2 ^ 64 - 1 := by
    simp only [maxCapacity] at hdata
    omega
  have hvalid := validFrame_encodeFrame_self checksum hid hsize
  have hcheck : d.checkSize (encodeFrame dict checksum data) = .ok (some data.size) :=
    checkSize_of_valid hvalid hdata hlimit
  have hwhole : isWholeFrame (encodeFrame dict checksum data) = true := by
    rw [isWholeFrame, hvalid.frameSize_eq]
    exact beq_self_eq_true _
  have hmessage : CodecError.wrongDictionary.message = "Dictionary mismatch" := rfl
  have herror : d.decodeError (encodeFrame dict checksum data) .wrongDictionary = d.refusal := by
    rw [decodeError, refusal, hwhole, Bool.and_true, DictError.ofCodec, hmessage,
      show suggestsMismatch .wrongDictionary = true from rfl, Bool.and_true]
  rw [decode, hcheck, hgiven]
  simp only
  rw [if_neg (Nat.not_lt.mpr hdata),
    decodeWhole_encodeFrame_of_ne checksum hnamed hother.symm hid hsize, ← herror]
  rfl

/-! ### Compressors with the dictionary -/

/-- **A frame is never decoded under another identifier.**  Whatever was asked of a dictionary with an
identifier other than zero, its digested and its undigested view are to be had, and a compressor that
holds one writes a frame for any data.  A decompressor that does not have the dictionary with this
identifier refuses the frame, and neither the output nor the session changes: a prefix stays pending. -/
theorem frame_refused_under_another_id {content : ByteArray} {isRaw : Bool} {w : SharedDict}
    (hw : SharedDict.Reached content isRaw w) (husable : Usable content isRaw)
    (hid : Dictionary.readId content ≠ 0) {mode : DictMode} (hmode : mode ≠ .prefixed)
    (level : Int32) :
    ∃ v, (view codecEngine codecDepth mode level w).1.map DictView.unstamped = .ok v
      ∧ ∀ config c, Compressor.new config (some v) = .ok c →
        ∀ data : ByteArray, data.size ≤ Decompressor.maxCapacity →
          ∃ frame, (∀ out, c.compressFrame data out = (.ok (), c, out ++ frame))
            ∧ ∀ d : Decompressor, Foreign (Dictionary.readId content) d.dict →
              data.size ≤ d.config.frameLimit →
              ∀ out, d.decompressFrame frame out
                = (.error (.error (if d.hasPendingPrefix then .contentMismatch "Dictionary mismatch"
                    else .codec "decompress" "Dictionary mismatch")), d, out) := by
  obtain ⟨dict, hload⟩ := Option.isSome_iff_exists.mp husable.2
  have hread : dict.id = Dictionary.readId content := LoadedDictionary.id_of_load? hload
  refine ⟨SharedDict.viewOf dict content level mode, ?_, fun config c hnew data hdata => ?_⟩
  · rw [(hw.settled husable hload).view_eq mode level, hw.sameContent.1]
  obtain rfl := Compressor.eq_of_new_eq_ok hnew
  refine ⟨encodeFrame dict config.usesChecksum data, fun out => ?_, fun d hforeign hlimit out => ?_⟩
  · have hpending : Compressor.hasPendingPrefix
        ⟨config, some (SharedDict.viewOf dict content level mode)⟩ = false := by
      cases mode with
      | digested => rfl
      | undigested => rfl
      | prefixed => exact absurd rfl hmode
    rw [Compressor.compressFrame, Compressor.encode,
      Pairing.dictionary_viewOf hload level hmode, Compressor.afterFrame, hpending]
    rfl
  · obtain ⟨given, hgiven, hother⟩ := hforeign.availableId_ne hid d.config
    rw [← hread] at hid hother
    have hrefuses := Decompressor.decode_encodeFrame_of_ne config.usesChecksum hgiven hid hother
      (compatible_load hload).id_lt hdata hlimit
    rw [Decompressor.decompressFrame, hrefuses]
    rfl

/-- The smallest tables make a dictionary whose own bytes, as a prefix, do not get its frames decoded. -/
theorem frame_refused_under_another_id_prefixed :
    let content : ByteArray := ⟨#[0x37, 0xA4, 0x30, 0xEC, 1, 0, 0, 0, 0x80, 0x10, 0xE0, 0x0F, 0xE0,
      0x0F, 0xE0, 0x0F, 1, 0, 0, 0, 1, 0, 0, 0, 1, 0, 0, 0, 97, 98, 99, 100, 101, 102, 103, 104]⟩
    Usable content false ∧ Dictionary.readId content ≠ 0
      ∧ ∃ v c frame, (view codecEngine codecDepth .digested 3 (SharedDict.new content false)).1.map
            DictView.unstamped = .ok v
          ∧ Compressor.new .standard (some v) = .ok c
          ∧ (∀ out, c.compressFrame ⟨#[104, 105]⟩ out = (.ok (), c, out ++ frame))
          ∧ ∀ out, Decompressor.decompressFrame ⟨.standard, some (.prefixed content)⟩ frame out
            = (.error (.error (.contentMismatch "Dictionary mismatch")),
                ⟨.standard, some (.prefixed content)⟩, out) := by
  intro content
  have husable : Usable content false := usable_iff_checkFormat.mpr (by decide +kernel)
  have hid : Dictionary.readId content ≠ 0 := by decide +kernel
  obtain ⟨v, hview, hrefused⟩ :=
    frame_refused_under_another_id SharedDict.Reached.new husable hid
      (show DictMode.digested ≠ .prefixed by decide) 3
  have hnew : Compressor.new .standard (some v) = .ok ⟨.standard, some v⟩ := rfl
  obtain ⟨frame, hframe, hall⟩ := hrefused .standard _ hnew ⟨#[104, 105]⟩ (by decide)
  exact ⟨husable, hid, v, _, frame, hview, hnew, hframe,
    hall ⟨.standard, some (.prefixed content)⟩ (.pending content) (by decide)⟩

end SharedDictionary
