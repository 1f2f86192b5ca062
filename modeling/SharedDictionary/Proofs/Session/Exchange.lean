import SharedDictionary.Proofs.Frame.RoundTrip
import SharedDictionary.Proofs.Handle.Serving
import SharedDictionary.Proofs.Session.ValidFrames
import SharedDictionary.Session.Compressor

/-!
# Exchanging frames

A compressor and a decompressor *agree* if what the one writes its next frame with is what the other
reads it with (`Agree`).  Sessions that agree exchange one frame (`Agree.decode_encode`) and still
agree after it (`Agree.afterFrame`): where a prefix is used up, it is used up on both sides.

Sessions come to agree through the dictionaries they are given.  `Pairing` lists the ways that belong
together: none on either side, one prefix on both, or any of the other modes on either side, of
handles with the same content.  `Pairing.agree` shows that each of them gives sessions that agree,
and `Pairing.roundTrip` that data comes back.
-/

namespace SharedDictionary

/-! ### Sessions that agree -/

/-- What one side writes with is what the other side reads with: the same history, and the identifier
that the frame will name. -/
structure Compatible (dict : LoadedDictionary) (given : Option LoadedDictionary) : Prop where
  history : (startingPoint given).1 = dict.history
  id : dict.id = 0 ∨ dict.id = availableId given
  id_lt : dict.id < 2 ^ 32

theorem compatible_plain_none : Compatible (.plain ByteArray.empty) none :=
  ⟨rfl, Or.inl rfl, by decide⟩

theorem compatible_plain (content : ByteArray) :
    Compatible (.plain content) (some (.plain content)) :=
  ⟨rfl, Or.inl rfl, Nat.two_pow_pos 32⟩

theorem compatible_load {content : ByteArray} {dict : LoadedDictionary}
    (h : LoadedDictionary.load? content = some dict) : Compatible dict (some dict) := by
  refine ⟨rfl, Or.inr rfl, ?_⟩
  rw [LoadedDictionary.load?] at h
  split at h
  · obtain ⟨⟨state, contentStart⟩, -, rfl⟩ := Option.map_eq_some_iff.mp h
    exact Dictionary.readId_lt content
  · cases h
    exact Nat.two_pow_pos 32

/-- What the one side writes is a valid frame for the other. -/
theorem Compatible.validFrame {dict : LoadedDictionary} {given : Option LoadedDictionary}
    (h : Compatible dict given) (checksum : Bool) {content : ByteArray}
    (hsize : content.size ≤ Decompressor.maxCapacity) :
    ValidFrame given (encodeFrame dict checksum content) (writtenHeader content.size dict.id checksum)
      content := by
  simp only [Decompressor.maxCapacity] at hsize
  exact validFrame_encodeFrame checksum h.history h.id h.id_lt (by omega)

/-- The next frame that a compressor writes is one that a decompressor can read. -/
structure Agree (c : Compressor) (d : Decompressor) : Prop where
  dictionaries : ∃ dict given, c.dictionary = .ok dict ∧ d.dictionary = .ok given
    ∧ Compatible dict given
  pending : c.hasPendingPrefix = d.hasPendingPrefix

theorem agree_none (config config' : SessionConfig) : Agree ⟨config, none⟩ ⟨config', none⟩ :=
  ⟨⟨_, _, rfl, rfl, compatible_plain_none⟩, rfl⟩

variable {c : Compressor} {d : Decompressor}

/-- A session without a prefix stays as it is. -/
theorem Compressor.afterFrame_of_not_pending (h : c.hasPendingPrefix = false) : c.afterFrame = c := by
  rw [afterFrame, h]
  rfl

theorem Decompressor.afterFrame_of_not_pending (h : d.hasPendingPrefix = false) : d.afterFrame = d := by
  rw [afterFrame, h]
  rfl

/-- Sessions that agree still agree after a frame. -/
theorem Agree.afterFrame (h : Agree c d) : Agree c.afterFrame d.afterFrame := by
  rw [Compressor.afterFrame, Decompressor.afterFrame, h.pending]
  split
  · exact agree_none _ _
  · exact h

/-- **Sessions that agree exchange a frame.**  The frame is found wherever it stands. -/
theorem Agree.decode_encode (h : Agree c d) (data : ByteArray)
    (hdata : data.size ≤ Decompressor.maxCapacity) (hlimit : data.size ≤ d.config.frameLimit) :
    ∃ frame, c.encode data = .ok frame ∧ d.decode frame = .ok data
      ∧ ∀ bytes i, StandsAt bytes i frame → frameSize bytes i bytes.size = .ok frame.size := by
  obtain ⟨dict, given, hdict, hgiven, hcompatible⟩ := h.dictionaries
  have hvalid := hcompatible.validFrame c.config.usesChecksum hdata
  refine ⟨encodeFrame dict c.config.usesChecksum data, ?_, ?_, ?_⟩
  · rw [Compressor.encode, hdict]
    rfl
  · exact Decompressor.decode_of_valid hgiven hvalid hdata (by simp) hlimit (by simp)
  · intro bytes i hstands
    exact hstands.frameSize_whole hvalid.frameSize_eq

/-! ### Sessions with dictionaries that belong together -/

/-- Where the two sides of an exchange take their dictionary from. -/
inductive Pairing where
  /-- Neither side has a dictionary. -/
  | absent
  /-- Each side takes a view of a handle, the compressor's for a level. -/
  | views (compressing : SharedDict) (mode : DictMode) (level : Int32)
      (decompressing : SharedDict) (decompressionMode : DictMode)

namespace Pairing

/-- A fresh compressor. -/
def compressor (p : Pairing) (config : SessionConfig) : Except Fault Compressor :=
  match p with
  | absent => (Compressor.new config none).mapError .error
  | views w mode level _ _ =>
    match (view codecEngine codecDepth mode level w).1.map DictView.unstamped with
    | .error fault => .error fault
    | .ok v => (Compressor.new config (some v)).mapError .error

/-- A fresh decompressor. -/
def decompressor (p : Pairing) (config : SessionConfig) : Except Fault Decompressor :=
  match p with
  | absent => .ok ⟨config, none⟩
  | views _ _ _ w mode =>
    match (viewForDecompression codecEngine codecDepth mode w).1.map DictView.unstamped with
    | .error fault => .error fault
    | .ok v => .ok ⟨config, some v⟩

/-- The compressor has a prefix. -/
def takesPrefix : Pairing → Bool
  | absent => false
  | views _ mode _ _ _ => mode == .prefixed

/-- The dictionaries of both sides belong together: two handles with the same content, in whatever
state, of which both sides take a prefix, or neither does and the content can serve.  Long distance
matching is on at most without a dictionary or with a prefix. -/
def Sound (config : SessionConfig) : Pairing → Prop
  | absent => True
  | views w mode _ w' mode' =>
    ∃ content isRaw isRaw', SharedDict.Reached content isRaw w ∧ SharedDict.Reached content isRaw' w'
      ∧ (mode = .prefixed ∧ mode' = .prefixed
        ∨ mode ≠ .prefixed ∧ mode' ≠ .prefixed ∧ Usable content isRaw ∧ Usable content isRaw'
          ∧ config.usesLongDistance = false)

variable {p : Pairing} {config : SessionConfig}

/-- A view is taken unless it meets long distance matching without being a prefix. -/
private theorem new_eq {v : DictView CompressionDigest}
    (h : config.usesLongDistance = false ∨ v.mode = .prefixed) :
    Compressor.new config (some v) = .ok ⟨config, some v⟩ := by
  have hcondition : (config.usesLongDistance && v.mode != .prefixed) = false := by
    rcases h with hoff | hprefixed
    · rw [hoff, Bool.false_and]
    · rw [hprefixed]
      exact Bool.and_false _
  rw [Compressor.new]
  simp only [hcondition]
  rfl

/-- A compressor reads the dictionary that the content loads to off its view. -/
theorem dictionary_viewOf {dict : LoadedDictionary} {content : ByteArray}
    (hload : LoadedDictionary.load? content = some dict) {mode : DictMode} (level : Int32)
    (hmode : mode ≠ .prefixed) :
    Compressor.dictionary ⟨config, some (SharedDict.viewOf dict content level mode)⟩ = .ok dict := by
  cases mode with
  | digested => rfl
  | undigested => simp only [SharedDict.viewOf, Compressor.dictionary, hload]
  | prefixed => exact absurd rfl hmode

/-- A decompressor reads the same dictionary off its view, or none where the content is empty. -/
private theorem dictionary_decompressionViewOf (config : SessionConfig) {dict : LoadedDictionary}
    {content : ByteArray} (hload : LoadedDictionary.load? content = some dict) {mode : DictMode}
    (hmode : mode ≠ .prefixed) :
    ∃ given, Decompressor.dictionary
        ⟨config, some (SharedDict.decompressionViewOf dict content mode)⟩ = .ok given
      ∧ Compatible dict given := by
  cases mode with
  | digested => exact ⟨_, rfl, compatible_load hload⟩
  | undigested =>
      simp only [SharedDict.decompressionViewOf, Decompressor.dictionary, hload]
      split
      · rename_i hempty
        obtain rfl : content = ByteArray.empty := isEmpty_iff.mp hempty
        cases hload
        exact ⟨_, rfl, compatible_plain_none⟩
      · exact ⟨_, rfl, compatible_load hload⟩
  | prefixed => exact absurd rfl hmode

/-- Both sides of a prefix are plain history. -/
private theorem agree_prefixed (config config' : SessionConfig) (content : ByteArray) :
    Agree ⟨config, some (.prefixed content)⟩ ⟨config', some (.prefixed content)⟩ := by
  refine ⟨⟨_, _, rfl, rfl, ?_⟩, rfl⟩
  split
  · rename_i hempty
    rw [isEmpty_iff.mp hempty]
    exact compatible_plain_none
  · exact compatible_plain content

/-- **Sound pairings give sessions that agree.** -/
theorem Sound.agree (hp : p.Sound config) (config' : SessionConfig) :
    ∃ c d, p.compressor config = .ok c ∧ p.decompressor config' = .ok d
      ∧ d.config = config' ∧ c.hasPendingPrefix = p.takesPrefix ∧ Agree c d := by
  cases p with
  | absent => exact ⟨_, _, rfl, rfl, rfl, rfl, agree_none config config'⟩
  | views w mode level w' mode' =>
      obtain ⟨content, isRaw, isRaw', hw, hw', ⟨rfl, rfl⟩ | ⟨hmode, hmode', husable, husable', hldm⟩⟩ :=
        hp
      · obtain ⟨rfl, -⟩ := hw.sameContent
        have hcontent := hw'.sameContent.1
        refine ⟨⟨config, some (.prefixed w.handle.content)⟩,
          ⟨config', some (.prefixed w'.handle.content)⟩, ?_, rfl, rfl, rfl, ?_⟩
        · show (Compressor.new config (some (.prefixed w.handle.content))).mapError _ = _
          rw [new_eq (.inr rfl)]
          rfl
        · rw [hcontent]
          exact agree_prefixed config config' _
      · obtain ⟨dict, hload⟩ := Option.isSome_iff_exists.mp husable.2
        have hview := (hw.settled husable hload).view_eq mode level
        have hview' := (hw'.settled husable' hload).viewForDecompression_eq mode'
        rw [hw.sameContent.1] at hview
        rw [hw'.sameContent.1] at hview'
        obtain ⟨given, hgiven, hcompatible⟩ :=
          dictionary_decompressionViewOf config' hload hmode'
        refine ⟨⟨config, some (SharedDict.viewOf dict content level mode)⟩,
          ⟨config', some (SharedDict.decompressionViewOf dict content mode')⟩, ?_, ?_, rfl, ?_,
          ⟨dict, given, dictionary_viewOf hload level hmode, hgiven, hcompatible⟩, ?_⟩
        · simp only [compressor, hview, new_eq (.inl hldm)]
          rfl
        · simp only [decompressor, hview']
        · cases mode <;> rfl
        · cases mode <;> cases mode' <;> first | rfl | exact absurd rfl hmode | exact absurd rfl hmode'

/-- **Data comes back.**  Whatever the data, the content and the parameters are, both sessions of a
sound pairing are to be had, the compressor writes a frame, and the decompressor appends exactly the
data.  No data is larger than a range of memory, and the limit of the decompressor must let the data
pass. -/
theorem roundTrip (hp : p.Sound config) (config' : SessionConfig) (data : ByteArray)
    (hdata : data.size ≤ Decompressor.maxCapacity) (hlimit : data.size ≤ config'.frameLimit) :
    ∃ c d frame, p.compressor config = .ok c ∧ p.decompressor config' = .ok d
      ∧ (∀ out, c.compressFrame data out = (.ok (), c.afterFrame, out ++ frame))
      ∧ ∀ out, d.decompressFrame frame out = (.ok (), d.afterFrame, out ++ data) := by
  obtain ⟨c, d, hc, hd, hconfig, -, hagree⟩ := hp.agree config'
  obtain ⟨frame, hencode, hdecode, -⟩ := hagree.decode_encode data hdata (by rwa [hconfig])
  refine ⟨c, d, frame, hc, hd, fun out => ?_, fun out => ?_⟩
  · rw [Compressor.compressFrame, hencode]
  · rw [Decompressor.decompressFrame, hdecode]

/-- A digest on one side and raw content on the other. -/
theorem roundTrip_rawContent :
    ∃ c d frame,
      (views (.new ⟨#[1, 2, 3, 4, 5, 6, 7, 8, 9]⟩ true) .digested 3
        (.new ⟨#[1, 2, 3, 4, 5, 6, 7, 8, 9]⟩ true) .undigested).compressor .standard = .ok c
      ∧ (views (.new ⟨#[1, 2, 3, 4, 5, 6, 7, 8, 9]⟩ true) .digested 3
        (.new ⟨#[1, 2, 3, 4, 5, 6, 7, 8, 9]⟩ true) .undigested).decompressor .standard = .ok d
      ∧ (∀ out, c.compressFrame ⟨#[3, 4, 5]⟩ out = (.ok (), c.afterFrame, out ++ frame))
      ∧ ∀ out, d.decompressFrame frame out = (.ok (), d.afterFrame, out ++ ⟨#[3, 4, 5]⟩) := by
  have hp : (views (.new ⟨#[1, 2, 3, 4, 5, 6, 7, 8, 9]⟩ true) .digested 3
      (.new ⟨#[1, 2, 3, 4, 5, 6, 7, 8, 9]⟩ true) .undigested).Sound .standard :=
    ⟨⟨#[1, 2, 3, 4, 5, 6, 7, 8, 9]⟩, true, true, .new, .new, Or.inr ⟨by decide, by decide,
      usable_of_isFormatted_eq_false (by decide), usable_of_isFormatted_eq_false (by decide), rfl⟩⟩
  exact roundTrip hp .standard ⟨#[3, 4, 5]⟩ (by decide) (by decide)

end Pairing

end SharedDictionary
