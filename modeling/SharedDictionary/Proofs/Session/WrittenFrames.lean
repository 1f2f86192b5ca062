import SharedDictionary.Frame.Summary
import SharedDictionary.Proofs.Frame.Boundaries
import SharedDictionary.Proofs.Session.Identifiers

/-!
# What the frames of a compressor show

Whatever a compressor is given to write, and however it was configured, its frames show the same things
of themselves: the magic number, the size of the content, the identifier of the dictionary and, if the
session asks for it, the checksum of the content.  Where they end is found from the headers of their
blocks.

The identifier is that of the handle whose view the compressor holds (`Compressor.Naming`).  A prefix has
none, even if its bytes are those of a formatted dictionary.

The main result is `Compressor.compressFrame_summary`.
-/

namespace SharedDictionary

/-- **What a frame that is written shows of itself.** -/
theorem FrameSummary.of_encodeFrame {dict : LoadedDictionary} (checksum : Bool)
    {content : ByteArray} (hsize : content.size < 2 ^ 64 - 1) (hid : dict.id < 2 ^ 32) :
    FrameSummary.of (encodeFrame dict checksum content)
      = { magic := pushLittleEndian ByteArray.empty frameMagic 4
          whole := true
          contentSize := some content.size
          dictId := dict.id
          checksum :=
            if checksum then
              some (pushLittleEndian ByteArray.empty (Checksum.low content 0 content.size) 4)
            else none } := by
  have hstands := standsAt_self (encodeFrame dict checksum content)
  have hstop : 0 + (encodeFrame dict checksum content).size
      ≤ (encodeFrame dict checksum content).size := Nat.le_of_eq (Nat.zero_add _)
  have hmagic := (standsAt_magic_encodeFrame dict checksum content).extract_eq
  rw [size_pushLittleEndian, ByteArray.size_empty, Nat.zero_add, Nat.zero_add] at hmagic
  rw [FrameSummary.of, frameSize_encodeFrame hstands hsize hid hstop,
    HeaderScan.read_encodeFrame hstands hsize hid hstop]
  simp only [contentSize_writtenHeader, dictId_writtenHeader, beq_self_eq_true, hmagic]
  rw [checksum_writtenHeader]
  cases checksum with
  | false => rw [if_neg Bool.false_ne_true, if_neg Bool.false_ne_true]
  | true =>
      have hend := standsAt_trailer_encodeFrame dict content
      have hlong := hend.le
      have hextract := hend.extract_eq
      rw [size_pushLittleEndian, ByteArray.size_empty, Nat.zero_add] at hlong hextract
      rw [Nat.sub_add_cancel (Nat.le_trans (Nat.le_add_left 4 _) hlong)] at hextract
      rw [if_pos rfl, if_pos rfl, hextract]

namespace Compressor

/-- What a compressor can hold, and the identifier that its frames name. -/
inductive Naming : Option (DictView CompressionDigest) → Nat → Prop
  /-- No dictionary. -/
  | absent : Naming none 0
  /-- A prefix, whatever it contains. -/
  | pending (content : ByteArray) : Naming (some (.prefixed content)) 0
  /-- A view of a handle, digested or not, whatever was asked of the handle before. -/
  | loaded {content : ByteArray} {isRaw : Bool} {w : SharedDict} {mode : DictMode} {level : Int32}
      {v : DictView CompressionDigest} (hw : SharedDict.Reached content isRaw w)
      (hmode : mode ≠ .prefixed)
      (hview : (view codecEngine codecDepth mode level w).1.map DictView.unstamped = .ok v) :
      Naming (some v) w.handle.dictId

/-- A view that is digested or not is loaded from the content of its handle. -/
theorem load?_of_view {content : ByteArray} {isRaw : Bool} {w : SharedDict} {mode : DictMode}
    {level : Int32} {v : DictView CompressionDigest} (hw : SharedDict.Reached content isRaw w)
    (hmode : mode ≠ .prefixed)
    (hview : (view codecEngine codecDepth mode level w).1.map DictView.unstamped = .ok v)
    {config : SessionConfig} {dict : LoadedDictionary}
    (hdict : dictionary ⟨config, some v⟩ = .ok dict) :
    LoadedDictionary.load? w.handle.content = some dict := by
  have hcomes := (hw.faithful.view_eq 0 mode level).symm.trans hview
  cases mode with
  | digested =>
      simp only [viewOutcome, digestOutcome, buildDigest] at hcomes
      rcases hcheck : checkFormat w.handle.content w.handle.isRaw with e | ⟨⟨⟩⟩
      · rw [hcheck] at hcomes
        cases hcomes
      · rw [hcheck] at hcomes
        rcases hload : LoadedDictionary.load? w.handle.content with _ | loaded
        · rw [hload] at hcomes
          cases hcomes
        · rw [hload] at hcomes
          cases hcomes
          cases hdict
          rfl
  | undigested =>
      simp only [viewOutcome] at hcomes
      rcases hcheck : checkFormat w.handle.content w.handle.isRaw with e | ⟨⟨⟩⟩
      · rw [hcheck] at hcomes
        cases hcomes
      · rw [hcheck] at hcomes
        cases hcomes
        rcases hload : LoadedDictionary.load? w.handle.content with _ | loaded
        · simp only [dictionary, hload] at hdict
          cases hdict
        · simp only [dictionary, hload] at hdict
          cases hdict
          rfl
  | prefixed => exact absurd rfl hmode

/-- **The dictionary of the next frame has the identifier that the frame is to name.** -/
theorem Naming.id_eq {held : Option (DictView CompressionDigest)} {id : Nat} (h : Naming held id)
    {config : SessionConfig} {dict : LoadedDictionary} (hdict : dictionary ⟨config, held⟩ = .ok dict) :
    dict.id = id ∧ dict.id < 2 ^ 32 := by
  cases h with
  | absent =>
      cases hdict
      exact ⟨rfl, by decide⟩
  | pending content =>
      cases hdict
      exact ⟨rfl, Nat.two_pow_pos 32⟩
  | loaded hw hmode hview =>
      have hload := load?_of_view hw hmode hview hdict
      exact ⟨LoadedDictionary.id_of_load? hload, (compatible_load hload).id_lt⟩

/-- **Every frame shows what it holds.**  Whatever a compressor holds that can be loaded, and however it is
configured, it writes any data into one frame.  The frame opens with the magic number, and the headers of
its blocks lead exactly to its end; it declares the size of the data and names the dictionary of the
session; and the checksum of the data follows the last block if the session asks for it, and nothing does
otherwise.  No data is larger than a range of memory. -/
theorem compressFrame_summary {config : SessionConfig}
    {held : Option (DictView CompressionDigest)} {id : Nat} (hheld : Naming held id)
    {c : Compressor} (hnew : Compressor.new config held = .ok c) {dict : LoadedDictionary}
    (hdict : c.dictionary = .ok dict) (data : ByteArray)
    (hdata : data.size ≤ Decompressor.maxCapacity) :
    ∃ frame, (∀ out, c.compressFrame data out = (.ok (), c.afterFrame, out ++ frame))
      ∧ FrameSummary.of frame
        = { magic := ⟨#[0x28, 0xB5, 0x2F, 0xFD]⟩
            whole := true
            contentSize := some data.size
            dictId := id
            checksum :=
              if config.usesChecksum then
                some (pushLittleEndian ByteArray.empty (Checksum.low data 0 data.size) 4)
              else none }
      ∧ ∃ header, HeaderScan.read frame 0 frame.size = .ok (.frame header)
        ∧ blocksEnd frame header.size frame.size
          = .ok (frame.size - if config.usesChecksum then 4 else 0) := by
  have hsize : data.size < 2 ^ 64 - 1 := by
    simp only [Decompressor.maxCapacity] at hdata
    omega
  obtain rfl := eq_of_new_eq_ok hnew
  obtain ⟨hid, hlt⟩ := hheld.id_eq hdict
  have hstands := standsAt_self (encodeFrame dict config.usesChecksum data)
  have hread := HeaderScan.read_encodeFrame hstands hsize hlt (Nat.le_of_eq (Nat.zero_add _))
  refine ⟨encodeFrame dict config.usesChecksum data, fun out => ?_, ?_, _, hread, ?_⟩
  · rw [compressFrame, encode, hdict]
    rfl
  · rw [FrameSummary.of_encodeFrame config.usesChecksum hsize hlt, hid]
    rfl
  · obtain ⟨last, hlast, hend⟩ := blocksEnd_of_frameSize hread
      (frameSize_encodeFrame hstands hsize hlt (Nat.le_of_eq (Nat.zero_add _)))
    rw [checksum_writtenHeader, Nat.zero_add] at hend
    rw [Nat.zero_add] at hlast
    rw [hlast, hend, Nat.add_sub_cancel]

/-- A digest of the smallest tables, and a checksum. -/
theorem compressFrame_summary_digested :
    let content : ByteArray := ⟨#[0x37, 0xA4, 0x30, 0xEC, 1, 0, 0, 0, 0x80, 0x10, 0xE0, 0x0F, 0xE0,
      0x0F, 0xE0, 0x0F, 1, 0, 0, 0, 1, 0, 0, 0, 1, 0, 0, 0, 97, 98, 99, 100, 101, 102, 103, 104]⟩
    ∃ v c dict frame, (view codecEngine codecDepth .digested 3 (SharedDict.new content false)).1.map
          DictView.unstamped = .ok v
      ∧ Compressor.new .standard (some v) = .ok c ∧ c.dictionary = .ok dict
      ∧ (∀ out, c.compressFrame ⟨#[104, 105]⟩ out = (.ok (), c.afterFrame, out ++ frame))
      ∧ FrameSummary.of frame
        = { magic := ⟨#[0x28, 0xB5, 0x2F, 0xFD]⟩
            whole := true
            contentSize := some 2
            dictId := 1
            checksum :=
              some (pushLittleEndian ByteArray.empty (Checksum.low ⟨#[104, 105]⟩ 0 2) 4) } := by
  intro content
  have husable : Usable content false := usable_iff_checkFormat.mpr (by decide +kernel)
  have hid : (SharedDict.new content false).handle.dictId = 1 := by decide +kernel
  obtain ⟨dict, hload⟩ := Option.isSome_iff_exists.mp husable.2
  have hview := (SharedDict.Reached.new.settled husable hload).view_eq .digested 3
  have hheld := Naming.loaded SharedDict.Reached.new (show DictMode.digested ≠ .prefixed by decide)
    hview
  rw [hid] at hheld
  obtain ⟨frame, hframe, hsummary, -⟩ :=
    compressFrame_summary hheld (show Compressor.new .standard _ = .ok _ from rfl) rfl
      ⟨#[104, 105]⟩ (by decide)
  exact ⟨_, _, _, frame, hview, rfl, rfl, hframe, hsummary⟩

end Compressor

end SharedDictionary
