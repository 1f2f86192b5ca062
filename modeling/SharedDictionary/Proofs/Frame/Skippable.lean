import SharedDictionary.Frame.Decode
import SharedDictionary.Proofs.Frame.Boundaries

/-!
# Frames to be skipped

A skippable frame has a magic number of its own, the length of its content in four octets, and content of
that length (`SkippableFrame`).  Every reader of frames passes over it: where it ends is known from its
length (`SkippableFrame.frameSize`), and it is decoded to nothing under any dictionary
(`SkippableFrame.decodeWhole_eq`).

Both hold of a frame below 2 ^ 32 octets.  The length of a longer one can be written in four octets, but
whoever looks for the end of such a frame refuses it.
-/

namespace SharedDictionary

/-- A magic number, a length, and as much content. -/
structure SkippableFrame (frame : ByteArray) : Prop where
  magic : isSkippableMagic (littleEndian frame 0 4) = true
  length : 8 + littleEndian frame 4 4 = frame.size

namespace SkippableFrame

variable {frame : ByteArray}

/-- What opens a skippable frame opens no other. -/
theorem ne_frameMagic {number : Nat} (h : isSkippableMagic number = true) : number ≠ frameMagic := by
  rintro rfl
  exact absurd h (by decide)

section Standing

variable {bytes : ByteArray} {i : Nat}

theorem magic_of_standsAt (h : SkippableFrame frame) (hstands : StandsAt bytes i frame) :
    isSkippableMagic (littleEndian bytes i 4) = true := by
  have hlength := h.length
  have hsame : littleEndian bytes i 4 = littleEndian frame 0 4 :=
    hstands.littleEndian_eq (j := 0) (by omega)
  rw [hsame]
  exact h.magic

theorem length_of_standsAt (h : SkippableFrame frame) (hstands : StandsAt bytes i frame) :
    littleEndian bytes (i + 4) 4 = littleEndian frame 4 4 := by
  have hlength := h.length
  exact hstands.littleEndian_eq (by omega)

theorem wholeHeader (h : SkippableFrame frame) (hstands : StandsAt bytes i frame) :
    WholeHeader bytes i bytes.size (.skippable (littleEndian frame 4 4)) := by
  have hlength := h.length
  have hle := hstands.le
  have hmagic := h.magic_of_standsAt hstands
  rw [← h.length_of_standsAt hstands]
  exact .skippable (ne_frameMagic hmagic) hmagic (by omega)

/-- The header of a skippable frame is read wherever the frame stands. -/
theorem headerScan (h : SkippableFrame frame) (hstands : StandsAt bytes i frame) :
    HeaderScan.read bytes i bytes.size = .ok (.skippable (littleEndian frame 4 4)) :=
  (h.wholeHeader hstands).read_eq (h.wholeHeader hstands).length_le.2

end Standing

theorem skippableSize (h : SkippableFrame frame) (hsize : frame.size < 2 ^ 32) :
    SharedDictionary.skippableSize frame 0 frame.size = .ok frame.size := by
  have hlength := h.length
  rw [SharedDictionary.skippableSize, Nat.zero_add, if_neg (by omega), if_neg (by omega)]
  exact congrArg Except.ok (by omega)

/-- Where a skippable frame ends is known from its length. -/
theorem frameSize (h : SkippableFrame frame) (hsize : frame.size < 2 ^ 32) :
    SharedDictionary.frameSize frame 0 frame.size = .ok frame.size := by
  rw [SharedDictionary.frameSize, h.headerScan (standsAt_self frame)]
  exact h.skippableSize hsize

/-- The end of a longer one is not looked for. -/
theorem frameSize_of_long (h : SkippableFrame frame) (hsize : 2 ^ 32 ≤ frame.size)
    {bytes : ByteArray} {i : Nat} (hstands : StandsAt bytes i frame) :
    SharedDictionary.frameSize bytes i bytes.size = .error .unsupportedFrameParameter := by
  have hlength := h.length
  rw [SharedDictionary.frameSize, h.headerScan hstands]
  dsimp only
  rw [SharedDictionary.skippableSize, h.length_of_standsAt hstands, if_pos (by omega)]

/-- There are such frames: one holds as many octets as its length can say. -/
theorem exists_long : ∃ frame, SkippableFrame frame ∧ 2 ^ 32 ≤ frame.size := by
  generalize hcount : 2 ^ 32 - 1 = count
  let header : ByteArray := ⟨#[0x50, 0x2A, 0x4D, 0x18, 0xFF, 0xFF, 0xFF, 0xFF]⟩
  have hstands : StandsAt (header ++ pushRun ByteArray.empty 0 count) 0 header :=
    (standsAt_append.mp (standsAt_self _)).1
  have hsize : (header ++ pushRun ByteArray.empty 0 count).size = 8 + count := by
    rw [ByteArray.size_append, size_pushRun, ByteArray.size_empty, Nat.zero_add]
    rfl
  have hmagic := hstands.littleEndian_eq (j := 0) (k := 4) (by decide)
  have hlength := hstands.littleEndian_eq (j := 4) (k := 4) (by decide)
  rw [Nat.zero_add] at hmagic hlength
  refine ⟨header ++ pushRun ByteArray.empty 0 count, ⟨?_, ?_⟩, ?_⟩
  · rw [hmagic]
    decide +kernel
  · rw [hlength, hsize, ← hcount]
    decide +kernel
  · rw [hsize]
    omega

/-- Where the end of a skippable frame is found at all, the frame is all of it. -/
theorem eq_of_frameSize (h : SkippableFrame frame) {size : Nat}
    (hsize : SharedDictionary.frameSize frame 0 frame.size = .ok size) : size = frame.size := by
  have hlength := h.length
  rw [SharedDictionary.frameSize, h.headerScan (standsAt_self frame)] at hsize
  unfold SharedDictionary.skippableSize at hsize
  dsimp only at hsize
  split at hsize
  · cases hsize
  · split at hsize
    · cases hsize
    · cases hsize
      rw [Nat.zero_add, Nat.add_comm]
      exact hlength

/-- Where a skippable frame stands, no frame to be decoded starts. -/
theorem headerScan_ne_frame (h : SkippableFrame frame) {bytes : ByteArray} {i stop : Nat}
    (hstands : StandsAt bytes i frame) (header : FrameHeader) :
    HeaderScan.read bytes i stop ≠ .ok (.frame header) := by
  intro hread
  obtain ⟨_, hneeds⟩ | hwhole := HeaderScan.read_eq_ok hread
  · cases hneeds
  · cases hwhole with
    | frame hframe _ _ _ => exact ne_frameMagic (h.magic_of_standsAt hstands) hframe

/-- **A skippable frame is decoded to nothing**, with any dictionary and into any range. -/
theorem decodeWhole_eq (h : SkippableFrame frame) (hsize : frame.size < 2 ^ 32)
    (dict : Option LoadedDictionary) (capacity : Nat) :
    decodeWhole dict frame capacity = .ok ByteArray.empty := by
  have hlength := h.length
  have hskip : skippableAt frame 0 frame.size = some (.ok frame.size) := by
    rw [skippableAt, if_pos h.magic, if_neg (by omega), h.skippableSize hsize]
  rw [decodeWhole, decodeConcatenated, if_pos (by simp only [shortestInput]; omega)]
  split
  · rename_i e hsome
    rw [hskip] at hsome
    cases hsome
  · rename_i size hsome
    rw [hskip] at hsome
    cases hsome
    rw [decodeConcatenated, if_neg (by simp only [shortestInput]; omega), if_neg (by omega)]
  · rename_i hnone
    rw [hskip] at hnone
    cases hnone

end SkippableFrame

/-- What is scanned as a skippable frame and is all there stands as one. -/
theorem skippableFrame_of_headerScan {bytes : ByteArray} {start stop length : Nat}
    (h : HeaderScan.read bytes start stop = .ok (.skippable length))
    (hfits : start + 8 + length ≤ stop) (hstop : stop ≤ bytes.size) :
    SkippableFrame (bytes.extract start (start + (8 + length))) := by
  obtain ⟨_, hneeds⟩ | hwhole := HeaderScan.read_eq_ok h
  · cases hneeds
  cases hwhole with
  | skippable hmagic hskip hsize =>
      generalize hpart : bytes.extract start (start + (8 + littleEndian bytes (start + 4) 4)) = part
      have hlength : part.size = 8 + littleEndian bytes (start + 4) 4 := by
        rw [← hpart, ByteArray.size_extract]
        omega
      have hstands : StandsAt bytes start part := ⟨by omega, by rw [hlength]; exact hpart⟩
      have hopen : littleEndian bytes start 4 = littleEndian part 0 4 :=
        hstands.littleEndian_eq (j := 0) (by omega)
      have hcount : littleEndian bytes (start + 4) 4 = littleEndian part 4 4 :=
        hstands.littleEndian_eq (j := 4) (by omega)
      refine ⟨by rw [← hopen]; exact hskip, ?_⟩
      rw [← hcount, hlength]

end SharedDictionary
