import SharedDictionary.Frame.Stream
import SharedDictionary.Proofs.Bytes.ChecksumRange
import SharedDictionary.Proofs.Frame.Boundaries

/-!
# What the decoders let pass

A frame may say two things of its content: its size, in the header, and its checksum, in the last octets.
Both decoders compare them with what they have decoded, in one go or piece by piece, and both walk over
the same blocks as whoever looks for the end of the frame.  So the octets that they compare the checksum
with are the last ones of the frame, and content that is accepted fits the frame (`FrameHeader.Fits`).

The main results are `decodeWhole_fits` and `decodeStream_fits`.
-/

namespace SharedDictionary

/-- Content is as a header and the octets in front of a position say. -/
structure FrameHeader.Fits (header : FrameHeader) (bytes : ByteArray) (next : Nat)
    (content : ByteArray) : Prop where
  size : ∀ declared, header.contentSize = some declared → content.size = declared
  checksum : header.checksum = true →
    littleEndian bytes (next - 4) 4 = Checksum.low content 0 content.size

variable {bytes : ByteArray} {start stop : Nat}

theorem blocksEnd_eq {block : BlockHeader} (hread : BlockHeader.read bytes start stop = .ok block)
    (hfits : block.endAfter start ≤ stop) :
    blocksEnd bytes start stop
      = if block.last then .ok (block.endAfter start)
        else blocksEnd bytes (block.endAfter start) stop := by
  rw [blocksEnd, hread]
  exact if_neg (Nat.not_lt.mpr hfits)

/-! ### In one go -/

/-- Blocks that are decoded end where their headers say. -/
theorem blocksEnd_of_decodeBlocks {limit blockLimit : Nat} {d : BlockDecoder}
    {window : ByteArray} {r : Nat × ByteArray}
    (h : decodeBlocks bytes stop limit blockLimit start d window = .ok r) :
    blocksEnd bytes start stop = .ok r.1 := by
  fun_induction decodeBlocks bytes stop limit blockLimit start d window with
  | case1 => cases h
  | case2 => cases h
  | case3 => cases h
  | case4 start d window block hread hfits d' window' hblock hlast =>
      cases h
      rw [blocksEnd_eq hread (Nat.not_lt.mp hfits), if_pos hlast]
  | case5 start d window block hread hfits d' window' hblock hlast ih =>
      rw [blocksEnd_eq hread (Nat.not_lt.mp hfits), if_neg hlast]
      exact ih h

theorem fits_of_checkContent {header : FrameHeader} {position next origin : Nat}
    {window : ByteArray} (h : checkContent header bytes position stop window origin = .ok next) :
    header.Fits bytes next (window.extract origin window.size)
      ∧ next = position + (if header.checksum then 4 else 0)
      ∧ (header.checksum = true → next ≤ stop) := by
  have hsize : (window.extract origin window.size).size = window.size - origin := by
    rw [ByteArray.size_extract]
    omega
  unfold checkContent at h
  dsimp only at h
  split at h
  · cases h
  · rename_i hdeclared
    have hsame : ∀ declared, header.contentSize = some declared →
        (window.extract origin window.size).size = declared := by
      intro declared hsome
      rw [hsome, Option.any_some, decide_eq_true_eq, Decidable.not_not] at hdeclared
      rw [hsize, hdeclared]
    split at h
    · rename_i hchecksum
      rw [if_pos hchecksum]
      split at h
      · cases h
      · rename_i hstop
        split at h
        · rename_i hlow
          cases h
          refine ⟨⟨hsame, fun _ => ?_⟩, rfl, fun _ => Nat.not_lt.mp hstop⟩
          rw [Nat.add_sub_cancel, hlow, Checksum.low_extract]
        · cases h
    · rename_i hchecksum
      cases h
      rw [if_neg hchecksum]
      exact ⟨⟨hsame, fun hon => absurd hon hchecksum⟩, rfl, fun hon => absurd hon hchecksum⟩

/-- A header that is read for decoding is the one that the bytes show. -/
theorem read_of_readFrameHeader {header : FrameHeader}
    (h : readFrameHeader bytes start stop = .ok header) :
    HeaderScan.read bytes start stop = .ok (.frame header) := by
  unfold readFrameHeader at h
  dsimp only at h
  split at h
  · cases h
  · rename_i hlong
    split at h
    · cases h
    · rename_i hread
      cases h
      obtain ⟨length, hneeds⟩ | hwhole := HeaderScan.read_eq_ok hread
      · cases hneeds
      · have hlength := hwhole.length_le.2
        exact hwhole.read_eq (by omega)
    · cases h

/-- **A frame that is decoded is found whole, and its content fits it.** -/
theorem decodeFrame_fits {dict : Option LoadedDictionary} {cold : Bool} {capacity : Nat}
    {r : DecodedFrame} (h : decodeFrame dict cold bytes start stop capacity = .ok r) :
    ∃ header, HeaderScan.read bytes start stop = .ok (.frame header)
      ∧ frameSize bytes start stop = .ok (r.next - start) ∧ header.Fits bytes r.next r.content := by
  unfold decodeFrame at h
  split at h
  · cases h
  · rename_i header hheader
    have hread := read_of_readFrameHeader hheader
    split at h
    · cases h
    · split at h
      rename_i history state hpoint
      split at h
      · cases h
      · rename_i position window hblocks
        have hend := blocksEnd_of_decodeBlocks hblocks
        split at h
        · cases h
        · rename_i next hcontent
          cases h
          obtain ⟨hfits, hnext, hstop⟩ := fits_of_checkContent hcontent
          have hwithin : next ≤ stop := by
            by_cases hchecksum : header.checksum = true
            · exact hstop hchecksum
            · rw [if_neg hchecksum] at hnext
              rw [hnext]
              exact (blocksEnd_le hend).2
          refine ⟨header, hread, ?_, hfits⟩
          rw [frameSize_of_blocksEnd hread hend (by rw [← hnext]; exact hwithin), ← hnext]

/-- An input that opens with a frame to be decoded is that frame, and what is decoded behind it. -/
theorem decodeWhole_of_frame {header : FrameHeader}
    (hread : HeaderScan.read bytes 0 bytes.size = .ok (.frame header))
    (dict : Option LoadedDictionary) (capacity : Nat) :
    decodeWhole dict bytes capacity
      = match decodeFrame dict dict.isSome bytes 0 bytes.size capacity with
        | .error e => .error e
        | .ok frame =>
          decodeConcatenated dict false bytes frame.next bytes.size capacity true frame.content := by
  obtain ⟨_, hneeds⟩ | hheader := HeaderScan.read_eq_ok hread
  · cases hneeds
  have hfive := hheader.length_le
  have hskip : skippableAt bytes 0 bytes.size = none := by
    cases hheader with
    | frame hmagic _ _ _ =>
        rw [skippableAt, hmagic]
        rfl
  rw [decodeWhole, decodeConcatenated, if_pos (by simp only [shortestInput]; omega)]
  split
  · rename_i hsome
    rw [hskip] at hsome
    cases hsome
  · rename_i hsome
    rw [hskip] at hsome
    cases hsome
  · rw [ByteArray.size_empty, Nat.sub_zero]
    cases decodeFrame dict dict.isSome bytes 0 bytes.size capacity with
    | error e => rfl
    | ok frame =>
        dsimp only
        rw [ByteArray.empty_append]

/-- **Content that is decoded in one go fits the frame**, if that is all there is. -/
theorem decodeWhole_fits {header : FrameHeader} {dict : Option LoadedDictionary} {capacity : Nat}
    {content : ByteArray} (hread : HeaderScan.read bytes 0 bytes.size = .ok (.frame header))
    (hwhole : frameSize bytes 0 bytes.size = .ok bytes.size)
    (h : decodeWhole dict bytes capacity = .ok content) :
    header.Fits bytes bytes.size content := by
  rw [decodeWhole_of_frame hread] at h
  split at h
  · cases h
  · rename_i frame hframe
    obtain ⟨header', hread', hsize, hfits⟩ := decodeFrame_fits hframe
    rw [hread] at hread'
    cases hread'
    -- The frame is all there is, and so nothing is decoded behind it.
    have hnext : frame.next = bytes.size := by
      rw [hwhole, Nat.sub_zero] at hsize
      exact (Except.ok.inj hsize).symm
    rw [hnext] at h hfits
    rw [decodeConcatenated, if_neg (by simp only [shortestInput]; omega),
      if_neg (Nat.lt_irrefl _)] at h
    cases h
    exact hfits

/-! ### Piece by piece -/

/-- A block that is complete is all there. -/
theorem stored_le_of_streamBlock {f : StreamFrame} {d d' : BlockDecoder} {w w' : StreamWindow}
    {block : BlockHeader} {o o' : StreamOutput}
    (h : streamBlock f d w block bytes start stop o = .ok (true, d', w', o')) :
    block.stored ≤ stop - start := by
  have hcomplete : (min block.stored (stop - start) == block.stored) = true := by
    unfold streamBlock at h
    dsimp only at h
    repeat' split at h
    all_goals first
      | cases h
      | exact congrArg (fun r => r.1) (Except.ok.inj h)
  have hmin := beq_iff_eq.mp hcomplete
  omega

/-- Blocks that are decoded piece by piece end where their headers say, and what follows them has been
looked at. -/
theorem blocksEnd_of_streamBlocks {f : StreamFrame} {d : BlockDecoder} {w : StreamWindow}
    {o : StreamOutput} {r : Nat × StreamOutput}
    (h : streamBlocks f bytes stop start d w o = .ok r) :
    ∃ last o', blocksEnd bytes start stop = .ok last ∧ f.finish bytes last stop o' = .ok r := by
  -- An empty block is skipped, and any other must be complete: both lie within the input.
  have hempty {start : Nat} {block : BlockHeader} (hheader : ¬ stop < start + BlockHeader.size)
      (hstored : block.stored = 0) : block.endAfter start ≤ stop := by
    rw [BlockHeader.endAfter, hstored]
    omega
  have hfull {start : Nat} {block : BlockHeader} (hheader : ¬ stop < start + BlockHeader.size)
      (hstored : block.stored ≤ stop - (start + BlockHeader.size)) :
      block.endAfter start ≤ stop := by
    rw [BlockHeader.endAfter]
    omega
  fun_induction streamBlocks f bytes stop start d w o with
  | case1 => cases h
  | case2 => cases h
  | case3 => cases h
  | case4 start d w o hheader block hread hlimit hstored hlast =>
      refine ⟨block.endAfter start, o, ?_, h⟩
      rw [blocksEnd_eq hread (hempty hheader hstored), if_pos hlast]
  | case5 start d w o hheader block hread hlimit hstored hlast ih =>
      obtain ⟨last, o', hend, hfinish⟩ := ih h
      refine ⟨last, o', ?_, hfinish⟩
      rw [blocksEnd_eq hread (hempty hheader hstored), if_neg hlast]
      exact hend
  | case6 => cases h
  | case7 => cases h
  | case8 start d w o hheader block hread hlimit hstored complete d' w' o' hblock hcomplete hlast =>
      obtain rfl : complete = true := by simpa using hcomplete
      refine ⟨block.endAfter start, o', ?_, h⟩
      rw [blocksEnd_eq hread (hfull hheader (stored_le_of_streamBlock hblock)), if_pos hlast]
  | case9 start d w o hheader block hread hlimit hstored complete d' w' o' hblock hcomplete hlast
      ih =>
      obtain rfl : complete = true := by simpa using hcomplete
      obtain ⟨last, o', hend, hfinish⟩ := ih h
      refine ⟨last, o', ?_, hfinish⟩
      rw [blocksEnd_eq hread (hfull hheader (stored_le_of_streamBlock hblock)), if_neg hlast]
      exact hend

/-- A frame that is finished has been looked at up to its end, and its content fits the checksum. -/
theorem fits_of_finish {f : StreamFrame} {position : Nat} {o : StreamOutput}
    {r : Nat × StreamOutput} (hposition : position ≤ stop)
    (h : f.finish bytes position stop o = .ok r) :
    r = (position + (if f.header.checksum then 4 else 0), o) ∧ r.1 ≤ stop
      ∧ (f.header.checksum = true →
        littleEndian bytes position 4 = Checksum.low o.bytes f.origin (o.bytes.size - f.origin)) := by
  unfold StreamFrame.finish at h
  split at h
  · rename_i hchecksum
    rw [if_pos hchecksum]
    split at h
    · cases h
    · rename_i hlong
      split at h
      · rename_i hlow
        cases h
        exact ⟨rfl, Nat.not_lt.mp hlong, fun _ => hlow⟩
      · cases h
  · rename_i hchecksum
    cases h
    rw [if_neg hchecksum]
    exact ⟨rfl, hposition, fun hon => absurd hon hchecksum⟩

/-- A frame that goes through buffers is looked at up to its end, and its content fits the checksum. -/
theorem fits_of_streamDataFrame {header : FrameHeader} {dict : Option LoadedDictionary} {cold : Bool}
    {buffers : StreamBuffers} {o : StreamOutput} {step : StreamStep}
    (hdirect : inOneGo header bytes start stop o = none)
    (h : streamDataFrame dict cold header bytes start stop buffers o = .ok step) :
    ∃ last, blocksEnd bytes (start + header.size) stop = .ok last
      ∧ step.next = last + (if header.checksum then 4 else 0) ∧ step.next ≤ stop
      ∧ (header.checksum = true → littleEndian bytes last 4
        = Checksum.low step.output.bytes o.bytes.size
            (step.output.bytes.size - o.bytes.size)) := by
  simp only [streamDataFrame, hdirect] at h
  split at h
  · cases h
  · split at h
    · cases h
    · split at h
      · cases h
      · rename_i next o' hblocks
        cases h
        obtain ⟨last, o'', hlast, hfinish⟩ := blocksEnd_of_streamBlocks hblocks
        obtain ⟨hresult, hwithin, hchecksum⟩ := fits_of_finish (blocksEnd_le hlast).2 hfinish
        cases hresult
        exact ⟨last, hlast, rfl, hwithin, hchecksum⟩

/-- **Content that is decoded piece by piece fits the frame**, if that is all there is and declares no
size. -/
theorem decodeStream_fits {header : FrameHeader} {dict : Option LoadedDictionary} {once : Bool}
    {max : Nat} {content : ByteArray}
    (hread : HeaderScan.read bytes 0 bytes.size = .ok (.frame header))
    (hdeclared : header.contentSize = none)
    (hwhole : frameSize bytes 0 bytes.size = .ok bytes.size)
    (h : decodeStream dict once bytes max = .ok content) :
    header.Fits bytes bytes.size content := by
  obtain ⟨last, hlast, hend⟩ := blocksEnd_of_frameSize hread hwhole
  rw [decodeStream, streamFrames] at h
  split at h
  · cases h
  · split at h
    · cases h
    · rename_i step hstep
      rw [streamFrame, hread] at hstep
      have hdirect : inOneGo header bytes 0 bytes.size ⟨ByteArray.empty, max⟩ = none := by
        rw [inOneGo, hdeclared]
      obtain ⟨last', hlast', hnext, -, hchecksum⟩ := fits_of_streamDataFrame hdirect hstep
      rw [hlast] at hlast'
      cases hlast'
      rw [if_pos (by omega)] at h
      cases h
      refine ⟨fun declared hsome => ?_, fun hon => ?_⟩
      · rw [hdeclared] at hsome
        cases hsome
      · rw [if_pos hon] at hend
        rw [show bytes.size - 4 = last by omega]
        exact hchecksum hon

end SharedDictionary
