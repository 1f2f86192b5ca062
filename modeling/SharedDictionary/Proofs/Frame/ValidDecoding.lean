import SharedDictionary.Proofs.Frame.Validity

/-!
# Both decoders decode valid frames

A valid frame holds its content whatever it is decoded into.  One range with room for the content keeps all of
it and the dictionary in front, so that every block finds what it copies from (`decodeBlocks_of_holds`).  A
buffer forgets: when another block might not fit it starts over, and the dictionary and all but the last of the
content are out of reach.  It is large enough for that to happen only behind a whole window, and a window is
what is left (`Retains.wrap`).

So the two decoders agree, but for one thing.  The output of a stream is refused as soon as it would exceed its
limit, and a limit of nothing is reached before the first frame is looked at.

The main results are `ValidFrame.decodeWhole_eq` and `ValidFrame.decodeStream_eq`.
-/

namespace SharedDictionary

open SharedDictionary.Entropy

variable {header : FrameHeader} {frame history : ByteArray} {start last : Nat} {state : CodingState}
  {done content : ByteArray}

/-- A block that holds some content appends it to every window that ends with what the block may copy from, if
there is room for it. -/
theorem HoldsBlock.decodeBlock_eq {reach : ByteArray} {block : BlockHeader} {state' : CodingState}
    {added window : ByteArray} (h : HoldsBlock header frame start reach state block state' added)
    (hwindow : EndsWith window reach) (room : Nat) (hroom : added.size ≤ room) (whole cold : Bool) :
    ∃ cold', decodeBlock ⟨room, header.blockLimit, whole⟩ ⟨state, cold⟩ window block frame
        (start + BlockHeader.size) = .ok (⟨state', cold'⟩, window ++ added) := by
  obtain ⟨before, rfl⟩ := hwindow
  obtain ⟨cold', hblock⟩ := h.content
  rw [ByteArray.append_assoc]
  exact decodeBlock_widen ⟨room, header.blockLimit, whole⟩ h.size hroom before cold hblock

/-! ### In one go -/

/-- A block that holds some content is decoded in front of the others. -/
theorem decodeBlocks_of_holdsBlock {reach : ByteArray} {block : BlockHeader} {state' : CodingState}
    {added window : ByteArray} (h : HoldsBlock header frame start reach state block state' added)
    (hwindow : EndsWith window reach) (limit : Nat) (hroom : window.size + added.size ≤ limit)
    (cold : Bool) :
    ∃ cold', decodeBlocks frame frame.size limit header.blockLimit start ⟨state, cold⟩ window
      = if block.last then .ok (block.endAfter start, window ++ added)
        else decodeBlocks frame frame.size limit header.blockLimit (block.endAfter start) ⟨state', cold'⟩
          (window ++ added) := by
  obtain ⟨cold', hdecode⟩ := h.decodeBlock_eq hwindow (limit - window.size) (by omega) true cold
  refine ⟨cold', ?_⟩
  rw [decodeBlocks, h.read]
  dsimp only
  rw [if_neg (Nat.not_lt.mpr h.inside), hdecode]

/-- **Blocks that hold some content are decoded to it** in a range that keeps everything and has room for it. -/
theorem decodeBlocks_of_holds (h : HoldsBlocks header frame history start state done last content)
    (cold : Bool) :
    decodeBlocks frame frame.size (history.size + content.size) header.blockLimit start ⟨state, cold⟩
        (history ++ done) = .ok (last, history ++ content) := by
  -- The window is all there is, and so it ends with whatever the next block may copy from.
  induction h generalizing cold with
  | @last start state state' done added block hblock hlast =>
      obtain ⟨cold', hstep⟩ := decodeBlocks_of_holdsBlock hblock (header.endsWith_reach history done)
        (history.size + (done ++ added).size)
        (by simp only [ByteArray.size_append]; omega) cold
      rw [hstep, if_pos hlast, ByteArray.append_assoc]
  | @more start last state state' done added content block hblock hlast rest ih =>
      have hle := rest.size_le
      rw [ByteArray.size_append] at hle
      obtain ⟨cold', hstep⟩ := decodeBlocks_of_holdsBlock hblock (header.endsWith_reach history done)
        (history.size + content.size) (by rw [ByteArray.size_append]; omega) cold
      rw [hstep, if_neg (by rw [hlast]; exact Bool.false_ne_true), ByteArray.append_assoc]
      exact ih cold'

/-- A header that the bytes show is read for decoding, if a block header can follow. -/
theorem readFrameHeader_of_read {bytes : ByteArray} {start stop : Nat}
    (h : HeaderScan.read bytes start stop = .ok (.frame header))
    (hfits : start + header.size + BlockHeader.size ≤ stop) :
    readFrameHeader bytes start stop = .ok header := by
  obtain ⟨_, hneeds⟩ | hwhole := HeaderScan.read_eq_ok h
  · cases hneeds
  have hread := hwhole.read_eq (Nat.le_refl (start + header.size))
  cases hwhole with
  | frame hmagic hsize hlength hfields =>
      have hlength := FrameHeader.size_of_readFields hfields
      -- A header has a window size or a content size.
      have hsix : 6 ≤ FrameHeader.lengthOf (byteAt bytes (start + 4)) := by
        unfold FrameHeader.lengthOf FrameHeader.windowLength FrameHeader.contentSizeLength
        split <;> split <;> omega
      simp only [BlockHeader.size] at hfits
      unfold readFrameHeader
      dsimp only
      rw [if_neg (by simp only [BlockHeader.size]; omega), ← hlength, hread]

theorem HoldsBlocks.start_le (h : HoldsBlocks header frame history start state done last content) :
    start + BlockHeader.size ≤ frame.size := by
  cases h with
  | last hblock hlast =>
      have hinside := hblock.inside
      unfold BlockHeader.endAfter at hinside
      omega
  | more hblock hlast rest =>
      have hinside := hblock.inside
      unfold BlockHeader.endAfter at hinside
      omega

namespace ValidFrame

variable {dict : Option LoadedDictionary}

/-- What the end of a valid frame says of its content is found to be so. -/
theorem checkContent_eq (h : ValidFrame dict frame header content)
    (hend : frame.size = last + (if header.checksum then 4 else 0)) (history : ByteArray) :
    checkContent header frame last frame.size (history ++ content) history.size = .ok frame.size := by
  have hlength : (history ++ content).size - history.size = content.size := by
    rw [ByteArray.size_append]
    omega
  have hsize : header.contentSize.any (· ≠ content.size) = false := by
    cases hdeclared : header.contentSize with
    | none => rfl
    | some declared => simp [h.fits.size declared hdeclared]
  unfold checkContent
  dsimp only
  rw [hlength, hsize, if_neg Bool.false_ne_true]
  cases hchecksum : header.checksum with
  | false =>
      rw [hchecksum, if_neg Bool.false_ne_true, Nat.add_zero] at hend
      rw [if_neg Bool.false_ne_true, hend]
  | true =>
      rw [hchecksum, if_pos rfl] at hend
      have hlow := h.fits.checksum hchecksum
      have hbehind := Checksum.low_extract (history ++ content) history.size
      rw [hlength, ByteArray.extract_append_eq_right rfl ByteArray.size_append] at hbehind
      have hplace : last = frame.size - 4 := by omega
      rw [if_pos rfl, if_neg (by omega), hplace, if_pos (hlow.trans hbehind.symm)]
      exact congrArg Except.ok (by omega)

theorem readFrameHeader_eq (h : ValidFrame dict frame header content) :
    readFrameHeader frame 0 frame.size = .ok header := by
  obtain ⟨last, hblocks, -⟩ := h.blocks
  exact readFrameHeader_of_read h.opens (by rw [Nat.zero_add]; exact hblocks.start_le)

theorem decodeFrame_eq (h : ValidFrame dict frame header content) (cold : Bool) :
    decodeFrame dict cold frame 0 frame.size content.size = .ok ⟨frame.size, content⟩ := by
  obtain ⟨last, hblocks, hend⟩ := h.blocks
  have hdecode := decodeBlocks_of_holds hblocks cold
  rw [ByteArray.append_empty] at hdecode
  unfold decodeFrame
  rw [h.readFrameHeader_eq]
  dsimp only
  rw [h.dictionary]
  dsimp only
  rw [Nat.zero_add, hdecode]
  dsimp only
  rw [h.checkContent_eq hend]
  dsimp only
  rw [ByteArray.extract_append_eq_right rfl ByteArray.size_append]

/-- **A valid frame is decoded in one go to its content.** -/
theorem decodeWhole_eq (h : ValidFrame dict frame header content) :
    decodeWhole dict frame content.size = .ok content := by
  rw [decodeWhole_of_frame h.opens, h.decodeFrame_eq]
  dsimp only
  rw [decodeConcatenated, if_neg (by simp only [shortestInput]; omega), if_neg (Nat.lt_irrefl _)]

end ValidFrame

/-! ### Piece by piece -/

/-- A compressed block is not empty and not longer than a block may be. -/
theorem length_of_decodeCompressed {space : BlockSpace} {d : BlockDecoder}
    {bytes window : ByteArray} {start stop : Nat} {r : BlockDecoder × ByteArray}
    (h : decodeCompressed space d window bytes start stop = .ok r) :
    start < stop ∧ stop - start ≤ space.blockLimit := by
  unfold decodeCompressed at h
  simp only [check_eq_ok_iff, bind_eq_ok_iff] at h
  obtain ⟨hshort, literals, hliterals, -⟩ := h
  unfold Literals.read at hliterals
  split at hliterals
  · cases hliterals
  · omega

namespace HoldsBlock

variable {reach : ByteArray} {block : BlockHeader} {state' : CodingState} {added : ByteArray}

/-- Blocks are stored in no more octets than they may hold. -/
theorem stored_le (h : HoldsBlock header frame start reach state block state' added)
    (hlimit : 0 < header.blockLimit) : block.stored ≤ header.blockLimit := by
  obtain ⟨cold, hcontent⟩ := h.content
  have hsize := h.size
  unfold BlockHeader.stored
  unfold decodeBlock at hcontent
  cases hkind : block.kind with
  | raw =>
      rw [hkind] at hcontent
      dsimp only at hcontent ⊢
      split at hcontent
      · cases hcontent
      · omega
  | run => exact hlimit
  | compressed =>
      rw [hkind] at hcontent
      have hlength := (length_of_decodeCompressed hcontent).2
      dsimp only at hlength ⊢
      omega

/-- A block that is stored in nothing holds nothing. -/
theorem eq_of_stored (h : HoldsBlock header frame start reach state block state' added)
    (hstored : block.stored = 0) : state' = state ∧ added = ByteArray.empty := by
  obtain ⟨cold, hcontent⟩ := h.content
  unfold BlockHeader.stored at hstored
  unfold decodeBlock at hcontent
  cases hkind : block.kind with
  | raw =>
      rw [hkind] at hcontent hstored
      dsimp only at hcontent hstored
      rw [if_neg (by omega), hstored, pushRange, Nat.add_zero, ByteArray.extract_same,
        ByteArray.append_empty] at hcontent
      obtain ⟨hstate, hadded⟩ := Prod.mk.inj (Except.ok.inj hcontent)
      have hsize := congrArg ByteArray.size hadded
      rw [ByteArray.size_append] at hsize
      exact ⟨(congrArg BlockDecoder.state hstate).symm, ByteArray.size_eq_zero_iff.mp (by omega)⟩
  | run =>
      rw [hkind] at hstored
      cases hstored
  | compressed =>
      rw [hkind] at hcontent hstored
      have hlength := (length_of_decodeCompressed hcontent).1
      dsimp only at hstored
      omega

end HoldsBlock

/-- What a buffer has not forgotten: everything, or more than a window of content.  It has room for another
block. -/
structure Retains (f : StreamFrame) (history done : ByteArray) (w : StreamWindow) : Prop where
  segment_le : w.segment ≤ w.bytes.size
  room : w.bytes.size - w.segment + f.header.blockLimit ≤ f.buffer
  kept : (w.bytes = history ++ done ∧ w.segment = history.size)
    ∨ (EndsWith done w.bytes ∧ f.header.windowSize < w.bytes.size)

namespace Retains

variable {f : StreamFrame} {w : StreamWindow}

theorem initial (history : ByteArray) (hbuffer : f.header.blockLimit ≤ f.buffer) :
    Retains f history ByteArray.empty ⟨history, history.size⟩ := by
  refine ⟨Nat.le_refl _, ?_, .inl ⟨ByteArray.append_empty.symm, rfl⟩⟩
  dsimp only
  omega

/-- A buffer still holds what the next block may copy from. -/
theorem endsWith_reach (h : Retains f history done w) :
    EndsWith w.bytes (f.header.reach history done) := by
  obtain ⟨hall, -⟩ | ⟨hend, hwindow⟩ := h.kept
  · rw [hall]
    exact f.header.endsWith_reach history done
  · have hsize := hend.size_le
    unfold FrameHeader.reach
    rw [if_neg (by omega)]
    refine hend.of_le (.extract done _) ?_
    rw [ByteArray.size_extract]
    omega

/-- **A buffer starts over only behind a whole window.** -/
theorem wrap (h : Retains f history done w) (hdeclared : f.header.contentSize = none)
    (hbuffer : f.header.windowSize + f.header.blockLimit ≤ f.buffer) (added : ByteArray) :
    Retains f history (done ++ added) (f.wrap ⟨w.bytes ++ added, w.segment⟩) := by
  have hsegment := h.segment_le
  unfold StreamFrame.wrap
  dsimp only
  rw [hdeclared, Option.all_none, Bool.true_and]
  by_cases hfull : f.buffer < (w.bytes ++ added).size - w.segment + f.header.blockLimit
  · -- What is kept is all that was written since the buffer last started over: more than a window.
    rw [if_pos (decide_eq_true hfull)]
    have hkept : ((w.bytes ++ added).extract w.segment (w.bytes ++ added).size).size
        = (w.bytes ++ added).size - w.segment := by
      rw [ByteArray.size_extract]
      omega
    refine ⟨Nat.le_refl _, by dsimp only; omega, .inr ⟨?_, by dsimp only; omega⟩⟩
    obtain ⟨hall, hstart⟩ | ⟨hend, -⟩ := h.kept
    · rw [hall, hstart, ByteArray.append_assoc,
        ByteArray.extract_append_eq_right rfl ByteArray.size_append]
      exact .refl _
    · exact (hend.append added).trans (.extract _ _)
  · rw [if_neg (by simpa using hfull)]
    refine ⟨?_, by dsimp only; omega, ?_⟩
    · show w.segment ≤ (w.bytes ++ added).size
      rw [ByteArray.size_append]
      omega
    · obtain ⟨hall, hstart⟩ | ⟨hend, hwindow⟩ := h.kept
      · exact .inl ⟨by rw [hall, ByteArray.append_assoc], hstart⟩
      · refine .inr ⟨hend.append added, ?_⟩
        rw [ByteArray.size_append]
        omega

end Retains

section Streaming

variable {f : StreamFrame} {w : StreamWindow} {max : Nat} (hdeclared : f.header.contentSize = none)
  (hbuffer : f.header.windowSize + f.header.blockLimit ≤ f.buffer)

include hdeclared hbuffer

/-- A block that holds some content is flushed to an output, if that may grow so far. -/
theorem streamBlock_of_holdsBlock {block : BlockHeader} {state' : CodingState} {added : ByteArray}
    (h : HoldsBlock f.header frame start (f.header.reach history done) state block state' added)
    (hretains : Retains f history done w) (hstored : block.stored ≠ 0) (hmax : done.size ≤ max)
    (cold : Bool) :
    ∃ cold' w', Retains f history (done ++ added) w'
      ∧ streamBlock f ⟨state, cold⟩ w block frame (start + BlockHeader.size) frame.size ⟨done, max⟩
        = if max < (done ++ added).size then .error .limit
          else .ok (true, ⟨state', cold'⟩, w', ⟨done ++ added, max⟩) := by
  have hroom := hretains.room
  have hadded := h.size
  have hinside := h.inside
  unfold BlockHeader.endAfter at hinside
  obtain ⟨cold', hdecode⟩ := h.decodeBlock_eq hretains.endsWith_reach
    (f.buffer - (w.bytes.size - w.segment)) (by omega) false cold
  have hcomplete : min block.stored (frame.size - (start + BlockHeader.size)) = block.stored := by
    omega
  unfold streamBlock
  dsimp only
  rw [hcomplete, beq_self_eq_true, if_neg (by simp [hstored]), if_pos rfl, hdecode]
  dsimp only
  have hgrown : (w.bytes ++ added).size - w.bytes.size = added.size := by
    rw [ByteArray.size_append, Nat.add_sub_cancel_left]
  rw [hgrown, if_neg (Nat.not_lt.mpr hadded), hdeclared, Option.any_none, Bool.and_false,
    if_neg Bool.false_ne_true]
  -- Where nothing was added nothing is flushed, and the buffer stays as it is.
  by_cases hempty : (w.bytes ++ added).size = w.bytes.size
  · have hnothing : added = ByteArray.empty := ByteArray.size_eq_zero_iff.mp (by omega)
    subst hnothing
    rw [if_pos hempty, ByteArray.append_empty, ByteArray.append_empty]
    exact ⟨cold', w, hretains, (if_neg (Nat.not_lt.mpr hmax)).symm⟩
  · rw [if_neg hempty]
    refine ⟨cold', _, hretains.wrap hdeclared hbuffer added, ?_⟩
    unfold StreamOutput.flush
    dsimp only
    rw [hgrown, ByteArray.size_append]
    by_cases hfull : max < done.size + added.size
    · rw [if_pos hfull, if_pos hfull]
    · have hpushed : pushRange done (w.bytes ++ added) w.bytes.size added.size = done ++ added := by
        rw [pushRange, ByteArray.extract_append_eq_right rfl rfl]
      rw [if_neg hfull, if_neg hfull, hpushed]

/-- A block that holds some content is decoded in front of the others, if the output may grow so far. -/
theorem streamBlocks_of_holdsBlock {block : BlockHeader} {state' : CodingState} {added : ByteArray}
    (h : HoldsBlock f.header frame start (f.header.reach history done) state block state' added)
    (hretains : Retains f history done w) (hlimit : 0 < f.header.blockLimit) (hmax : done.size ≤ max)
    (cold : Bool) :
    ∃ cold' w', Retains f history (done ++ added) w'
      ∧ streamBlocks f frame frame.size start ⟨state, cold⟩ w ⟨done, max⟩
        = if max < (done ++ added).size then .error .limit
          else if block.last then f.finish frame (block.endAfter start) frame.size ⟨done ++ added, max⟩
          else streamBlocks f frame frame.size (block.endAfter start) ⟨state', cold'⟩ w'
            ⟨done ++ added, max⟩ := by
  have hinside := h.inside
  unfold BlockHeader.endAfter at hinside
  rw [streamBlocks, if_neg (by omega), h.read]
  dsimp only
  rw [if_neg (Nat.not_lt.mpr (h.stored_le hlimit))]
  by_cases hstored : block.stored = 0
  · obtain ⟨rfl, rfl⟩ := h.eq_of_stored hstored
    rw [if_pos hstored, ByteArray.append_empty]
    exact ⟨cold, w, hretains, (if_neg (Nat.not_lt.mpr hmax)).symm⟩
  · obtain ⟨cold', w', hretains', hblock⟩ :=
      streamBlock_of_holdsBlock hdeclared hbuffer h hretains hstored hmax cold
    rw [if_neg hstored, hblock]
    refine ⟨cold', w', hretains', ?_⟩
    by_cases hfull : max < (done ++ added).size
    · rw [if_pos hfull, if_pos hfull]
    · rw [if_neg hfull, if_neg hfull]
      rfl

/-- **Blocks that hold some content are decoded to it** through a buffer, if the output may grow so far. -/
theorem streamBlocks_of_holds
    (h : HoldsBlocks f.header frame history start state done last content)
    (hretains : Retains f history done w) (hlimit : 0 < f.header.blockLimit) (hmax : done.size ≤ max)
    (cold : Bool) :
    streamBlocks f frame frame.size start ⟨state, cold⟩ w ⟨done, max⟩
      = if max < content.size then .error .limit
        else f.finish frame last frame.size ⟨content, max⟩ := by
  -- What the buffer retains is carried from block to block; an output that is full ends the run.
  induction h generalizing cold w with
  | last hblock hlast =>
      obtain ⟨cold', w', -, hstep⟩ :=
        streamBlocks_of_holdsBlock hdeclared hbuffer hblock hretains hlimit hmax cold
      rw [hstep, if_pos hlast]
  | more hblock hlast rest ih =>
      obtain ⟨cold', w', hretains', hstep⟩ :=
        streamBlocks_of_holdsBlock hdeclared hbuffer hblock hretains hlimit hmax cold
      have hle := rest.size_le
      rw [hstep]
      split
      · rw [if_pos (by omega)]
      · rw [if_neg (by rw [hlast]; exact Bool.false_ne_true)]
        exact ih hretains' (by omega) cold'

end Streaming

/-- A size is not declared if there is no field for it, or if the field has its greatest value. -/
theorem contentSizeOf_eq_none {length value : Nat}
    (h : FrameHeader.contentSizeOf length value = none) :
    length = 0 ∨ length ≠ 2 ∧ value = 2 ^ 64 - 1 := by
  unfold FrameHeader.contentSizeOf at h
  split at h
  · exact .inl rfl
  · cases h
  · rename_i htwo
    split at h
    · rename_i hvalue
      exact .inr ⟨htwo, hvalue⟩
    · cases h

/-- A frame that does not declare its size has a window of some size. -/
theorem minWindow_le_of_undeclared {bytes : ByteArray} {start stop : Nat}
    (h : HeaderScan.read bytes start stop = .ok (.frame header)) (hdeclared : header.contentSize = none) :
    StreamBuffers.minWindow ≤ header.windowSize := by
  obtain ⟨_, hneeds⟩ | hwhole := HeaderScan.read_eq_ok h
  · cases hneeds
  cases hwhole with
  | frame hmagic hsize hlength hfields =>
      unfold FrameHeader.readFields at hfields
      dsimp only at hfields
      split at hfields
      · cases hfields
      · split at hfields
        · cases hfields
        · cases hfields
          dsimp only at hdeclared ⊢
          by_cases hsingle : FrameHeader.isSingleSegment (byteAt bytes (start + 4)) = true
          · have hfield : FrameHeader.contentSizeLength (byteAt bytes (start + 4)) ≠ 0 := by
              unfold FrameHeader.contentSizeLength
              rw [if_pos hsingle]
              split <;> decide
            obtain hzero | ⟨htwo, hvalue⟩ := contentSizeOf_eq_none hdeclared
            · exact absurd hzero hfield
            · rw [if_pos hsingle, if_neg htwo, hvalue]
              decide
          · rw [if_neg hsingle]
            unfold FrameHeader.windowOf StreamBuffers.minWindow
            dsimp only
            have hbase : 2 ^ 10 ≤ 2 ^ (byteAt bytes (start + 5) / 8 + 10) :=
              Nat.pow_le_pow_right (by decide) (by omega)
            omega

theorem blockLimit_pos_of_undeclared {bytes : ByteArray} {start stop : Nat}
    (h : HeaderScan.read bytes start stop = .ok (.frame header)) (hdeclared : header.contentSize = none) :
    0 < header.blockLimit := by
  have hmin := minWindow_le_of_undeclared h hdeclared
  simp only [StreamBuffers.minWindow] at hmin
  simp only [FrameHeader.blockLimit, maxBlockSize]
  omega

/-- The first buffers are those that the first frame needs. -/
theorem StreamBuffers.adapt_needed (windowSize blockLimit : Nat) (contentSize : Option Nat) :
    (StreamBuffers.mk 0 0).adapt (.needed windowSize blockLimit contentSize)
      = .needed windowSize blockLimit contentSize := by
  have hinput : 0 < Nat.max blockLimit 4 := Nat.lt_of_lt_of_le (by decide) (Nat.le_max_right _ 4)
  exact if_pos (.inl hinput)

/-- The output buffer has room for a window and another block. -/
theorem FrameHeader.le_output_needed (header : FrameHeader) :
    header.windowSize + header.blockLimit
      ≤ (StreamBuffers.needed header.windowSize header.blockLimit none).output := by
  simp only [StreamBuffers.needed, StreamBuffers.minWindow, FrameHeader.blockLimit]
  omega

namespace ValidFrame

variable {dict : Option LoadedDictionary}

theorem finish_eq (h : ValidFrame dict frame header content) {f : StreamFrame} (hf : f.header = header)
    (horigin : f.origin = 0) (hend : frame.size = last + (if header.checksum then 4 else 0)) (max : Nat) :
    f.finish frame last frame.size ⟨content, max⟩ = .ok (frame.size, ⟨content, max⟩) := by
  unfold StreamFrame.finish
  dsimp only
  rw [hf, horigin, Nat.sub_zero]
  cases hchecksum : header.checksum with
  | false =>
      rw [hchecksum, if_neg Bool.false_ne_true, Nat.add_zero] at hend
      rw [if_neg Bool.false_ne_true, hend]
  | true =>
      rw [hchecksum, if_pos rfl] at hend
      have hlow := h.fits.checksum hchecksum
      have hplace : last = frame.size - 4 := by omega
      rw [if_pos rfl, if_neg (by omega), hplace, if_pos hlow]
      exact congrArg Except.ok (by rw [show frame.size - 4 + 4 = frame.size by omega])

/-- Through buffers that are made for it, a valid frame that declares no size comes to its content, if the output
may grow so far. -/
theorem streamDataFrame_eq (h : ValidFrame dict frame header content)
    (hdeclared : header.contentSize = none) (hwindow : header.windowSize ≤ StreamBuffers.maxWindow)
    (cold : Bool) (max : Nat) :
    ∃ buffers, streamDataFrame dict cold header frame 0 frame.size ⟨0, 0⟩ ⟨ByteArray.empty, max⟩
      = if max < content.size then .error .limit else .ok ⟨frame.size, buffers, ⟨content, max⟩⟩ := by
  obtain ⟨last, hblocks, hend⟩ := h.blocks
  have hlimit := blockLimit_pos_of_undeclared h.opens hdeclared
  have hdirect : inOneGo header frame 0 frame.size ⟨ByteArray.empty, max⟩ = none := by
    rw [inOneGo, hdeclared]
  have hroom := header.le_output_needed
  unfold streamDataFrame
  rw [hdirect]
  dsimp only
  rw [h.dictionary]
  dsimp only
  rw [if_neg (Nat.not_lt.mpr hwindow), StreamBuffers.adapt_needed, hdeclared]
  generalize StreamBuffers.needed header.windowSize header.blockLimit none = buffers at hroom ⊢
  have hretains : Retains ⟨header, buffers.output, 0⟩ (startingPoint dict).1 ByteArray.empty
      ⟨(startingPoint dict).1, (startingPoint dict).1.size⟩ :=
    .initial _ (show header.blockLimit ≤ buffers.output by omega)
  have hstream := streamBlocks_of_holds hdeclared hroom hblocks hretains hlimit (Nat.zero_le max) cold
  rw [h.finish_eq rfl rfl hend] at hstream
  rw [ByteArray.size_empty, Nat.zero_add, hstream]
  refine ⟨buffers, ?_⟩
  by_cases hfull : max < content.size
  · rw [if_pos hfull, if_pos hfull]
  · rw [if_neg hfull, if_neg hfull]

/-- **A valid frame that declares no size is decoded piece by piece to its content**, if its window is not too
large for a stream and its output may grow so far.  An output that may not grow at all is refused. -/
theorem decodeStream_eq (h : ValidFrame dict frame header content) (hdeclared : header.contentSize = none)
    (hwindow : header.windowSize ≤ StreamBuffers.maxWindow) (once : Bool) (max : Nat) :
    decodeStream dict once frame max
      = if max = 0 ∨ max < content.size then .error .limit else .ok content := by
  rw [decodeStream, streamFrames]
  by_cases hnothing : max = 0
  · subst hnothing
    rfl
  · have hopen : StreamOutput.isFull ⟨ByteArray.empty, max⟩ = false := by
      unfold StreamOutput.isFull
      rw [ByteArray.size_empty]
      exact beq_false_of_ne (Ne.symm hnothing)
    obtain ⟨buffers, hstream⟩ := h.streamDataFrame_eq hdeclared hwindow dict.isSome max
    rw [if_neg (by rw [hopen]; exact Bool.false_ne_true), streamFrame, h.opens]
    dsimp only
    rw [hstream]
    by_cases hfull : max < content.size
    · have hrefused : max = 0 ∨ max < content.size := .inr hfull
      rw [if_pos hfull, if_pos hrefused]
    · have hallowed : ¬(max = 0 ∨ max < content.size) := by omega
      rw [if_neg hfull, if_neg hallowed]
      dsimp only
      rw [if_pos rfl]

end ValidFrame

end SharedDictionary
