import SharedDictionary.Frame.Growing
import SharedDictionary.Proofs.Bytes.ChecksumRange
import SharedDictionary.Proofs.Frame.Room

/-!
# The course of a frame

A frame that is decoded into an output is stopped where the output meets its limit.  Its course is not: it is the
content up to where the frame ends, wherever it goes.  So a frame does to an output what its course says, as far
as the output goes (`Course.onto`).

This is proved for a block first (`streamBlock_onto`), which does not look at the output but for its size, then
for the blocks of a frame (`streamBlocks_onto`), and for frames (`streamFrame_onto`).
-/

namespace SharedDictionary

/-- What a frame that takes a course does to an output. -/
def Course.onto (c : Course) (o : StreamOutput) : Except StreamFailure StreamStep :=
  if o.max < o.bytes.size + c.content.size then .error .limit
  else
    match c.ending with
    | .complete next buffers => .ok ⟨next, buffers, ⟨o.bytes ++ c.content, o.max⟩⟩
    | .starved => .error (StreamOutput.starved ⟨o.bytes ++ c.content, o.max⟩)
    | .failed e => .error (.codec e)

/-- A failure as an output sees it that has its own limit. -/
def StreamFailure.seenBy (failure : StreamFailure) (o : StreamOutput) : StreamFailure :=
  match failure with
  | .codec e => .codec e
  | _ => o.starved

namespace StreamOutput

variable {o : StreamOutput}

theorem isFull_iff : o.isFull = true ↔ o.bytes.size = o.max := beq_iff_eq

theorem starved_of_full (h : o.bytes.size = o.max) : o.starved = .limit := if_pos (isFull_iff.mpr h)

theorem starved_of_lt (h : o.bytes.size < o.max) : o.starved = .truncated :=
  if_neg fun hfull => Nat.ne_of_lt h (isFull_iff.mp hfull)

@[simp] theorem starved_ample (content : ByteArray) (blockLimit : Nat) :
    (ample content blockLimit).starved = .truncated :=
  starved_of_lt (Nat.lt_succ_of_le (Nat.le_add_right _ _))

end StreamOutput

section Blocks

variable {header : FrameHeader} {buffer : Nat} {bytes : ByteArray} {stop start : Nat} {d : BlockDecoder}
  {w : StreamWindow} {pre content : ByteArray} {max : Nat} {buffers : StreamBuffers}

/-- What was decoded last is as long as the window has grown. -/
theorem size_pushRange_rest (content window : ByteArray) (before : Nat) :
    (pushRange content window before (window.size - before)).size = content.size + (window.size - before) := by
  rw [pushRange, ByteArray.size_append, ByteArray.size_extract]
  omega

/-- A block fits an output that has room for one. -/
theorem StreamOutput.flush_ample {window : ByteArray} {before blockLimit : Nat}
    (hlimit : window.size - before ≤ blockLimit) :
    (StreamOutput.ample content blockLimit).flush window before
      = .ok ⟨pushRange content window before (window.size - before), content.size + blockLimit + 1⟩ := by
  have hroom : ¬content.size + blockLimit + 1 < content.size + (window.size - before) := by omega
  exact if_neg hroom

/-- A course that does not fit an output meets its limit. -/
theorem Course.onto_limit {c : Course} (hroom : max < pre.size + c.content.size) :
    c.onto ⟨pre, max⟩ = .error .limit := if_pos hroom

/-- A course that fits an output fails as the output sees the failure. -/
theorem Course.onto_ofFailure (hfits : pre.size + content.size ≤ max) (failure : StreamFailure) :
    Course.onto ⟨content, .ofFailure failure⟩ ⟨pre, max⟩
      = .error (failure.seenBy ⟨pre ++ content, max⟩) := by
  rw [onto, if_neg (Nat.not_lt.mpr hfits)]
  cases failure <;> rfl

/-- A course that fits an output is completed behind its content. -/
theorem Course.onto_complete (hfits : pre.size + content.size ≤ max) (next : Nat) :
    Course.onto ⟨content, .complete next buffers⟩ ⟨pre, max⟩
      = .ok ⟨next, buffers, ⟨pre ++ content, max⟩⟩ := if_neg (Nat.not_lt.mpr hfits)

/-- **The end of a frame does not look at what is in front of its content.** -/
theorem finish_onto (hfits : pre.size + content.size ≤ max) (position : Nat) :
    (StreamFrame.finish ⟨header, buffer, pre.size⟩ bytes position stop ⟨pre ++ content, max⟩).map
        (fun r => ⟨r.1, buffers, r.2⟩)
      = (Course.close ⟨header, buffer, 0⟩ bytes position stop content buffers).onto ⟨pre, max⟩ := by
  have hsize : (pre ++ content).size - pre.size = content.size := by
    rw [ByteArray.size_append, Nat.add_sub_cancel_left]
  have hlow : Checksum.low (pre ++ content) pre.size content.size = Checksum.low content 0 content.size :=
    (standsAt_append_right pre content).low_eq
  unfold Course.close StreamFrame.finish
  dsimp only
  rw [hsize, hlow]
  cases hchecksum : header.checksum with
  | false =>
      simp only [Bool.false_eq_true, if_false]
      exact (Course.onto_complete hfits _).symm
  | true =>
      simp only [if_true]
      by_cases hstop : stop < position + 4
      · simp only [if_pos hstop, StreamOutput.starved_ample]
        exact (Course.onto_ofFailure hfits .truncated).symm
      · simp only [if_neg hstop]
        have hample : (StreamOutput.ample content header.blockLimit).bytes = content := rfl
        simp only [hample, Nat.sub_zero]
        by_cases hsame : littleEndian bytes position 4 = Checksum.low content 0 content.size
        · simp only [if_pos hsame]
          exact (Course.onto_complete hfits _).symm
        · simp only [if_neg hsame]
          exact (Course.onto_ofFailure hfits (.codec .wrongChecksum)).symm

/-- **A block does not look at the output**, but for whether there is room for its content. -/
theorem streamBlock_onto (hfits : pre.size + content.size ≤ max) (block : BlockHeader) :
    streamBlock ⟨header, buffer, pre.size⟩ d w block bytes start stop ⟨pre ++ content, max⟩
      = match streamBlock ⟨header, buffer, 0⟩ d w block bytes start stop (.ample content header.blockLimit) with
        | .error failure => .error (failure.seenBy ⟨pre ++ content, max⟩)
        | .ok (complete, d, w, o) =>
          if max < pre.size + o.bytes.size then .error .limit else .ok (complete, d, w, ⟨pre ++ o.bytes, max⟩) := by
  have hsize : (pre ++ content).size - pre.size = content.size := by
    rw [ByteArray.size_append, Nat.add_sub_cancel_left]
  have hample : (StreamOutput.ample content header.blockLimit).bytes = content := rfl
  obtain ⟨window, segment⟩ := w
  unfold streamBlock
  dsimp only
  split
  · rw [StreamOutput.starved_ample]
    rfl
  · generalize decodeBlock _ d window _ bytes start = decoded
    rcases decoded with e | ⟨d', window'⟩
    · rfl
    · dsimp only
      rw [hsize, hample, Nat.sub_zero]
      split
      · rfl
      · rename_i hlimit
        split
        · rfl
        · split
          · exact (if_neg (Nat.not_lt.mpr hfits)).symm
          · rw [StreamOutput.flush_ample (Nat.not_lt.mp hlimit)]
            dsimp only
            rw [StreamOutput.flush, size_pushRange_rest, ByteArray.size_append, Nat.add_assoc]
            by_cases hroom : max < pre.size + (content.size + (window'.size - window.size))
            · simp only [if_pos hroom]
            · simp only [if_neg hroom, pushRange_append]
              rfl

theorem StreamOutput.size_le_of_flush {o o' : StreamOutput} {window : ByteArray}
    (h : o.flush window start = .ok o') : o.bytes.size ≤ o'.bytes.size := by
  obtain ⟨flushed, max⟩ := o
  unfold flush at h
  dsimp only at h
  split at h
  · cases h
  · cases h
    rw [pushRange, ByteArray.size_append]
    exact Nat.le_add_right _ _

/-- A block adds to the output. -/
theorem size_le_of_streamBlock {f : StreamFrame} {block : BlockHeader} {o o' : StreamOutput} {complete : Bool}
    {d' : BlockDecoder} {w' : StreamWindow}
    (h : streamBlock f d w block bytes start stop o = .ok (complete, d', w', o')) :
    o.bytes.size ≤ o'.bytes.size := by
  obtain ⟨window, segment⟩ := w
  unfold streamBlock at h
  dsimp only at h
  split at h
  · cases h
  · split at h
    · cases h
    · split at h
      · cases h
      · split at h
        · cases h
        · split at h
          · cases h
            exact Nat.le_refl _
          · split at h
            · cases h
            · rename_i hflush
              cases h
              exact StreamOutput.size_le_of_flush hflush

/-- The end of a frame adds nothing to its content. -/
@[simp] theorem content_close (f : StreamFrame) (bytes : ByteArray) (position stop : Nat) (content : ByteArray)
    (buffers : StreamBuffers) : (Course.close f bytes position stop content buffers).content = content := by
  unfold Course.close
  split <;> rfl

/-- A course goes on from what has been decoded. -/
theorem size_le_courseBlocks (f : StreamFrame) (bytes : ByteArray) (stop start : Nat) (d : BlockDecoder)
    (w : StreamWindow) (content : ByteArray) (buffers : StreamBuffers) :
    content.size ≤ (courseBlocks f bytes stop start d w content buffers).content.size := by
  fun_induction courseBlocks f bytes stop start d w content buffers with
  | case1 => exact Nat.le_refl _
  | case2 => exact Nat.le_refl _
  | case3 => exact Nat.le_refl _
  | case4 => exact Nat.le_of_eq (congrArg ByteArray.size (content_close ..)).symm
  | case5 start d w content hstop block hread hlimit hempty hlast ih => exact ih
  | case6 => exact Nat.le_refl _
  | case7 start d w content hstop block hread hlimit hempty complete d' w' o hblock =>
      exact size_le_of_streamBlock hblock
  | case8 start d w content hstop block hread hlimit hempty complete d' w' o hblock =>
      rw [content_close]
      exact size_le_of_streamBlock hblock
  | case9 start d w content hstop block hread hlimit hempty complete d' w' o hblock hcomplete hlast ih =>
      exact Nat.le_trans (size_le_of_streamBlock hblock) ih

/-- **The blocks of a frame do to an output what their course says.** -/
theorem streamBlocks_onto (hfits : pre.size + content.size ≤ max) :
    (streamBlocks ⟨header, buffer, pre.size⟩ bytes stop start d w ⟨pre ++ content, max⟩).map
        (fun r => ⟨r.1, buffers, r.2⟩)
      = (courseBlocks ⟨header, buffer, 0⟩ bytes stop start d w content buffers).onto ⟨pre, max⟩ := by
  fun_induction courseBlocks ⟨header, buffer, 0⟩ bytes stop start d w content buffers with
  | case1 start d w content hstop =>
      rw [streamBlocks, if_pos hstop]
      exact (Course.onto_ofFailure hfits .truncated).symm
  | case2 start d w content hstop e hread =>
      rw [streamBlocks, if_neg hstop, hread]
      exact (Course.onto_ofFailure hfits (.codec e)).symm
  | case3 start d w content hstop block hread hlimit =>
      rw [streamBlocks, if_neg hstop, hread]
      simp only [if_pos hlimit]
      exact (Course.onto_ofFailure hfits (.codec .corruption)).symm
  | case4 start d w content hstop block hread hlimit hempty hlast =>
      rw [streamBlocks, if_neg hstop, hread]
      simp only [if_neg hlimit, if_pos hempty, if_pos hlast]
      exact finish_onto hfits _
  | case5 start d w content hstop block hread hlimit hempty hlast ih =>
      rw [streamBlocks, if_neg hstop, hread]
      simp only [if_neg hlimit, if_pos hempty, if_neg hlast]
      exact ih hfits
  | case6 start d w content hstop block hread hlimit hempty failure hblock =>
      rw [streamBlocks, if_neg hstop, hread]
      simp only [if_neg hlimit, if_neg hempty, streamBlock_onto hfits, hblock]
      exact (Course.onto_ofFailure hfits failure).symm
  | case7 start d w content hstop block hread hlimit hempty complete d' w' o hblock hcomplete =>
      rw [streamBlocks, if_neg hstop, hread]
      simp only [if_neg hlimit, if_neg hempty, streamBlock_onto hfits, hblock]
      by_cases hroom : max < pre.size + o.bytes.size
      · simp only [if_pos hroom]
        exact (Course.onto_limit hroom).symm
      · simp only [if_neg hroom, if_pos hcomplete]
        exact (Course.onto_ofFailure (Nat.not_lt.mp hroom) .truncated).symm
  | case8 start d w content hstop block hread hlimit hempty complete d' w' o hblock hcomplete hlast =>
      rw [streamBlocks, if_neg hstop, hread]
      simp only [if_neg hlimit, if_neg hempty, streamBlock_onto hfits, hblock]
      by_cases hroom : max < pre.size + o.bytes.size
      · simp only [if_pos hroom]
        rw [Course.onto_limit (by rwa [content_close])]
        rfl
      · simp only [if_neg hroom, if_neg hcomplete, if_pos hlast]
        exact finish_onto (Nat.not_lt.mp hroom) _
  | case9 start d w content hstop block hread hlimit hempty complete d' w' o hblock hcomplete hlast ih =>
      rw [streamBlocks, if_neg hstop, hread]
      simp only [if_neg hlimit, if_neg hempty, streamBlock_onto hfits, hblock]
      by_cases hroom : max < pre.size + o.bytes.size
      · simp only [if_pos hroom]
        have hmore := size_le_courseBlocks ⟨header, buffer, 0⟩ bytes stop (block.endAfter start) d' w' o.bytes
          buffers
        rw [Course.onto_limit (Nat.lt_of_lt_of_le hroom (Nat.add_le_add_left hmore _))]
        rfl
      · simp only [if_neg hroom, if_neg hcomplete, if_neg hlast]
        exact ih (Nat.not_lt.mp hroom)

end Blocks

/-! ### Frames -/

section Frames

variable {dict : Option LoadedDictionary} {cold : Bool} {bytes : ByteArray} {start stop : Nat}
  {buffers : StreamBuffers} {o : StreamOutput}

/-- The room in front of a frame is one step of growth at most. -/
theorem StreamOutput.room_le_growth (o : StreamOutput) : o.room ≤ growth := by
  have hstep := Nat.div_add_mod o.bytes.size growth
  rw [room, Nat.mul_add, Nat.mul_one]
  omega

/-- An output is filled up to its limit at most. -/
theorem StreamOutput.add_room_le (hfits : o.bytes.size ≤ o.max) : o.bytes.size + o.room ≤ o.max := by
  unfold room
  omega

/-- Whether a frame is decoded in one go depends on the room alone. -/
theorem inOneGo_room (header : FrameHeader) (o : StreamOutput) :
    inOneGo header bytes start stop ⟨ByteArray.empty, o.room⟩ = inOneGo header bytes start stop o := by
  have hroom : (StreamOutput.mk ByteArray.empty o.room).room = o.room := by
    have hle := o.room_le_growth
    show min o.room (StreamOutput.growth * (0 / StreamOutput.growth + 1)) - 0 = o.room
    rw [Nat.zero_div, Nat.zero_add, Nat.mul_one, Nat.sub_zero, Nat.min_eq_left hle]
  unfold inOneGo
  rw [hroom]

theorem streamDataFrame_onto (header : FrameHeader) (hfits : o.bytes.size ≤ o.max) :
    streamDataFrame dict cold header bytes start stop buffers o
      = (dataCourse dict cold header bytes start stop buffers o.room).onto o := by
  have hroom := StreamOutput.add_room_le hfits
  obtain ⟨pre, max⟩ := o
  have hempty : pre.size + ByteArray.empty.size ≤ max := hfits
  have hfailed : ∀ e, Course.onto ⟨ByteArray.empty, .failed e⟩ ⟨pre, max⟩ = .error (.codec e) :=
    fun e => Course.onto_ofFailure hempty (.codec e)
  unfold streamDataFrame dataCourse
  rw [inOneGo_room]
  cases inOneGo header bytes start stop ⟨pre, max⟩ with
  | some size =>
      dsimp only
      cases hdecode : decodeConcatenated dict cold bytes start (start + size) (StreamOutput.room ⟨pre, max⟩) false
        ByteArray.empty with
      | error e => exact (hfailed e).symm
      | ok content =>
          have hle := size_le_of_decodeConcatenated (Nat.zero_le _) hdecode
          exact (Course.onto_complete (Nat.le_trans (Nat.add_le_add_left hle _) hroom) _).symm
  | none =>
      dsimp only
      cases checkDictionary dict header with
      | error e => exact (hfailed e).symm
      | ok _ =>
          dsimp only
          by_cases hwindow : StreamBuffers.maxWindow < header.windowSize
          · simp only [if_pos hwindow]
            exact (hfailed _).symm
          · simp only [if_neg hwindow]
            generalize buffers.adapt (.needed header.windowSize header.blockLimit header.contentSize) = buffers
            rcases startingPoint dict with ⟨history, state⟩
            have hblocks : (streamBlocks ⟨header, buffers.output, pre.size⟩ bytes stop (start + header.size)
                ⟨state, cold⟩ ⟨history, history.size⟩ ⟨pre ++ ByteArray.empty, max⟩).map
                  (fun r => (⟨r.1, buffers, r.2⟩ : StreamStep))
                = (courseBlocks ⟨header, buffers.output, 0⟩ bytes stop (start + header.size) ⟨state, cold⟩
                    ⟨history, history.size⟩ ByteArray.empty buffers).onto ⟨pre, max⟩ :=
              streamBlocks_onto hempty
            rw [ByteArray.append_empty] at hblocks
            rw [← hblocks]
            cases streamBlocks ⟨header, buffers.output, pre.size⟩ bytes stop (start + header.size) ⟨state, cold⟩
              ⟨history, history.size⟩ ⟨pre, max⟩ <;> rfl

/-- **A frame does to an output what its course says.** -/
theorem streamFrame_onto (hfits : o.bytes.size ≤ o.max) :
    streamFrame dict cold bytes start stop buffers o
      = (frameCourse dict cold bytes start stop buffers o.room).onto o := by
  have hdata : ∀ header, streamDataFrame dict cold header bytes start stop buffers o
      = (dataCourse dict cold header bytes start stop buffers o.room).onto o :=
    fun header => streamDataFrame_onto header hfits
  obtain ⟨pre, max⟩ := o
  have hempty : pre.size + ByteArray.empty.size ≤ max := hfits
  have hstarved : Course.onto ⟨ByteArray.empty, .starved⟩ ⟨pre, max⟩
      = .error (StreamOutput.starved ⟨pre, max⟩) := by
    have hseen := Course.onto_ofFailure hempty .truncated
    rwa [ByteArray.append_empty] at hseen
  unfold streamFrame frameCourse
  rcases HeaderScan.read bytes start stop with e | length | length | header
  · exact (Course.onto_ofFailure hempty (.codec e)).symm
  · exact hstarved.symm
  · dsimp only
    by_cases hstop : stop < start + 8 + length
    · simp only [if_pos hstop]
      exact hstarved.symm
    · simp only [if_neg hstop]
      rw [Course.onto_complete hempty, ByteArray.append_empty]
  · exact hdata header

end Frames

end SharedDictionary
