import SharedDictionary.Proofs.Frame.Acceptance
import SharedDictionary.Proofs.Frame.Room

/-!
# Valid frames

What a frame means does not depend on who decodes it.  Here it is said without buffers, ranges and limits.

* A block holds some content if its sequences come to exactly that, in a window that reaches as far back as the
  header allows (`HoldsBlock`).  While less than a window was decoded that is the dictionary and all the content
  so far; afterwards it is one window of content (`FrameHeader.reach`).
* Blocks behind each other hold their contents behind each other (`HoldsBlocks`).
* A frame is valid, with some content, if its blocks hold it and its header and its checksum say nothing else
  (`ValidFrame`).
-/

namespace SharedDictionary

open SharedDictionary.Entropy

/-! ### Endings -/

/-- A byte string stands at the end of another. -/
def EndsWith (bytes part : ByteArray) : Prop := ∃ before, bytes = before ++ part

namespace EndsWith

variable {bytes part : ByteArray}

theorem refl (bytes : ByteArray) : EndsWith bytes bytes := ⟨ByteArray.empty, ByteArray.empty_append.symm⟩

theorem size_le (h : EndsWith bytes part) : part.size ≤ bytes.size := by
  obtain ⟨before, rfl⟩ := h
  rw [ByteArray.size_append]
  omega

theorem append (h : EndsWith bytes part) (added : ByteArray) :
    EndsWith (bytes ++ added) (part ++ added) := by
  obtain ⟨before, rfl⟩ := h
  exact ⟨before, ByteArray.append_assoc⟩

theorem trans {inner : ByteArray} (h : EndsWith bytes part) (hinner : EndsWith part inner) :
    EndsWith bytes inner := by
  obtain ⟨before, rfl⟩ := h
  obtain ⟨middle, rfl⟩ := hinner
  exact ⟨before ++ middle, ByteArray.append_assoc.symm⟩

/-- What stands from a position on ends a byte string. -/
theorem extract (bytes : ByteArray) (i : Nat) : EndsWith bytes (bytes.extract i bytes.size) := by
  refine ⟨bytes.extract 0 i, ?_⟩
  rw [extract_append_rest bytes (Nat.zero_le i), ByteArray.extract_zero_size]

/-- An ending is what stands from its first position on. -/
theorem extract_eq (h : EndsWith bytes part) : bytes.extract (bytes.size - part.size) bytes.size = part := by
  obtain ⟨before, rfl⟩ := h
  have hstands := (standsAt_append_right before part).extract_eq
  rw [ByteArray.size_append, Nat.add_sub_cancel]
  exact hstands

/-- Of two endings the longer ends with the shorter. -/
theorem of_le {inner : ByteArray} (h : EndsWith bytes part) (hinner : EndsWith bytes inner)
    (hle : inner.size ≤ part.size) : EndsWith part inner := by
  have hsize := h.size_le
  rw [← hinner.extract_eq, ← h.extract_eq]
  have hstop : bytes.extract (bytes.size - inner.size) bytes.size
      = (bytes.extract (bytes.size - part.size) bytes.size).extract (part.size - inner.size)
          (bytes.extract (bytes.size - part.size) bytes.size).size := by
    rw [ByteArray.extract_extract, ByteArray.size_extract]
    congr 1 <;> omega
  rw [hstop]
  exact extract _ _

end EndsWith

/-! ### Blocks -/

/-- What a block of a frame may copy from when some content is decoded. -/
def FrameHeader.reach (header : FrameHeader) (history done : ByteArray) : ByteArray :=
  if done.size ≤ header.windowSize then history ++ done
  else done.extract (done.size - header.windowSize) done.size

/-- As far back as a block may copy from stands at the end of all there is. -/
theorem FrameHeader.endsWith_reach (header : FrameHeader) (history done : ByteArray) :
    EndsWith (history ++ done) (header.reach history done) := by
  unfold reach
  split
  · exact .refl _
  · exact EndsWith.trans ⟨history, rfl⟩ (.extract done _)

/-- The block at a position holds some content: it has room for no more, and leaves the tables and distances
for the next block. -/
structure HoldsBlock (header : FrameHeader) (frame : ByteArray) (start : Nat) (reach : ByteArray)
    (state : CodingState) (block : BlockHeader) (state' : CodingState) (added : ByteArray) : Prop where
  read : BlockHeader.read frame start frame.size = .ok block
  inside : block.endAfter start ≤ frame.size
  size : added.size ≤ header.blockLimit
  content : ∃ cold, decodeBlock ⟨added.size, header.blockLimit, false⟩ ⟨state, false⟩ reach block frame
    (start + BlockHeader.size) = .ok (⟨state', cold⟩, reach ++ added)

/-- A raw block holds what stands behind its header, under any tables and behind any content. -/
theorem HoldsBlock.raw {header : FrameHeader} {frame : ByteArray} {start length : Nat} {last : Bool}
    (hread : BlockHeader.read frame start frame.size = .ok ⟨.raw, last, length⟩)
    (hinside : start + BlockHeader.size + length ≤ frame.size) (hlength : length ≤ header.blockLimit)
    (reach : ByteArray) (state : CodingState) :
    HoldsBlock header frame start reach state ⟨.raw, last, length⟩ state
      (frame.extract (start + BlockHeader.size) (start + BlockHeader.size + length)) := by
  have hsize : (frame.extract (start + BlockHeader.size) (start + BlockHeader.size + length)).size
      = length := by
    rw [ByteArray.size_extract]
    omega
  refine ⟨hread, hinside, by rw [hsize]; exact hlength, false, ?_⟩
  rw [hsize]
  exact if_neg (Nat.lt_irrefl length)

/-- The blocks from a position to the last one, which ends at another, complete some content. -/
inductive HoldsBlocks (header : FrameHeader) (frame history : ByteArray) :
    Nat → CodingState → ByteArray → Nat → ByteArray → Prop
  | last {start : Nat} {state state' : CodingState} {done added : ByteArray} {block : BlockHeader}
      (hblock : HoldsBlock header frame start (header.reach history done) state block state' added)
      (hlast : block.last = true) :
      HoldsBlocks header frame history start state done (block.endAfter start) (done ++ added)
  | more {start last : Nat} {state state' : CodingState} {done added content : ByteArray}
      {block : BlockHeader}
      (hblock : HoldsBlock header frame start (header.reach history done) state block state' added)
      (hlast : block.last = false)
      (rest : HoldsBlocks header frame history (block.endAfter start) state' (done ++ added) last content) :
      HoldsBlocks header frame history start state done last content

theorem HoldsBlocks.size_le {header : FrameHeader} {frame history : ByteArray} {start last : Nat}
    {state : CodingState} {done content : ByteArray}
    (h : HoldsBlocks header frame history start state done last content) : done.size ≤ content.size := by
  induction h with
  | last hblock hlast =>
      rw [ByteArray.size_append]
      omega
  | more hblock hlast rest ih =>
      rw [ByteArray.size_append] at ih
      omega

/-- The end of blocks that hold some content is found from their headers alone. -/
theorem HoldsBlocks.blocksEnd_eq {header : FrameHeader} {frame history : ByteArray} {start last : Nat}
    {state : CodingState} {done content : ByteArray}
    (h : HoldsBlocks header frame history start state done last content) :
    blocksEnd frame start frame.size = .ok last := by
  induction h with
  | last hblock hlast => rw [SharedDictionary.blocksEnd_eq hblock.read hblock.inside, if_pos hlast]
  | more hblock hlast rest ih =>
      rw [SharedDictionary.blocksEnd_eq hblock.read hblock.inside, if_neg (by simp [hlast]), ih]

/-- A byte string is one frame that holds some content, for whoever has its dictionary. -/
structure ValidFrame (dict : Option LoadedDictionary) (frame : ByteArray) (header : FrameHeader)
    (content : ByteArray) : Prop where
  opens : HeaderScan.read frame 0 frame.size = .ok (.frame header)
  dictionary : checkDictionary dict header = .ok ()
  blocks : ∃ last, HoldsBlocks header frame (startingPoint dict).1 header.size (startingPoint dict).2
      ByteArray.empty last content
    ∧ frame.size = last + (if header.checksum then 4 else 0)
  fits : header.Fits frame frame.size content

/-- **A valid frame is found whole without being decoded.** -/
theorem ValidFrame.frameSize_eq {dict : Option LoadedDictionary} {frame : ByteArray} {header : FrameHeader}
    {content : ByteArray} (h : ValidFrame dict frame header content) :
    frameSize frame 0 frame.size = .ok frame.size := by
  obtain ⟨last, hblocks, hend⟩ := h.blocks
  have hlast : blocksEnd frame (0 + header.size) frame.size = .ok last := by
    rw [Nat.zero_add]
    exact hblocks.blocksEnd_eq
  rw [frameSize_of_blocksEnd h.opens hlast (Nat.le_of_eq hend.symm), ← hend, Nat.sub_zero]

end SharedDictionary
