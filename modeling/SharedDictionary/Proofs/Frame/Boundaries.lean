import SharedDictionary.Frame.Boundary
import SharedDictionary.Proofs.Bytes.Standing

/-!
# Where a frame ends is up to the frame

The end of a frame is found from the headers of its blocks, and these are read one after the other as
far as the bytes reach.  Two facts make it a property of the frame alone.

* **What stands elsewhere reads the same.**  A part of a byte string is scanned as if it were on its
  own, with the same failures (`StandsAt.frameSize_eq`).
* **What follows does not matter.**  A frame that is complete lies within the bytes, and it stays so and
  keeps its length wherever these end behind it (`frameSize_eq_ok`).

Together they find a whole frame wherever it stands (`StandsAt.frameSize_whole`).
-/

namespace SharedDictionary

/-- What bytes show that hold a whole header. -/
inductive WholeHeader (bytes : ByteArray) (start stop : Nat) : HeaderScan → Prop
  | skippable (hmagic : littleEndian bytes start 4 ≠ frameMagic)
      (hskip : isSkippableMagic (littleEndian bytes start 4) = true) (hsize : 8 ≤ stop - start) :
      WholeHeader bytes start stop (.skippable (littleEndian bytes (start + 4) 4))
  | frame {header : FrameHeader} (hmagic : littleEndian bytes start 4 = frameMagic)
      (hsize : 5 ≤ stop - start)
      (hlength : FrameHeader.lengthOf (byteAt bytes (start + 4)) ≤ stop - start)
      (hfields : FrameHeader.readFields bytes start = .ok header) :
      WholeHeader bytes start stop (.frame header)

/-- **A header that is read is incomplete or whole.** -/
theorem HeaderScan.read_eq_ok {bytes : ByteArray} {start stop : Nat} {scan : HeaderScan}
    (h : HeaderScan.read bytes start stop = .ok scan) :
    (∃ length, scan = .needs length) ∨ WholeHeader bytes start stop scan := by
  unfold HeaderScan.read at h
  dsimp only at h
  split at h
  · split at h
    · cases h
      exact .inl ⟨_, rfl⟩
    · cases h
  · rename_i hsize
    have hsize : 5 ≤ stop - start := Nat.not_lt.mp hsize
    split at h
    · rename_i hmagic
      split at h
      · cases h
        exact .inl ⟨_, rfl⟩
      · rename_i hlength
        rcases hfields : FrameHeader.readFields bytes start with e | header
        · rw [hfields] at h
          cases h
        · rw [hfields] at h
          cases h
          exact .inr (.frame hmagic hsize (Nat.not_lt.mp hlength) hfields)
    · rename_i hmagic
      split at h
      · rename_i hskip
        split at h
        · cases h
          exact .inl ⟨_, rfl⟩
        · rename_i hlength
          cases h
          exact .inr (.skippable hmagic hskip (Nat.not_lt.mp hlength))
      · cases h

/-- A header is as long as its descriptor says. -/
theorem FrameHeader.size_of_readFields {bytes : ByteArray} {start : Nat} {header : FrameHeader}
    (h : readFields bytes start = .ok header) :
    header.size = lengthOf (byteAt bytes (start + 4)) := by
  unfold readFields at h
  dsimp only at h
  split at h
  · cases h
  · split at h
    · cases h
    · cases h
      rfl

/-- The length of what a scan shows: of the whole header, or of what precedes a skippable content. -/
def HeaderScan.length : HeaderScan → Nat
  | .needs length => length
  | .skippable _ => 8
  | .frame header => header.size

/-- A whole header lies within the bytes. -/
theorem WholeHeader.length_le {bytes : ByteArray} {start stop : Nat} {scan : HeaderScan}
    (h : WholeHeader bytes start stop scan) : 5 ≤ scan.length ∧ start + scan.length ≤ stop := by
  cases h with
  | skippable hmagic hskip hsize =>
      show 5 ≤ 8 ∧ start + 8 ≤ stop
      omega
  | @frame header hmagic hsize hlength hfields =>
      show 5 ≤ header.size ∧ start + header.size ≤ stop
      rw [FrameHeader.size_of_readFields hfields]
      have hfive : 5 ≤ FrameHeader.lengthOf (byteAt bytes (start + 4)) := by
        unfold FrameHeader.lengthOf
        omega
      omega

/-- A whole header is read wherever the bytes end behind it. -/
theorem WholeHeader.read_eq {bytes : ByteArray} {start stop stop' : Nat} {scan : HeaderScan}
    (h : WholeHeader bytes start stop scan) (hfits : start + scan.length ≤ stop') :
    HeaderScan.read bytes start stop' = .ok scan := by
  have hfive := h.length_le.1
  unfold HeaderScan.read
  cases h with
  | skippable hmagic hskip hsize =>
      have hfits : start + 8 ≤ stop' := hfits
      simp only [if_neg hmagic, if_pos hskip]
      rw [if_neg (by omega), if_neg (by omega)]
  | @frame header hmagic hsize hlength hfields =>
      have hfits : start + header.size ≤ stop' := hfits
      have hfive : 5 ≤ header.size := hfive
      have hheader := FrameHeader.size_of_readFields hfields
      simp only [if_pos hmagic, hfields]
      rw [if_neg (by omega), if_neg (by omega)]
      rfl

namespace StandsAt

variable {bytes part : ByteArray} {i start stop : Nat}

/-! ### What stands elsewhere reads the same -/

/-- A number is read off the part if it lies between two positions of it. -/
theorem littleEndian_within (h : StandsAt bytes i part) (hstop : stop ≤ part.size)
    (start count : Nat) (hcount : count ≤ stop - start) :
    littleEndian bytes (i + start) count = littleEndian part start count := by
  cases count with
  | zero => rfl
  | succ count => exact h.littleEndian_eq (by omega)

theorem mayOpen_eq (h : StandsAt bytes i part) (hstop : stop ≤ part.size) {count : Nat}
    (hcount : count ≤ stop - start) :
    HeaderScan.mayOpen bytes (i + start) count = HeaderScan.mayOpen part start count := by
  unfold HeaderScan.mayOpen HeaderScan.opens
  rw [h.littleEndian_within hstop start count hcount]

/-- The fields of a header that is all there are read off the part. -/
theorem readFields_eq (h : StandsAt bytes i part) (hstop : stop ≤ part.size)
    (hlength : start + FrameHeader.lengthOf (byteAt part (start + 4)) ≤ stop) :
    FrameHeader.readFields bytes (i + start) = FrameHeader.readFields part start := by
  unfold FrameHeader.readFields
  have hfive : 5 ≤ FrameHeader.lengthOf (byteAt part (start + 4)) := by
    unfold FrameHeader.lengthOf
    omega
  have hdescriptor : byteAt bytes (i + start + 4) = byteAt part (start + 4) := by
    rw [Nat.add_assoc]
    exact h.byteAt_eq (by omega)
  simp only [hdescriptor]
  generalize byteAt part (start + 4) = descriptor at hlength
  unfold FrameHeader.lengthOf at hlength
  -- The window is read from a byte that is there: without one, the content size has a byte at least.
  have hwindow : byteAt bytes (i + start + 5) = byteAt part (start + 5) := by
    rw [Nat.add_assoc]
    refine h.byteAt_eq ?_
    have hone : 1 ≤ FrameHeader.windowLength descriptor
        + FrameHeader.contentSizeLength descriptor := by
      unfold FrameHeader.windowLength FrameHeader.contentSizeLength
      repeat' split
      all_goals omega
    omega
  have hid := h.littleEndian_within hstop (start + 5 + FrameHeader.windowLength descriptor)
    (FrameHeader.idLength descriptor) (by omega)
  have hsize := h.littleEndian_within hstop (start + 5 + FrameHeader.windowLength descriptor
    + FrameHeader.idLength descriptor) (FrameHeader.contentSizeLength descriptor) (by omega)
  simp only [← Nat.add_assoc] at hid hsize
  rw [hwindow, hid, hsize]

theorem headerScan_eq (h : StandsAt bytes i part) (hstop : stop ≤ part.size) :
    HeaderScan.read bytes (i + start) (i + stop) = HeaderScan.read part start stop := by
  unfold HeaderScan.read
  simp only [Nat.add_sub_add_left]
  by_cases hshort : stop - start < 5
  · rw [if_pos hshort, if_pos hshort, h.mayOpen_eq hstop (Nat.min_le_left _ _)]
  · have hmagic := h.littleEndian_within hstop start 4 (by omega)
    have hdescriptor : byteAt bytes (i + start + 4) = byteAt part (start + 4) := by
      rw [Nat.add_assoc]
      exact h.byteAt_eq (by omega)
    rw [if_neg hshort, if_neg hshort, hmagic, hdescriptor]
    by_cases hlength : stop - start < FrameHeader.lengthOf (byteAt part (start + 4))
    · rw [if_pos hlength, if_pos hlength]
      by_cases hskip : stop - start < 8
      · rw [if_pos hskip, if_pos hskip]
      · rw [Nat.add_assoc i, h.littleEndian_within hstop _ _ (by omega)]
    · rw [if_neg hlength, if_neg hlength, h.readFields_eq hstop (by omega)]
      by_cases hskip : stop - start < 8
      · rw [if_pos hskip, if_pos hskip]
      · rw [Nat.add_assoc i, h.littleEndian_within hstop _ _ (by omega)]

theorem blockHeader_eq (h : StandsAt bytes i part) (hstop : stop ≤ part.size) :
    BlockHeader.read bytes (i + start) (i + stop) = BlockHeader.read part start stop := by
  unfold BlockHeader.read
  simp only [Nat.add_assoc i, Nat.add_lt_add_iff_left]
  by_cases hshort : stop < start + BlockHeader.size
  · rw [if_pos hshort, if_pos hshort]
  · have hvalue := h.littleEndian_within hstop start 3
      (by simp only [BlockHeader.size] at hshort; omega)
    rw [if_neg hshort, if_neg hshort, hvalue]

theorem blocksEnd_eq (h : StandsAt bytes i part) (hstop : stop ≤ part.size) :
    blocksEnd bytes (i + start) (i + stop) = (blocksEnd part start stop).map (i + ·) := by
  have hend : ∀ (block : BlockHeader) (start : Nat),
      block.endAfter (i + start) = i + block.endAfter start := by
    intro block start
    simp only [BlockHeader.endAfter, Nat.add_assoc]
  fun_induction blocksEnd part start stop with
  | case1 start e hread => rw [blocksEnd, h.blockHeader_eq hstop, hread]; rfl
  | case2 start block hread hlong =>
      rw [blocksEnd, h.blockHeader_eq hstop, hread]
      simp only [hend, Nat.add_lt_add_iff_left, if_pos hlong]
      rfl
  | case3 start block hread hfits hlast =>
      rw [blocksEnd, h.blockHeader_eq hstop, hread]
      simp only [hend, Nat.add_lt_add_iff_left, if_neg hfits, if_pos hlast]
      rfl
  | case4 start block hread hfits hlast ih =>
      rw [blocksEnd, h.blockHeader_eq hstop, hread]
      simp only [hend, Nat.add_lt_add_iff_left, if_neg hfits, if_neg hlast]
      exact ih

theorem skippableSize_eq (h : StandsAt bytes i part) (hstop : stop ≤ part.size)
    (hlength : start + 8 ≤ stop) :
    skippableSize bytes (i + start) (i + stop) = skippableSize part start stop := by
  unfold skippableSize
  rw [Nat.add_assoc i start 4, h.littleEndian_within hstop _ _ (by omega)]
  simp only [Nat.add_assoc i, Nat.add_lt_add_iff_left]

/-- **A part is scanned as if it were on its own**, failures included. -/
theorem frameSize_eq (h : StandsAt bytes i part) (start : Nat) (hstop : stop ≤ part.size) :
    frameSize bytes (i + start) (i + stop) = frameSize part start stop := by
  unfold frameSize
  rw [h.headerScan_eq hstop]
  rcases hread : HeaderScan.read part start stop with e | (length | length | header)
  · rfl
  · rfl
  · obtain ⟨_, hneeds⟩ | ⟨-, -, hsize⟩ := HeaderScan.read_eq_ok hread
    · cases hneeds
    · exact h.skippableSize_eq hstop (by omega)
  · simp only [Nat.add_assoc i, h.blocksEnd_eq hstop]
    rcases blocksEnd part (start + header.size) stop with e | blocks
    · rfl
    · simp only [Except.map, Nat.add_assoc i, Nat.add_lt_add_iff_left, Nat.add_sub_add_left]

end StandsAt

/-! ### What follows does not matter -/

section Fits

variable {bytes : ByteArray} {start stop stop' : Nat}

theorem BlockHeader.read_of_fits {block : BlockHeader} (h : read bytes start stop = .ok block)
    (hfits : start + size ≤ stop') : read bytes start stop' = .ok block := by
  unfold read at h ⊢
  split at h
  · cases h
  · rw [if_neg (by omega)]
    exact h

/-- The blocks of a frame end behind their first header, and within the bytes. -/
theorem blocksEnd_le {last : Nat} (h : blocksEnd bytes start stop = .ok last) :
    start + BlockHeader.size ≤ last ∧ last ≤ stop := by
  fun_induction blocksEnd bytes start stop with
  | case1 => cases h
  | case2 => cases h
  | case3 start block hread hfits hlast =>
      cases h
      exact ⟨Nat.le_add_right _ _, Nat.not_lt.mp hfits⟩
  | case4 start block hread hfits hlast ih =>
      obtain ⟨hbehind, hwithin⟩ := ih h
      have hpast : start + BlockHeader.size ≤ block.endAfter start := Nat.le_add_right _ _
      exact ⟨by omega, hwithin⟩

theorem blocksEnd_of_fits {last : Nat} (h : blocksEnd bytes start stop = .ok last)
    (hfits : last ≤ stop') : blocksEnd bytes start stop' = .ok last := by
  have hhere := (blocksEnd_le h).1
  fun_induction blocksEnd bytes start stop with
  | case1 => cases h
  | case2 => cases h
  | case3 start block hread hlong hlast =>
      cases h
      rw [blocksEnd, BlockHeader.read_of_fits hread (by omega)]
      simp only [if_pos hlast]
      rw [if_neg (by omega)]
  | case4 start block hread hlong hlast ih =>
      have hnext := (blocksEnd_le h).1
      rw [blocksEnd, BlockHeader.read_of_fits hread (by omega)]
      simp only [if_neg hlast]
      rw [if_neg (by omega)]
      exact ih h hnext

theorem skippableSize_eq_ok {size : Nat} (h : skippableSize bytes start stop = .ok size) :
    8 ≤ size ∧ start + size ≤ stop
      ∧ ∀ stop', start + size ≤ stop' → skippableSize bytes start stop' = .ok size := by
  unfold skippableSize at h ⊢
  dsimp only at h ⊢
  split at h
  · cases h
  · rename_i hsmall
    split at h
    · cases h
    · rename_i hwithin
      cases h
      refine ⟨by omega, by omega, fun stop' hfits => ?_⟩
      rw [if_neg hsmall, if_neg (by omega)]

/-- **A complete frame lies within the bytes, and keeps its length wherever they end behind it.** -/
theorem frameSize_eq_ok {size : Nat} (h : frameSize bytes start stop = .ok size) :
    start + size ≤ stop
      ∧ ∀ stop', start + size ≤ stop' → frameSize bytes start stop' = .ok size := by
  unfold frameSize at h ⊢
  rcases hread : HeaderScan.read bytes start stop with e | scan
  · rw [hread] at h
    cases h
  · obtain ⟨length, rfl⟩ | hwhole := HeaderScan.read_eq_ok hread
    · rw [hread] at h
      cases h
    · rw [hread] at h
      cases hwhole with
      | skippable hmagic hskip hsize =>
          obtain ⟨height, hwithin, hsame⟩ := skippableSize_eq_ok h
          refine ⟨hwithin, fun stop' hfits => ?_⟩
          rw [(WholeHeader.skippable hmagic hskip hsize).read_eq
            (Nat.le_trans (Nat.add_le_add_left height start) hfits)]
          exact hsame stop' hfits
      | @frame header hmagic hsize hlength hfields =>
          dsimp only at h
          rcases hblocks : blocksEnd bytes (start + header.size) stop with e | last
          · rw [hblocks] at h
            cases h
          · rw [hblocks] at h
            dsimp only at h
            obtain ⟨hbehind, hwithin⟩ := blocksEnd_le hblocks
            have hagain : ∀ stop', last ≤ stop' → HeaderScan.read bytes start stop' = .ok (.frame header)
                ∧ blocksEnd bytes (start + header.size) stop' = .ok last := fun stop' hle =>
              ⟨(WholeHeader.frame hmagic hsize hlength hfields).read_eq
                (show start + header.size ≤ stop' by omega), blocksEnd_of_fits hblocks hle⟩
            by_cases hchecksum : header.checksum = true
            · rw [if_pos hchecksum] at h
              split at h
              · cases h
              · cases h
                refine ⟨by omega, fun stop' hfits => ?_⟩
                obtain ⟨hscan, hlast⟩ := hagain stop' (by omega)
                simp only [hscan, hlast, if_pos hchecksum]
                rw [if_neg (by omega)]
            · rw [if_neg hchecksum] at h
              cases h
              refine ⟨by omega, fun stop' hfits => ?_⟩
              obtain ⟨hscan, hlast⟩ := hagain stop' (by omega)
              simp only [hscan, hlast, if_neg hchecksum]

/-- A frame ends with its last block, or with the four octets of its checksum behind it. -/
theorem blocksEnd_of_frameSize {header : FrameHeader} {size : Nat}
    (hread : HeaderScan.read bytes start stop = .ok (.frame header))
    (h : frameSize bytes start stop = .ok size) :
    ∃ last, blocksEnd bytes (start + header.size) stop = .ok last
      ∧ start + size = last + (if header.checksum then 4 else 0) := by
  unfold frameSize at h
  rw [hread] at h
  dsimp only at h
  rcases hblocks : blocksEnd bytes (start + header.size) stop with e | last
  · rw [hblocks] at h
    cases h
  · rw [hblocks] at h
    dsimp only at h
    have hbehind := (blocksEnd_le hblocks).1
    refine ⟨last, rfl, ?_⟩
    split at h
    · rename_i hchecksum
      rw [if_pos hchecksum]
      split at h
      · cases h
      · cases h
        omega
    · rename_i hchecksum
      rw [if_neg hchecksum]
      cases h
      omega

/-- A frame is found where its last block ends, or its checksum behind that. -/
theorem frameSize_of_blocksEnd {header : FrameHeader} {last : Nat}
    (hread : HeaderScan.read bytes start stop = .ok (.frame header))
    (hlast : blocksEnd bytes (start + header.size) stop = .ok last)
    (hend : last + (if header.checksum then 4 else 0) ≤ stop) :
    frameSize bytes start stop = .ok (last + (if header.checksum then 4 else 0) - start) := by
  unfold frameSize
  rw [hread]
  dsimp only
  rw [hlast]
  dsimp only
  split
  · rename_i hchecksum
    rw [if_pos hchecksum] at hend
    exact if_neg (by omega)
  · rfl

end Fits

/-- **A whole frame is found wherever it stands.** -/
theorem StandsAt.frameSize_whole {bytes frame : ByteArray} {i : Nat} (h : StandsAt bytes i frame)
    (hframe : frameSize frame 0 frame.size = .ok frame.size) :
    frameSize bytes i bytes.size = .ok frame.size :=
  (frameSize_eq_ok ((h.frameSize_eq 0 (Nat.le_refl _)).trans hframe)).2 _ h.le

end SharedDictionary
