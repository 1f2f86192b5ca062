import SharedDictionary.Frame.Header
import SharedDictionary.Proofs.Bytes.Standing

/-!
# Headers that are written are read back

A frame's header is written with the shortest fields, and a block's header always takes three bytes.
Wherever such a header stands, with any bytes around it, the reader finds exactly the fields that
were written: `HeaderScan.read_written` for frames and `BlockHeader.read_written` for blocks.
-/

namespace SharedDictionary

/-! ### The header of a frame -/

/-- The descriptor of a header that is written. -/
def writtenDescriptor (contentSize dictId : Nat) (checksum : Bool) : Nat :=
  (contentSizeForm contentSize).1 * 64 + 32 + (if checksum then 4 else 0) + (idForm dictId).1

/-- The header that is read where one was written. -/
def writtenHeader (contentSize dictId : Nat) (checksum : Bool) : FrameHeader where
  contentSize := some contentSize
  windowSize := contentSize
  dictId := dictId
  checksum := checksum
  size := FrameHeader.lengthOf (writtenDescriptor contentSize dictId checksum)

theorem contentSizeForm_cases (n : Nat) :
    contentSizeForm n = (0, 1) ∧ n < 256
      ∨ contentSizeForm n = (1, 2) ∧ 256 ≤ n ∧ n < 256 + 2 ^ 16
      ∨ contentSizeForm n = (2, 4) ∧ n < 2 ^ 32
      ∨ contentSizeForm n = (3, 8) := by
  unfold contentSizeForm
  split
  · exact Or.inl ⟨rfl, by assumption⟩
  · split
    · exact Or.inr (Or.inl ⟨rfl, by omega, by assumption⟩)
    · split
      · exact Or.inr (Or.inr (Or.inl ⟨rfl, by assumption⟩))
      · exact Or.inr (Or.inr (Or.inr rfl))

theorem idForm_cases (id : Nat) :
    idForm id = (0, 0) ∧ id = 0
      ∨ idForm id = (1, 1) ∧ id < 256
      ∨ idForm id = (2, 2) ∧ id < 2 ^ 16
      ∨ idForm id = (3, 4) := by
  unfold idForm
  split
  · exact Or.inl ⟨rfl, by assumption⟩
  · split
    · exact Or.inr (Or.inl ⟨rfl, by assumption⟩)
    · split
      · exact Or.inr (Or.inr (Or.inl ⟨rfl, by assumption⟩))
      · exact Or.inr (Or.inr (Or.inr rfl))

/-- The parts of a descriptor are read off its bits. -/
private theorem descriptor_parts {sizeBits idBits : Nat} (checksum : Bool) (hsize : sizeBits < 4)
    (hid : idBits < 4) {d : Nat}
    (hd : d = sizeBits * 64 + 32 + (if checksum then 4 else 0) + idBits) :
    d / 64 = sizeBits ∧ d % 4 = idBits ∧ d / 32 % 2 = 1 ∧ d / 8 % 2 = 0
      ∧ (d / 4 % 2 == 1) = checksum ∧ d < 256 := by
  subst hd
  cases checksum
  · refine ⟨by simp; omega, by simp; omega, by simp; omega, by simp; omega, ?_, by simp; omega⟩
    rw [beq_eq_false_iff_ne]
    simp
    omega
  · refine ⟨by simp; omega, by simp; omega, by simp; omega, by simp; omega, ?_, by simp; omega⟩
    rw [beq_iff_eq]
    simp
    omega

section Descriptor

variable (contentSize dictId : Nat) (checksum : Bool)

private theorem writtenDescriptor_parts :
    writtenDescriptor contentSize dictId checksum / 64 = (contentSizeForm contentSize).1
      ∧ writtenDescriptor contentSize dictId checksum % 4 = (idForm dictId).1
      ∧ writtenDescriptor contentSize dictId checksum / 32 % 2 = 1
      ∧ writtenDescriptor contentSize dictId checksum / 8 % 2 = 0
      ∧ (writtenDescriptor contentSize dictId checksum / 4 % 2 == 1) = checksum
      ∧ writtenDescriptor contentSize dictId checksum < 256 := by
  refine descriptor_parts checksum ?_ ?_ rfl
  · rcases contentSizeForm_cases contentSize with ⟨h, -⟩ | ⟨h, -⟩ | ⟨h, -⟩ | h <;> rw [h] <;> decide
  · rcases idForm_cases dictId with ⟨h, -⟩ | ⟨h, -⟩ | ⟨h, -⟩ | h <;> rw [h] <;> decide

theorem writtenDescriptor_lt : writtenDescriptor contentSize dictId checksum < 256 :=
  (writtenDescriptor_parts contentSize dictId checksum).2.2.2.2.2

theorem isSingleSegment_writtenDescriptor :
    FrameHeader.isSingleSegment (writtenDescriptor contentSize dictId checksum) = true := by
  rw [FrameHeader.isSingleSegment, (writtenDescriptor_parts contentSize dictId checksum).2.2.1]
  rfl

theorem windowLength_writtenDescriptor :
    FrameHeader.windowLength (writtenDescriptor contentSize dictId checksum) = 0 := by
  rw [FrameHeader.windowLength, isSingleSegment_writtenDescriptor, if_pos rfl]

theorem contentSizeLength_writtenDescriptor :
    FrameHeader.contentSizeLength (writtenDescriptor contentSize dictId checksum)
      = (contentSizeForm contentSize).2 := by
  rw [FrameHeader.contentSizeLength, (writtenDescriptor_parts contentSize dictId checksum).1,
    isSingleSegment_writtenDescriptor]
  rcases contentSizeForm_cases contentSize with ⟨h, -⟩ | ⟨h, -⟩ | ⟨h, -⟩ | h <;> rw [h] <;> rfl

theorem idLength_writtenDescriptor :
    FrameHeader.idLength (writtenDescriptor contentSize dictId checksum)
      = (idForm dictId).2 := by
  rw [FrameHeader.idLength, (writtenDescriptor_parts contentSize dictId checksum).2.1]
  rcases idForm_cases dictId with ⟨h, -⟩ | ⟨h, -⟩ | ⟨h, -⟩ | h <;> rw [h] <;> rfl

@[simp] theorem contentSize_writtenHeader :
    (writtenHeader contentSize dictId checksum).contentSize = some contentSize := rfl

@[simp] theorem dictId_writtenHeader :
    (writtenHeader contentSize dictId checksum).dictId = dictId := rfl

@[simp] theorem checksum_writtenHeader :
    (writtenHeader contentSize dictId checksum).checksum = checksum := rfl

/-- A header that is written always has a size of the content. -/
theorem six_le_size_writtenHeader :
    6 ≤ (writtenHeader contentSize dictId checksum).size := by
  have hlength : 1 ≤ (contentSizeForm contentSize).2 := by
    rcases contentSizeForm_cases contentSize with ⟨h, -⟩ | ⟨h, -⟩ | ⟨h, -⟩ | h <;> rw [h] <;> decide
  rw [writtenHeader, FrameHeader.lengthOf, contentSizeLength_writtenDescriptor]
  simp only
  omega

end Descriptor

/-- A header is its magic number, its descriptor, the identifier and the size of the content. -/
theorem pushFrameHeader_eq (out : ByteArray) (contentSize dictId : Nat) (checksum : Bool) :
    pushFrameHeader out contentSize dictId checksum =
      out ++ (pushLittleEndian ByteArray.empty frameMagic 4
        ++ pushLittleEndian ByteArray.empty (writtenDescriptor contentSize dictId checksum) 1
        ++ pushLittleEndian ByteArray.empty dictId (idForm dictId).2
        ++ pushLittleEndian ByteArray.empty
            (if (contentSizeForm contentSize).2 = 2 then contentSize - 256 else contentSize)
            (contentSizeForm contentSize).2) := by
  simp only [pushFrameHeader, writtenDescriptor]
  rw [pushLittleEndian_eq, pushLittleEndian_eq (pushLittleEndian _ _ 1),
    pushLittleEndian_eq (pushLittleEndian out _ 4), pushLittleEndian_eq out]
  simp only [ByteArray.append_assoc]

/-- A header has the length that its descriptor tells. -/
theorem size_pushFrameHeader (out : ByteArray) (contentSize dictId : Nat) (checksum : Bool) :
    (pushFrameHeader out contentSize dictId checksum).size
      = out.size + (writtenHeader contentSize dictId checksum).size := by
  simp only [pushFrameHeader_eq, ByteArray.size_append, size_pushLittleEndian,
    ByteArray.size_empty, writtenHeader, FrameHeader.lengthOf, windowLength_writtenDescriptor,
    idLength_writtenDescriptor, contentSizeLength_writtenDescriptor]
  omega

section Written

variable {bytes : ByteArray} {i contentSize dictId : Nat} {checksum : Bool}

/-- What stands where a header was written, field by field. -/
private theorem fields_of_written
    (h : StandsAt bytes i (pushFrameHeader ByteArray.empty contentSize dictId checksum)) :
    littleEndian bytes i 4 = frameMagic
      ∧ byteAt bytes (i + 4) = writtenDescriptor contentSize dictId checksum
      ∧ littleEndian bytes (i + 5) (idForm dictId).2 = dictId % 256 ^ (idForm dictId).2
      ∧ littleEndian bytes (i + 5 + (idForm dictId).2) (contentSizeForm contentSize).2
        = (if (contentSizeForm contentSize).2 = 2 then contentSize - 256 else contentSize)
            % 256 ^ (contentSizeForm contentSize).2 := by
  rw [pushFrameHeader_eq, ByteArray.empty_append, standsAt_append, standsAt_append,
    standsAt_append] at h
  simp only [ByteArray.size_append, size_pushLittleEndian, ByteArray.size_empty,
    Nat.zero_add] at h
  obtain ⟨⟨⟨hmagic, hdescriptor⟩, hid⟩, hsize⟩ := h
  refine ⟨?_, ?_, hid.littleEndian_number, ?_⟩
  · rw [hmagic.littleEndian_number]
    decide
  · have hread := hdescriptor.littleEndian_number
    have hlt := writtenDescriptor_lt contentSize dictId checksum
    rw [littleEndian_succ, littleEndian_zero] at hread
    omega
  · rw [← hsize.littleEndian_number, Nat.add_assoc i 5]

/-- The content size of a header is read back. -/
private theorem contentSize_of_written (hsize : contentSize < 2 ^ 64 - 1) :
    FrameHeader.contentSizeOf (contentSizeForm contentSize).2
        ((if (contentSizeForm contentSize).2 = 2 then contentSize - 256 else contentSize)
          % 256 ^ (contentSizeForm contentSize).2) = some contentSize
      ∧ (if (contentSizeForm contentSize).2 = 2 then
          (if (contentSizeForm contentSize).2 = 2 then contentSize - 256 else contentSize)
            % 256 ^ (contentSizeForm contentSize).2 + 256
        else (if (contentSizeForm contentSize).2 = 2 then contentSize - 256 else contentSize)
            % 256 ^ (contentSizeForm contentSize).2) = contentSize := by
  rcases contentSizeForm_cases contentSize with ⟨h, hn⟩ | ⟨h, hn, hn'⟩ | ⟨h, hn⟩ | h
  all_goals
    rw [h]
    simp [FrameHeader.contentSizeOf]
    omega

/-- The identifier of a header is read back. -/
private theorem dictId_of_written (hid : dictId < 2 ^ 32) :
    dictId % 256 ^ (idForm dictId).2 = dictId := by
  rcases idForm_cases dictId with ⟨h, hn⟩ | ⟨h, hn⟩ | ⟨h, hn⟩ | h
  all_goals
    rw [h]
    simp
    omega

theorem byteAt_descriptor_written
    (h : StandsAt bytes i (pushFrameHeader ByteArray.empty contentSize dictId checksum)) :
    byteAt bytes (i + 4) = writtenDescriptor contentSize dictId checksum :=
  (fields_of_written h).2.1

theorem littleEndian_magic_written
    (h : StandsAt bytes i (pushFrameHeader ByteArray.empty contentSize dictId checksum)) :
    littleEndian bytes i 4 = frameMagic :=
  (fields_of_written h).1

/-- A header that was written opens with the bytes of the magic number. -/
theorem standsAt_magic_written
    (h : StandsAt bytes i (pushFrameHeader ByteArray.empty contentSize dictId checksum)) :
    StandsAt bytes i (pushLittleEndian ByteArray.empty frameMagic 4) := by
  rw [pushFrameHeader_eq, ByteArray.empty_append, standsAt_append, standsAt_append,
    standsAt_append] at h
  exact h.1.1.1

/-- The fields of a header that was written are read back. -/
theorem FrameHeader.readFields_written
    (h : StandsAt bytes i (pushFrameHeader ByteArray.empty contentSize dictId checksum))
    (hsize : contentSize < 2 ^ 64 - 1) (hid : dictId < 2 ^ 32) :
    FrameHeader.readFields bytes i = .ok (writtenHeader contentSize dictId checksum) := by
  obtain ⟨-, hdescriptor, hidRead, hsizeRead⟩ := fields_of_written h
  obtain ⟨hcontent, hwindow⟩ := contentSize_of_written hsize
  obtain ⟨-, -, -, hreserved, hchecksum, -⟩ :=
    writtenDescriptor_parts contentSize dictId checksum
  simp only [FrameHeader.readFields, hdescriptor, hreserved, hchecksum,
    isSingleSegment_writtenDescriptor, windowLength_writtenDescriptor,
    idLength_writtenDescriptor, contentSizeLength_writtenDescriptor, Nat.add_zero, hidRead,
    hsizeRead, dictId_of_written hid, hcontent, hwindow, writtenHeader, if_true, if_false,
    Bool.not_true, Bool.false_and, Nat.zero_ne_one, Bool.false_eq_true]

/-- **A header that was written is read back**, wherever it stands and whatever follows. -/
theorem HeaderScan.read_written {stop : Nat}
    (h : StandsAt bytes i (pushFrameHeader ByteArray.empty contentSize dictId checksum))
    (hsize : contentSize < 2 ^ 64 - 1) (hid : dictId < 2 ^ 32)
    (hstop : i + (writtenHeader contentSize dictId checksum).size ≤ stop) :
    HeaderScan.read bytes i stop
      = .ok (.frame (writtenHeader contentSize dictId checksum)) := by
  have hlength := six_le_size_writtenHeader contentSize dictId checksum
  rw [HeaderScan.read]
  simp only [littleEndian_magic_written h, byteAt_descriptor_written h, if_true]
  rw [if_neg (by omega), if_neg (by simp only [writtenHeader] at hstop; omega),
    FrameHeader.readFields_written h hsize hid]
  rfl

end Written

/-! ### The header of a block -/

theorem pushBlockHeader_eq (out : ByteArray) (b : BlockHeader) :
    pushBlockHeader out b = out ++ pushBlockHeader ByteArray.empty b :=
  pushLittleEndian_eq out _ 3

@[simp] theorem size_pushBlockHeader (out : ByteArray) (b : BlockHeader) :
    (pushBlockHeader out b).size = out.size + BlockHeader.size :=
  size_pushLittleEndian out _ 3

/-- The parts of a block's header are read off its number. -/
private theorem blockNumber_parts {value length : Nat} {kind : BlockKind} {last : Bool}
    (h : value = length * 8 + kind.tag * 2 + (if last then 1 else 0)) :
    (value % 2 == 1) = last ∧ value / 2 % 4 = kind.tag ∧ value / 8 = length := by
  have htag : kind.tag < 4 := by cases kind <;> decide
  cases last
  · rw [if_neg Bool.false_ne_true] at h
    refine ⟨?_, by omega, by omega⟩
    rw [beq_eq_false_iff_ne]
    omega
  · rw [if_pos rfl] at h
    refine ⟨?_, by omega, by omega⟩
    rw [beq_iff_eq]
    omega

/-- **A block's header that was written is read back.** -/
theorem BlockHeader.read_written {bytes : ByteArray} {i stop : Nat} {b : BlockHeader}
    (h : StandsAt bytes i (pushBlockHeader ByteArray.empty b)) (hlength : b.length < 2 ^ 20)
    (hstop : i + BlockHeader.size ≤ stop) : BlockHeader.read bytes i stop = .ok b := by
  obtain ⟨kind, last, length⟩ := b
  simp only at hlength
  have hvalue : littleEndian bytes i 3
      = length * 8 + kind.tag * 2 + (if last then 1 else 0) := by
    have htag : kind.tag < 4 := by cases kind <;> decide
    have hbit : (if last then 1 else 0) ≤ 1 := by cases last <;> decide
    rw [h.littleEndian_number, Nat.mod_eq_of_lt]
    show length * 8 + kind.tag * 2 + (if last then 1 else 0) < 256 ^ 3
    omega
  obtain ⟨hlast, hkind, hlen⟩ := blockNumber_parts hvalue
  rw [BlockHeader.read, if_neg (by omega)]
  simp only [hlast, hkind, hlen]
  cases kind <;> rfl

end SharedDictionary
