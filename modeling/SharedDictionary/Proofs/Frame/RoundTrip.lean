import SharedDictionary.Proofs.Frame.CopyBlock
import SharedDictionary.Proofs.Frame.Plan
import SharedDictionary.Proofs.Frame.ValidDecoding
import SharedDictionary.Proofs.Frame.WrittenHeader

/-!
# A frame that is written is decoded to its content

Encoder and decoder share one picture.  Let the *target* be the history with the content behind it.
A decoder that has read the blocks of some pieces holds the target up to a position, and the block
of the next piece moves that position to the piece's end (`decodeBlock_pushPiece`), whatever the
decoder hands on from block to block.  A frame that is written has a window for all its content, so
that nothing of the target is ever out of reach, and by induction on the pieces the blocks of a plan
hold the content (`holdsBlocks_pushPieces`).

So a frame that is written is valid (`validFrame_encodeFrame`), and what is known of valid frames holds
of it: it is found whole wherever it stands (`frameSize_encodeFrame`) and decoded to its content
(`decodeWhole_encodeFrame`).
-/

namespace SharedDictionary

open SharedDictionary.Entropy

/-! ### Growing towards the target -/

section Growing

variable {target : ByteArray} {position length : Nat}

theorem size_extract_zero (h : position ≤ target.size) :
    (target.extract 0 position).size = position := by
  rw [ByteArray.size_extract, Nat.min_eq_left h, Nat.sub_zero]

theorem size_extract_length (h : position + length ≤ target.size) :
    (target.extract position (position + length)).size = length := by
  rw [ByteArray.size_extract, Nat.min_eq_left h, Nat.add_sub_cancel_left]

/-- A part that reaches into the content holds all of the history. -/
theorem extract_zero_append (history content : ByteArray) (done : Nat) :
    (history ++ content).extract 0 (history.size + done) = history ++ content.extract 0 done := by
  have hall : history.extract 0 (history.size + done) = history := by
    rw [← extract_min_size, Nat.min_eq_right (Nat.le_add_right _ _), ByteArray.extract_zero_size]
  rw [ByteArray.extract_append, hall, Nat.zero_sub, Nat.add_sub_cancel_left]

/-- A run that repeats the octet at its start. -/
theorem pushRun_extract {octet : UInt8} (h : position + length ≤ target.size)
    (hsame : ∀ k < length, octetAt target (position + k) = octet) :
    pushRun (target.extract 0 position) octet length = target.extract 0 (position + length) := by
  induction length generalizing position with
  | zero => rfl
  | succ length ih =>
      have hfirst : octetAt target position = octet := hsame 0 (Nat.succ_pos length)
      have hrest : ∀ k < length, octetAt target (position + 1 + k) = octet := by
        intro k hk
        rw [Nat.add_assoc, Nat.add_comm 1]
        exact hsame (k + 1) (Nat.succ_lt_succ hk)
      rw [pushRun, ← hfirst, push_octetAt_extract (by omega), hfirst, ih (by omega) hrest,
        Nat.add_assoc, Nat.add_comm 1]

/-- A copy of what stands before it, which may reach into the copy itself. -/
theorem copyBack_extract {distance : Nat} (h : position + length ≤ target.size)
    (hpos : 1 ≤ distance) (hreach : distance ≤ position)
    (hsame : ∀ k < length,
      octetAt target (position + k - distance) = octetAt target (position + k)) :
    copyBack (target.extract 0 position) distance length
      = target.extract 0 (position + length) := by
  induction length generalizing position with
  | zero => rfl
  | succ length ih =>
      have hrest : ∀ k < length, octetAt target (position + 1 + k - distance)
          = octetAt target (position + 1 + k) := by
        intro k hk
        rw [Nat.add_assoc, Nat.add_comm 1]
        exact hsame (k + 1) (Nat.succ_lt_succ hk)
      have hfirst : octetAt (target.extract 0 position) (position - distance)
          = octetAt target position := by
        rw [octetAt_extract (by omega) (by omega), Nat.zero_add]
        exact hsame 0 (Nat.succ_pos length)
      rw [copyBack_succ, size_extract_zero (by omega), hfirst, push_octetAt_extract (by omega),
        ih (by omega) (by omega) hrest, Nat.add_assoc, Nat.add_comm 1]

end Growing

/-! ### One piece -/

section Piece

variable {bytes target : ByteArray} {blockLimit position i : Nat} {piece : Piece}

/-- The header of the block of a piece. -/
def Piece.header (last : Bool) : Piece → BlockHeader
  | .raw length => ⟨.raw, last, length⟩
  | .run length => ⟨.run, last, length⟩
  | .copy distance length => ⟨.compressed, last, (copyBlock distance length).size⟩

@[simp] theorem Piece.last_header (last : Bool) (piece : Piece) :
    (piece.header last).last = last := by
  cases piece <;> rfl

/-- What the block of a piece holds behind its header. -/
def Piece.body (target : ByteArray) (position : Nat) : Piece → ByteArray
  | .raw length => target.extract position (position + length)
  | .run _ => ByteArray.empty.push (octetAt target position)
  | .copy distance length => copyBlock distance length

theorem pushPiece_eq (out target : ByteArray) (position : Nat) (last : Bool) (piece : Piece) :
    pushPiece out target position last piece
      = out ++ (pushBlockHeader ByteArray.empty (piece.header last) ++ piece.body target position) := by
  cases piece with
  | raw length => rw [pushPiece, pushRange, pushBlockHeader_eq, ByteArray.append_assoc]; rfl
  | run length => rw [pushPiece, push_eq_append, pushBlockHeader_eq, ByteArray.append_assoc]; rfl
  | copy distance length =>
      simp only [pushPiece]
      rw [pushBlockHeader_eq, ByteArray.append_assoc]
      rfl

/-- The header of a piece's block tells how long the block is. -/
theorem Piece.Fits.stored_header (h : piece.Fits target blockLimit position) (last : Bool) :
    (piece.header last).stored = (piece.body target position).size := by
  cases piece with
  | raw length => exact (size_extract_length h.2).symm
  | run length => rfl
  | copy distance length => rfl

theorem Piece.Fits.length_header_lt (h : piece.Fits target blockLimit position)
    (hlimit : blockLimit ≤ maxBlockSize) (last : Bool) : (piece.header last).length < 2 ^ 20 := by
  simp only [maxBlockSize] at hlimit
  cases piece with
  | raw length =>
      have hle := h.1
      show length < 2 ^ 20
      omega
  | run length =>
      have hle := h.1
      show length < 2 ^ 20
      omega
  | copy distance length =>
      obtain ⟨hle, -, hmin, hpos, -, hfar, -⟩ := h
      have hsize := (size_copyBlock hmin (by simp only [maxBlockSize]; omega) hpos hfar).2
      show (copyBlock distance length).size < 2 ^ 20
      omega

/-- **The block of a piece moves the window to the end of the piece**, whatever the decoder holds. -/
theorem decodeBlock_pushPiece (space : BlockSpace) (d : BlockDecoder) (last : Bool)
    (hfits : piece.Fits target blockLimit position) (hlimit : blockLimit ≤ maxBlockSize)
    (hspace : blockLimit ≤ space.blockLimit) (hroom : piece.length ≤ space.room)
    (h : StandsAt bytes i (piece.body target position)) :
    ∃ d', decodeBlock space d (target.extract 0 position) (piece.header last) bytes i
      = .ok (d', target.extract 0 (position + piece.length)) := by
  cases piece with
  | raw length =>
      change length ≤ space.room at hroom
      refine ⟨d, ?_⟩
      have hbody := h.extract_eq
      simp only [Piece.body] at hbody
      rw [size_extract_length hfits.2] at hbody
      have hdecode : decodeBlock space d (target.extract 0 position)
          ((Piece.raw length).header last) bytes i
            = .ok (d, pushRange (target.extract 0 position) bytes i length) :=
        if_neg (Nat.not_lt.mpr hroom)
      rw [hdecode, pushRange, hbody,
        ← ByteArray.extract_eq_extract_append_extract position (Nat.zero_le _)
          (Nat.le_add_right _ _)]
      rfl
  | run length =>
      change length ≤ space.room at hroom
      obtain ⟨-, hend, hsame⟩ := hfits
      refine ⟨d, ?_⟩
      have hoctet : octetAt bytes i = octetAt target position :=
        h.octetAt_eq (j := 0) Nat.one_pos
      have hdecode : decodeBlock space d (target.extract 0 position)
          ((Piece.run length).header last) bytes i
            = .ok (d, pushRun (target.extract 0 position) (octetAt bytes i) length) :=
        if_neg (Nat.not_lt.mpr hroom)
      rw [hdecode, hoctet, pushRun_extract hend hsame]
      rfl
  | copy distance length =>
      obtain ⟨hle, hend, hmin, hpos, hreach, hfar, hsame⟩ := hfits
      have hwindow : distance ≤ (target.extract 0 position).size := by
        rwa [size_extract_zero (by omega)]
      obtain ⟨d', hdecode⟩ := decodeCompressed_copyBlock d h hmin (Nat.le_trans hle hlimit)
        (Nat.le_trans hle hspace) hroom hpos hfar hwindow
      refine ⟨d', ?_⟩
      simp only [decodeBlock, Piece.header, Piece.length]
      rw [hdecode, copyBack_extract hend hpos hreach hsame]

end Piece

/-! ### All pieces -/

section Pieces

variable {bytes target : ByteArray} {blockLimit position i : Nat}

theorem pushPieces_eq (out target : ByteArray) (position : Nat) (pieces : List Piece) :
    pushPieces out target position pieces
      = out ++ pushPieces ByteArray.empty target position pieces := by
  induction pieces generalizing out position with
  | nil => simp [pushPieces]
  | cons piece rest ih =>
      rw [pushPieces, pushPieces, ih, ih (pushPiece ByteArray.empty _ _ _ _), pushPiece_eq,
        pushPiece_eq ByteArray.empty, ByteArray.empty_append, ByteArray.append_assoc]

/-- The blocks of some pieces: the header of the first, its body, and the blocks of the rest. -/
theorem pushPieces_cons (target : ByteArray) (position : Nat) (piece : Piece) (rest : List Piece) :
    pushPieces ByteArray.empty target position (piece :: rest)
      = pushBlockHeader ByteArray.empty (piece.header rest.isEmpty)
        ++ (piece.body target position
          ++ pushPieces ByteArray.empty target (position + piece.length) rest) := by
  rw [pushPieces, pushPieces_eq, pushPiece_eq, ByteArray.empty_append, ByteArray.append_assoc]

/-- Where the blocks of some pieces stand, the first block is found, and the blocks of the rest stand
behind it. -/
private theorem first_block {piece : Piece} {rest : List Piece}
    (hlimit : blockLimit ≤ maxBlockSize) (hfits : piece.Fits target blockLimit position)
    (h : StandsAt bytes i (pushPieces ByteArray.empty target position (piece :: rest))) :
    BlockHeader.read bytes i bytes.size = .ok (piece.header rest.isEmpty)
      ∧ StandsAt bytes (i + BlockHeader.size) (piece.body target position)
      ∧ StandsAt bytes ((piece.header rest.isEmpty).endAfter i)
          (pushPieces ByteArray.empty target (position + piece.length) rest)
      ∧ i + (pushPieces ByteArray.empty target position (piece :: rest)).size
        = (piece.header rest.isEmpty).endAfter i
          + (pushPieces ByteArray.empty target (position + piece.length) rest).size := by
  have hstop := h.le
  rw [pushPieces_cons] at h hstop ⊢
  rw [standsAt_append, standsAt_append, size_pushBlockHeader] at h
  obtain ⟨hheader, hbody, hrest⟩ := h
  rw [ByteArray.size_append, ByteArray.size_append, size_pushBlockHeader] at hstop ⊢
  rw [ByteArray.size_empty, Nat.zero_add] at hbody hrest hstop ⊢
  have hend : (piece.header rest.isEmpty).endAfter i
      = i + BlockHeader.size + (piece.body target position).size := by
    rw [BlockHeader.endAfter, hfits.stored_header]
  refine ⟨BlockHeader.read_written hheader (hfits.length_header_lt hlimit _) (by omega), hbody, ?_,
    by omega⟩
  rwa [hend]

end Pieces

/-! ### Blocks that hold the content -/

section Blocks

variable {header : FrameHeader} {bytes history content : ByteArray} {i : Nat}
  (hwindow : content.size ≤ header.windowSize)

include hwindow

/-- **The block of a piece holds the content up to its end**, while all of the content is within the window. -/
theorem holdsBlock_pushPiece {piece : Piece} {last : Bool} {done : Nat} (state : CodingState)
    (hfits : piece.Fits (history ++ content) header.blockLimit (history.size + done))
    (hread : BlockHeader.read bytes i bytes.size = .ok (piece.header last))
    (hinside : (piece.header last).endAfter i ≤ bytes.size)
    (h : StandsAt bytes (i + BlockHeader.size)
      (piece.body (history ++ content) (history.size + done))) :
    ∃ state', HoldsBlock header bytes i (header.reach history (content.extract 0 done)) state
      (piece.header last) state' (content.extract done (done + piece.length)) := by
  obtain ⟨hlength, hpiece⟩ := hfits.length_le
  rw [ByteArray.size_append, Nat.add_assoc, Nat.add_le_add_iff_left] at hpiece
  have hadded : (content.extract done (done + piece.length)).size = piece.length :=
    size_extract_length hpiece
  have hreach : header.reach history (content.extract 0 done)
      = (history ++ content).extract 0 (history.size + done) := by
    rw [FrameHeader.reach, size_extract_zero (by omega), if_pos (by omega), extract_zero_append]
  have hgrown : header.reach history (content.extract 0 done) ++ content.extract done (done + piece.length)
      = (history ++ content).extract 0 (history.size + done + piece.length) := by
    rw [hreach, extract_zero_append, ByteArray.append_assoc, Nat.add_assoc, extract_zero_append,
      ← ByteArray.extract_eq_extract_append_extract done (Nat.zero_le _) (Nat.le_add_right _ _)]
  obtain ⟨⟨state', cold⟩, hdecode⟩ := decodeBlock_pushPiece ⟨piece.length, header.blockLimit, false⟩
    ⟨state, false⟩ last hfits (Nat.min_le_right _ _) (Nat.le_refl _) (Nat.le_refl _) h
  refine ⟨state', hread, hinside, by rw [hadded]; exact hlength, cold, ?_⟩
  rw [hadded, hgrown, hreach]
  exact hdecode

/-- **The blocks of a plan hold the rest of the content**, whatever tables they start with. -/
theorem holdsBlocks_pushPieces {pieces : List Piece} (done : Nat) (state : CodingState) (hne : pieces ≠ [])
    (hcuts : Cuts (history ++ content) header.blockLimit (history.size + done) pieces
      (history ++ content).size)
    (h : StandsAt bytes i
      (pushPieces ByteArray.empty (history ++ content) (history.size + done) pieces)) :
    HoldsBlocks header bytes history i state (content.extract 0 done)
      (i + (pushPieces ByteArray.empty (history ++ content) (history.size + done) pieces).size)
      content := by
  -- The header of the first block says whether others follow, and so the rest is looked at.
  induction pieces generalizing done i state with
  | nil => exact absurd rfl hne
  | cons piece rest ih =>
      obtain ⟨hfits, hcuts⟩ := hcuts
      obtain ⟨hread, hbody, hrest, hsize⟩ := first_block (Nat.min_le_right _ _) hfits h
      have hinside : (piece.header rest.isEmpty).endAfter i ≤ bytes.size := by
        have hle := hrest.le
        omega
      obtain ⟨state', hblock⟩ := holdsBlock_pushPiece hwindow state hfits hread hinside hbody
      have hgrown : content.extract 0 done ++ content.extract done (done + piece.length)
          = content.extract 0 (done + piece.length) :=
        (ByteArray.extract_eq_extract_append_extract done (Nat.zero_le _) (Nat.le_add_right _ _)).symm
      rw [hsize]
      cases rest with
      | nil =>
          have htotal : history.size + done + piece.length = (history ++ content).size := hcuts
          rw [ByteArray.size_append, Nat.add_assoc, Nat.add_left_cancel_iff] at htotal
          have hlast := HoldsBlocks.last hblock (Piece.last_header _ _)
          rw [hgrown, htotal, ByteArray.extract_zero_size] at hlast
          exact hlast
      | cons next rest =>
          refine .more hblock (Piece.last_header _ _) ?_
          rw [hgrown]
          rw [Nat.add_assoc] at hcuts hrest ⊢
          exact ih (done + piece.length) state' (by simp) hcuts hrest

end Blocks

/-! ### Whole frames -/

section Frame

variable {dict : LoadedDictionary} {checksum : Bool} {bytes content : ByteArray} {i stop : Nat}

/-- The pieces of the content of a frame. -/
private def framePieces (dict : LoadedDictionary) (content : ByteArray) : List Piece :=
  plan .bySlot (dict.history ++ content) (copyBase dict) dict.history.size
    (min content.size maxBlockSize)

/-- What ends a frame. -/
private def frameEnd (dict : LoadedDictionary) (checksum : Bool) (content : ByteArray) : ByteArray :=
  if checksum then
    pushLittleEndian ByteArray.empty
      (Checksum.low (dict.history ++ content) dict.history.size content.size) 4
  else ByteArray.empty

private theorem encodeFrame_eq (dict : LoadedDictionary) (checksum : Bool) (content : ByteArray) :
    encodeFrame dict checksum content
      = pushFrameHeader ByteArray.empty content.size dict.id checksum
        ++ (pushPieces ByteArray.empty (dict.history ++ content) dict.history.size
            (framePieces dict content)
          ++ frameEnd dict checksum content) := by
  rw [encodeFrame, frameEnd]
  cases checksum
  · rw [if_neg Bool.false_ne_true, if_neg Bool.false_ne_true, ByteArray.append_empty, pushPieces_eq]
    rfl
  · rw [if_pos rfl, if_pos rfl, pushLittleEndian_eq, pushPieces_eq, ByteArray.append_assoc]
    rfl

private theorem cuts_framePieces (dict : LoadedDictionary) (content : ByteArray) :
    Cuts (dict.history ++ content) (min content.size maxBlockSize) dict.history.size
        (framePieces dict content) (dict.history ++ content).size
      ∧ framePieces dict content ≠ [] := by
  have hsize : (dict.history ++ content).size = dict.history.size + content.size :=
    ByteArray.size_append
  refine cuts_plan _ _ (by omega) fun hsome => ?_
  simp only [maxBlockSize]
  omega

/-- Where a frame stands, its header, its blocks and what ends it stand behind each other. -/
private theorem parts_of_frame (h : StandsAt bytes i (encodeFrame dict checksum content)) :
    StandsAt bytes i (pushFrameHeader ByteArray.empty content.size dict.id checksum)
      ∧ StandsAt bytes (i + (writtenHeader content.size dict.id checksum).size)
          (pushPieces ByteArray.empty (dict.history ++ content) dict.history.size
            (framePieces dict content))
      ∧ StandsAt bytes (i + (writtenHeader content.size dict.id checksum).size
          + (pushPieces ByteArray.empty (dict.history ++ content) dict.history.size
            (framePieces dict content)).size) (frameEnd dict checksum content) := by
  rw [encodeFrame_eq, standsAt_append, standsAt_append, size_pushFrameHeader,
    ByteArray.size_empty, Nat.zero_add] at h
  exact h

private theorem size_encodeFrame (dict : LoadedDictionary) (checksum : Bool)
    (content : ByteArray) :
    (encodeFrame dict checksum content).size
      = (writtenHeader content.size dict.id checksum).size
        + (pushPieces ByteArray.empty (dict.history ++ content) dict.history.size
            (framePieces dict content)).size
        + (if checksum then 4 else 0) := by
  have hend : (frameEnd dict checksum content).size = if checksum then 4 else 0 := by
    rw [frameEnd]
    cases checksum
    · rfl
    · exact size_pushLittleEndian _ _ _
  rw [encodeFrame_eq, ByteArray.size_append, ByteArray.size_append, size_pushFrameHeader, hend,
    ByteArray.size_empty, Nat.zero_add, Nat.add_assoc]

/-- The header of a frame is read wherever the frame stands. -/
theorem HeaderScan.read_encodeFrame (h : StandsAt bytes i (encodeFrame dict checksum content))
    (hsize : content.size < 2 ^ 64 - 1) (hid : dict.id < 2 ^ 32)
    (hstop : i + (encodeFrame dict checksum content).size ≤ stop) :
    HeaderScan.read bytes i stop
      = .ok (.frame (writtenHeader content.size dict.id checksum)) := by
  obtain ⟨hheader, -⟩ := parts_of_frame h
  rw [size_encodeFrame] at hstop
  exact HeaderScan.read_written hheader hsize hid (by omega)

/-- A frame opens with the bytes of the magic number. -/
theorem standsAt_magic_encodeFrame (dict : LoadedDictionary) (checksum : Bool)
    (content : ByteArray) :
    StandsAt (encodeFrame dict checksum content) 0
      (pushLittleEndian ByteArray.empty frameMagic 4) :=
  standsAt_magic_written (parts_of_frame (standsAt_self (encodeFrame dict checksum content))).1

/-- **A frame with a checksum ends with that of its content**, whatever history it was written with. -/
theorem standsAt_trailer_encodeFrame (dict : LoadedDictionary) (content : ByteArray) :
    StandsAt (encodeFrame dict true content) ((encodeFrame dict true content).size - 4)
      (pushLittleEndian ByteArray.empty (Checksum.low content 0 content.size) 4) := by
  obtain ⟨-, -, hend⟩ := parts_of_frame (standsAt_self (encodeFrame dict true content))
  have hposition : (encodeFrame dict true content).size - 4
      = 0 + (writtenHeader content.size dict.id true).size
        + (pushPieces ByteArray.empty (dict.history ++ content) dict.history.size
          (framePieces dict content)).size := by
    rw [size_encodeFrame, if_pos rfl]
    omega
  rw [frameEnd, if_pos rfl, (standsAt_append_right dict.history content).low_eq] at hend
  rw [hposition]
  exact hend

/-- **A frame that is written is valid**, with its content, for whoever has its history. -/
theorem validFrame_encodeFrame {given : Option LoadedDictionary} (checksum : Bool)
    (hhistory : (startingPoint given).1 = dict.history)
    (hgiven : dict.id = 0 ∨ dict.id = availableId given) (hid : dict.id < 2 ^ 32)
    (hsize : content.size < 2 ^ 64 - 1) :
    ValidFrame given (encodeFrame dict checksum content) (writtenHeader content.size dict.id checksum)
      content := by
  have hstands := standsAt_self (encodeFrame dict checksum content)
  obtain ⟨-, hblocks, -⟩ := parts_of_frame hstands
  obtain ⟨hcuts, hne⟩ := cuts_framePieces dict content
  rw [Nat.zero_add] at hblocks
  refine ⟨HeaderScan.read_encodeFrame hstands hsize hid (Nat.le_of_eq (Nat.zero_add _)), ?_,
    ⟨_, ?_, size_encodeFrame dict checksum content⟩, ?_⟩
  · rw [checkDictionary, dictId_writtenHeader, if_neg (by omega)]
  · have hholds : HoldsBlocks (writtenHeader content.size dict.id checksum)
        (encodeFrame dict checksum content) dict.history _ (startingPoint given).2
        (content.extract 0 0) _ content :=
      holdsBlocks_pushPieces (Nat.le_refl content.size) 0 _ hne hcuts hblocks
    rw [ByteArray.extract_same] at hholds
    rw [hhistory]
    exact hholds
  · refine ⟨?_, ?_⟩
    · rintro declared ⟨⟩
      rfl
    · intro hchecksum
      obtain rfl : checksum = true := hchecksum
      have hlow : Checksum.low content 0 content.size < 256 ^ 4 := Nat.mod_lt _ (by decide)
      rw [(standsAt_trailer_encodeFrame dict content).littleEndian_number, Nat.mod_eq_of_lt hlow]

/-- **A whole frame is decoded to its content**, into a range that holds just the content. -/
theorem decodeWhole_encodeFrame {given : Option LoadedDictionary} (checksum : Bool)
    (hhistory : (startingPoint given).1 = dict.history)
    (hgiven : dict.id = 0 ∨ dict.id = availableId given) (hid : dict.id < 2 ^ 32)
    (hsize : content.size < 2 ^ 64 - 1) :
    decodeWhole given (encodeFrame dict checksum content) content.size = .ok content :=
  (validFrame_encodeFrame checksum hhistory hgiven hid hsize).decodeWhole_eq

/-- A frame that is written is valid for whoever has the dictionary that it was written with. -/
theorem validFrame_encodeFrame_self (checksum : Bool) (hid : dict.id < 2 ^ 32)
    (hsize : content.size < 2 ^ 64 - 1) :
    ValidFrame (some dict) (encodeFrame dict checksum content)
      (writtenHeader content.size dict.id checksum) content :=
  validFrame_encodeFrame checksum rfl (.inr rfl) hid hsize

/-- **The length of a frame is found without decoding it**, wherever the frame stands. -/
theorem frameSize_encodeFrame (h : StandsAt bytes i (encodeFrame dict checksum content))
    (hsize : content.size < 2 ^ 64 - 1) (hid : dict.id < 2 ^ 32)
    (hstop : i + (encodeFrame dict checksum content).size ≤ stop) :
    frameSize bytes i stop = .ok (encodeFrame dict checksum content).size :=
  (frameSize_eq_ok (h.frameSize_whole (validFrame_encodeFrame_self checksum hid hsize).frameSize_eq)).2
    stop hstop

/-- **A whole frame that names a dictionary is refused without it**, whatever it contains. -/
theorem decodeWhole_encodeFrame_of_ne {given : Option LoadedDictionary} (checksum : Bool)
    (hnamed : dict.id ≠ 0) (hother : dict.id ≠ availableId given) (hid : dict.id < 2 ^ 32)
    (hsize : content.size < 2 ^ 64 - 1) (capacity : Nat) :
    decodeWhole given (encodeFrame dict checksum content) capacity = .error .wrongDictionary := by
  have hvalid := validFrame_encodeFrame_self checksum hid hsize
  have hcheck : checkDictionary given (writtenHeader content.size dict.id checksum)
      = .error .wrongDictionary := by
    rw [checkDictionary, dictId_writtenHeader, if_pos ⟨hnamed, hother⟩]
  rw [decodeWhole_of_frame hvalid.opens, decodeFrame, hvalid.readFrameHeader_eq]
  dsimp only
  rw [hcheck]

end Frame

end SharedDictionary
