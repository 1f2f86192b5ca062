import SharedDictionary.Proofs.Session.Exchange
import SharedDictionary.Session.ChunkStream

/-!
# Streams of frames

A reader that never fails delivers its data in pieces of its own choosing, and yet every chunk but
the last is full: `Reader.fill_eq` says that gathering a chunk forgets how the bytes arrived.

So a stream writes the chunks of its data in order, each as one frame, and a decompressor that
agrees with the stream's compressor reads them back.  `Transcript` is the record of both: which
sessions meet at which chunk, and what passes between them.  A stream produces the frames of a
transcript (`At.itemsFrom_eq`), and a decompressor finds them in their concatenation and reads them
back (`Transcript.decompressFrom_eq`).

The main result is `Pairing.stream_roundTrip`.
-/

namespace SharedDictionary

/-! ### Gathering chunks -/

/-- What a read does that neither fails nor ends the input early. -/
def ReadEvent.Harmless : ReadEvent → Prop
  | .deliver most => 0 < most
  | .interrupted => True
  | .failed _ => False

/-- **A chunk does not depend on how its bytes arrive**: it is filled up with the next bytes of the
data, as far as there are any. -/
theorem Reader.fill_eq {r : Reader} (size : Nat) (chunk : ByteArray)
    (hscript : ∀ e ∈ r.script, e.Harmless) (hposition : r.position ≤ r.data.size)
    (hchunk : chunk.size ≤ size) :
    ∃ script, (∀ e ∈ script, e.Harmless)
      ∧ r.fill size chunk
        = (.ok (chunk ++ r.data.extract r.position (r.position + (size - chunk.size))),
          ⟨r.data, min (r.position + (size - chunk.size)) r.data.size, script⟩) := by
  fun_induction Reader.fill r size chunk with
  | case1 r chunk hfull =>
      have hnone : size - chunk.size = 0 := by omega
      refine ⟨r.script, hscript, ?_⟩
      rw [hnone, Nat.add_zero, ByteArray.extract_same, ByteArray.append_empty,
        Nat.min_eq_left hposition]
  | case2 r chunk hroom hempty chunk' r' hdeliver =>
      have hend : r.position + min (size - chunk.size) (r.data.size - r.position)
          = min (r.position + (size - chunk.size)) r.data.size := by
        omega
      rw [Reader.deliver] at hdeliver
      cases hdeliver
      refine ⟨r.script, hscript, ?_⟩
      rw [pushRange, hend, extract_min_size]
  | case3 r chunk hroom script hnext ih =>
      rw [hnext] at hscript
      exact ih (fun e he => hscript e (List.mem_cons_of_mem _ he)) hposition hchunk
  | case4 r chunk hroom text script hnext =>
      exact absurd (hscript (.failed text) (by rw [hnext]; exact List.mem_cons_self)) id
  | case5 r chunk hroom most script hnext count r' hcount =>
      rw [hnext] at hscript
      have hmost : 0 < most := hscript (.deliver most) List.mem_cons_self
      have hend : r.position = r.data.size := by omega
      refine ⟨script, fun e he => hscript e (List.mem_cons_of_mem _ he), ?_⟩
      rw [← extract_min_size, Nat.min_eq_right (show r.data.size
        ≤ r.position + (size - chunk.size) by omega), ← hend, ByteArray.extract_same,
        ByteArray.append_empty]
  | case6 r chunk hroom most script hnext count r' hcount ih =>
      rw [hnext] at hscript
      have hread : (pushRange chunk r.data r.position count).size = chunk.size + count := by
        rw [pushRange, ByteArray.size_append, ByteArray.size_extract]
        omega
      obtain ⟨script', hscript', hfill⟩ := ih (fun e he => hscript e (List.mem_cons_of_mem _ he))
        (show r.position + count ≤ r.data.size by omega)
        (show (pushRange chunk r.data r.position count).size ≤ size by omega)
      refine ⟨script', hscript', ?_⟩
      have hend : r.position + count + (size - (chunk.size + count))
          = r.position + (size - chunk.size) := by
        omega
      rw [hfill, hread]
      show (Except.ok (pushRange chunk r.data r.position count
          ++ r.data.extract (r.position + count)
            (r.position + count + (size - (chunk.size + count)))),
        (⟨r.data, min (r.position + count + (size - (chunk.size + count))) r.data.size, script'⟩
          : Reader)) = _
      rw [hend, pushRange, ByteArray.append_assoc,
        ← ByteArray.extract_eq_extract_append_extract _ (by omega) (by omega)]

/-! ### Sessions after some frames -/

/-- A compressor after a number of frames. -/
def Compressor.after (c : Compressor) : Nat → Compressor
  | 0 => c
  | k + 1 => c.afterFrame.after k

/-- A decompressor after a number of frames. -/
def Decompressor.after (d : Decompressor) : Nat → Decompressor
  | 0 => d
  | k + 1 => d.afterFrame.after k

theorem Compressor.afterFrame_eq (c : Compressor) :
    c.afterFrame = if c.hasPendingPrefix then ⟨c.config, none⟩ else c := rfl

theorem Decompressor.afterFrame_eq (d : Decompressor) :
    d.afterFrame = if d.hasPendingPrefix then ⟨d.config, none⟩ else d := rfl

/-- A second frame uses up nothing that the first has left. -/
theorem Compressor.afterFrame_afterFrame (c : Compressor) : c.afterFrame.afterFrame = c.afterFrame := by
  by_cases hpending : c.hasPendingPrefix = true
  · rw [c.afterFrame_eq, if_pos hpending]
    rfl
  · rw [c.afterFrame_eq, if_neg hpending, c.afterFrame_eq, if_neg hpending]

theorem Decompressor.afterFrame_afterFrame (d : Decompressor) :
    d.afterFrame.afterFrame = d.afterFrame := by
  by_cases hpending : d.hasPendingPrefix = true
  · rw [d.afterFrame_eq, if_pos hpending]
    rfl
  · rw [d.afterFrame_eq, if_neg hpending, d.afterFrame_eq, if_neg hpending]

/-- Only a prefix is used up, and by the first frame. -/
theorem Compressor.after_succ (c : Compressor) (k : Nat) : c.after (k + 1) = c.afterFrame := by
  induction k generalizing c with
  | zero => rfl
  | succ k ih => rw [after, ih, afterFrame_afterFrame]

theorem Decompressor.after_succ (d : Decompressor) (k : Nat) : d.after (k + 1) = d.afterFrame := by
  induction k generalizing d with
  | zero => rfl
  | succ k ih => rw [after, ih, afterFrame_afterFrame]

/-- A prefix waits until the first frame. -/
theorem Compressor.hasPendingPrefix_after (c : Compressor) (k : Nat) :
    (c.after k).hasPendingPrefix = (c.hasPendingPrefix && k == 0) := by
  cases k with
  | zero => exact (Bool.and_true _).symm
  | succ k =>
      rw [after_succ, afterFrame_eq]
      cases hpending : c.hasPendingPrefix
      · rw [if_neg Bool.false_ne_true, hpending, Bool.false_and]
      · rfl

theorem Decompressor.hasPendingPrefix_after (d : Decompressor) (k : Nat) :
    (d.after k).hasPendingPrefix = (d.hasPendingPrefix && k == 0) := by
  cases k with
  | zero => exact (Bool.and_true _).symm
  | succ k =>
      rw [after_succ, afterFrame_eq]
      cases hpending : d.hasPendingPrefix
      · rw [if_neg Bool.false_ne_true, hpending, Bool.false_and]
      · rfl

/-! ### Transcripts -/

/-- The chunk with a number. -/
def chunkAt (data : ByteArray) (size k : Nat) : ByteArray := data.extract (k * size) ((k + 1) * size)

/-- Byte strings behind each other. -/
def joined (parts : List ByteArray) : ByteArray := parts.foldr (· ++ ·) ByteArray.empty

@[simp] theorem joined_nil : joined [] = ByteArray.empty := rfl

theorem joined_append (first second : List ByteArray) :
    joined (first ++ second) = joined first ++ joined second := by
  induction first with
  | nil => rw [List.nil_append, joined_nil, ByteArray.empty_append]
  | cons part first ih =>
      show part ++ joined (first ++ second) = part ++ joined first ++ joined second
      rw [ih, ByteArray.append_assoc]

theorem joined_cons (part : ByteArray) (parts : List ByteArray) :
    joined (part :: parts) = part ++ joined parts := rfl

/-- The chunks of some data from the one numbered `k` on pass between two sessions as frames.  Each
frame is written and read by the sessions that the frames before it have left, and is found where it
stands. -/
inductive Transcript (data : ByteArray) (size : Nat) :
    Nat → Compressor → Decompressor → List ByteArray → Compressor → Decompressor → Prop
  | done {k : Nat} {c : Compressor} {d : Decompressor} (h : data.size ≤ k * size) :
      Transcript data size k c d [] c d
  | frame {k : Nat} {c c' : Compressor} {d d' : Decompressor} {frame : ByteArray}
      {frames : List ByteArray} (h : k * size < data.size)
      (hencode : c.encode (chunkAt data size k) = .ok frame)
      (hdecode : d.decode frame = .ok (chunkAt data size k))
      (hfound : ∀ bytes i, StandsAt bytes i frame → frameSize bytes i bytes.size = .ok frame.size)
      (rest : Transcript data size (k + 1) c.afterFrame d.afterFrame frames c' d') :
      Transcript data size k c d (frame :: frames) c' d'

section Transcript

variable {data : ByteArray} {size k : Nat} {c c' : Compressor} {d d' : Decompressor}
  {frames : List ByteArray}

theorem size_chunkAt_le (data : ByteArray) (size k : Nat) :
    (chunkAt data size k).size ≤ min size data.size := by
  rw [chunkAt, ByteArray.size_extract, Nat.add_mul, Nat.one_mul]
  omega

@[simp] theorem config_afterFrame (d : Decompressor) : d.afterFrame.config = d.config := by
  rw [Decompressor.afterFrame]
  split <;> rfl

/-- Sessions that agree have a transcript of every data. -/
theorem exists_transcript (hsize : 0 < size) (h : Agree c d)
    (hdata : data.size ≤ Decompressor.maxCapacity)
    (hlimit : min size data.size ≤ d.config.frameLimit) (k : Nat) :
    ∃ frames c' d', Transcript data size k c d frames c' d' := by
  induction hleft : data.size - k * size using Nat.strongRecOn generalizing k c d with
  | ind left ih =>
      by_cases hmore : k * size < data.size
      · have hchunk := size_chunkAt_le data size k
        obtain ⟨frame, hencode, hdecode, hfound⟩ :=
          h.decode_encode (chunkAt data size k) (by omega) (by omega)
        have hnext : (k + 1) * size = k * size + size := Nat.succ_mul k size
        obtain ⟨frames, c', d', hrest⟩ := ih (data.size - (k + 1) * size) (by omega) h.afterFrame
          (by rwa [config_afterFrame]) (k + 1) rfl
        exact ⟨frame :: frames, c', d', .frame hmore hencode hdecode hfound hrest⟩
      · exact ⟨[], c, d, .done (Nat.not_lt.mp hmore)⟩

/-- **The concatenation of the frames is read back.** -/
theorem Transcript.decompressFrom_eq (h : Transcript data size k c d frames c' d')
    {input : ByteArray} {start : Nat} (hstands : StandsAt input start (joined frames))
    (hend : start + (joined frames).size = input.size) (out : ByteArray) :
    d.decompressFrom input start out = (.ok (out ++ data.extract (k * size) data.size), d') := by
  induction h generalizing start out with
  | @done k c d hdone =>
      have hstart : ¬start < input.size := by
        rw [joined_nil, ByteArray.size_empty] at hend
        omega
      have hnothing : data.extract (k * size) data.size = ByteArray.empty :=
        ByteArray.extract_eq_empty_iff.mpr (by omega)
      rw [Decompressor.decompressFrom, if_neg hstart, hnothing, ByteArray.append_empty]
  | @frame k c c' d d' frame frames hmore hencode hdecode hfound rest ih =>
      rw [joined_cons, standsAt_append] at hstands
      rw [joined_cons, ByteArray.size_append, ← Nat.add_assoc] at hend
      obtain ⟨hframe, hframes⟩ := hstands
      have hsize := hfound input start hframe
      have hpos := Decompressor.pos_of_frameSize hsize
      have hread : d.decompressFrame (input.extract start (start + frame.size)) out
          = (.ok (), d.afterFrame, out ++ chunkAt data size k) := by
        rw [hframe.extract_eq, Decompressor.decompressFrame, hdecode]
      rw [Decompressor.decompressFrom, if_pos (by omega)]
      split
      · rename_i herror
        rw [hsize] at herror
        cases herror
      · rename_i found hok
        rw [hsize] at hok
        cases hok
        simp only [hread]
        rw [ih hframes hend, ByteArray.append_assoc, chunkAt,
          extract_append_rest data (Nat.mul_le_mul_right size (Nat.le_succ k))]

/-- What a transcript from a later chunk on looks like: the sessions that the frames before it have
left meet there. -/
theorem Transcript.drop (h : Transcript data size k c d frames c' d') {j : Nat}
    (hj : j ≤ frames.length) :
    Transcript data size (k + j) (c.after j) (d.after j) (frames.drop j) c' d' := by
  induction j generalizing k c d frames with
  | zero => exact h
  | succ j ih =>
      cases h with
      | done hdone => exact absurd hj (Nat.not_succ_le_zero j)
      | frame hmore hencode hdecode hfound rest =>
          have hrest := ih rest (Nat.le_of_succ_le_succ hj)
          rwa [Nat.add_assoc, Nat.add_comm 1] at hrest

/-- A frame is written and read by the sessions that the frames before it have left. -/
theorem Transcript.sessions (h : Transcript data size k c d frames c' d') {j : Nat}
    (hj : j < frames.length) :
    (c.after j).encode (chunkAt data size (k + j)) = .ok frames[j]
      ∧ (d.after j).decode frames[j] = .ok (chunkAt data size (k + j)) := by
  have hdrop := h.drop (Nat.le_of_lt hj)
  rw [List.drop_eq_getElem_cons hj] at hdrop
  cases hdrop with
  | frame hmore hencode hdecode hfound rest => exact ⟨hencode, hdecode⟩

/-- The sessions at the end are those that all frames have left. -/
theorem Transcript.last (h : Transcript data size k c d frames c' d') :
    c' = c.after frames.length ∧ d' = d.after frames.length := by
  have hdrop := h.drop (Nat.le_refl _)
  rw [List.drop_length] at hdrop
  cases hdrop
  exact ⟨rfl, rfl⟩

/-- There are no frames if there are no chunks. -/
theorem Transcript.length_eq_zero_iff (h : Transcript data size k c d frames c' d') :
    frames.length = 0 ↔ data.size ≤ k * size := by
  cases h with
  | done hdone => exact ⟨fun _ => hdone, fun _ => rfl⟩
  | frame hmore _ _ _ _ =>
      refine ⟨fun hnil => absurd hnil (Nat.succ_ne_zero _), fun hdone => ?_⟩
      omega

end Transcript

/-! ### Streams -/

/-- A stream stands in front of a chunk, with a reader that never fails. -/
structure ChunkStream.At (data : ByteArray) (size k : Nat) (c : Compressor)
    (s : ChunkStream Compressor) : Prop where
  data_eq : s.reader.data = data
  position_eq : s.reader.position = min (k * size) data.size
  harmless : ∀ e ∈ s.reader.script, e.Harmless
  chunkSize_eq : s.chunkSize = size
  compressor_eq : s.compressor = c
  running : s.done = false

namespace ChunkStream

variable {data : ByteArray} {size k : Nat} {c c' : Compressor} {d d' : Decompressor}
  {s : ChunkStream Compressor} {frames : List ByteArray}

/-- The chunk that a stream gathers next. -/
private theorem At.fill_eq (h : At data size k c s) :
    ∃ reader, s.reader.fill s.chunkSize ByteArray.empty = (.ok (chunkAt data size k), reader)
      ∧ At data size (k + 1) c { s with reader := reader } := by
  have hnext : (k + 1) * size = k * size + size := Nat.succ_mul k size
  obtain ⟨script, hscript, hfill⟩ := Reader.fill_eq s.chunkSize ByteArray.empty h.harmless
    (by rw [h.position_eq, h.data_eq]; omega) (Nat.zero_le _)
  rw [h.data_eq, h.position_eq, h.chunkSize_eq, ByteArray.empty_append, ByteArray.size_empty,
    Nat.sub_zero] at hfill
  have hposition : min (min (k * size) data.size + size) data.size
      = min ((k + 1) * size) data.size := by
    omega
  have hchunk : data.extract (min (k * size) data.size) (min (k * size) data.size + size)
      = chunkAt data size k := by
    rw [chunkAt, hnext]
    rcases Nat.le_total (k * size) data.size with hinside | hbehind
    · rw [Nat.min_eq_left hinside]
    · rw [Nat.min_eq_right hbehind, ByteArray.extract_eq_empty_iff.mpr (by omega),
        ByteArray.extract_eq_empty_iff.mpr (by omega)]
  rw [hchunk, hposition] at hfill
  refine ⟨_, by rw [h.chunkSize_eq]; exact hfill, ?_⟩
  exact ⟨rfl, rfl, hscript, h.chunkSize_eq, h.compressor_eq, h.running⟩

/-- A stream at the end of its data ends. -/
theorem At.next_done (h : At data size k c s) (hdone : data.size ≤ k * size) :
    ∃ s', s.next = (none, s') ∧ s'.compressor = c := by
  obtain ⟨reader, hfill, hat⟩ := h.fill_eq
  have hempty : chunkAt data size k = ByteArray.empty :=
    ByteArray.extract_eq_empty_iff.mpr (by omega)
  rw [hempty] at hfill
  refine ⟨{ s with reader := reader, done := true }, ?_, h.compressor_eq⟩
  rw [next, if_neg (by rw [h.running]; exact Bool.false_ne_true), hfill]
  rfl

/-- A stream writes its next chunk. -/
theorem At.next_frame (h : At data size k c s) (hmore : k * size < data.size) (hsize : 0 < size)
    {frame : ByteArray} (hencode : c.encode (chunkAt data size k) = .ok frame) :
    ∃ s', s.next = (some (.ok frame), s') ∧ At data size (k + 1) c.afterFrame s' := by
  have hnext : (k + 1) * size = k * size + size := Nat.succ_mul k size
  obtain ⟨reader, hfill, hat⟩ := h.fill_eq
  have hsome : (chunkAt data size k).isEmpty = false := by
    rw [← Bool.not_eq_true, isEmpty_iff, chunkAt, ByteArray.extract_eq_empty_iff]
    omega
  have hwrite : s.compressor.compressFrame (chunkAt data size k) ByteArray.empty
      = (.ok (), c.afterFrame, frame) := by
    rw [h.compressor_eq, Compressor.compressFrame, hencode]
    simp only [ByteArray.empty_append]
  refine ⟨{ s with reader := reader, compressor := c.afterFrame }, ?_, ?_⟩
  · rw [next, if_neg (by rw [h.running]; exact Bool.false_ne_true), hfill]
    simp only [hsome, compressFrame_session, hwrite, Bool.false_eq_true, if_false]
  · exact ⟨hat.data_eq, hat.position_eq, hat.harmless, hat.chunkSize_eq, rfl, hat.running⟩

/-- **A stream yields the frames of a transcript**, and leaves its compressor. -/
theorem At.itemsFrom_eq (h : At data size k c s) (hsize : 0 < size)
    (htranscript : Transcript data size k c d frames c' d')
    (known : List (Except DictError ByteArray)) (fuel : Nat) (hfuel : data.size - k * size < fuel) :
    ∃ s', s.itemsFrom known fuel = (known.reverse ++ frames.map .ok, s') ∧ s'.compressor = c' := by
  induction htranscript generalizing s known fuel with
  | @done k c d hdone =>
      obtain ⟨fuel, rfl⟩ := Nat.exists_eq_add_one.mpr (Nat.lt_of_le_of_lt (Nat.zero_le _) hfuel)
      obtain ⟨s', hend, hcompressor⟩ := h.next_done hdone
      refine ⟨s', ?_, hcompressor⟩
      rw [itemsFrom, hend, List.map_nil, List.append_nil]
  | @frame k c c' d d' frame frames hmore hencode hdecode hfound rest ih =>
      have hnext : (k + 1) * size = k * size + size := Nat.succ_mul k size
      obtain ⟨fuel, rfl⟩ := Nat.exists_eq_add_one.mpr (Nat.lt_of_le_of_lt (Nat.zero_le _) hfuel)
      obtain ⟨s₁, hitem, hat⟩ := h.next_frame hmore hsize hencode
      obtain ⟨s', hitems, hcompressor⟩ := ih hat (.ok frame :: known) fuel (by omega)
      refine ⟨s', ?_, hcompressor⟩
      rw [itemsFrom, hitem]
      simp only
      rw [hitems, List.reverse_cons, List.append_assoc, List.map_cons]
      rfl

/-- A stream of some data starts in front of its first chunk. -/
theorem start_eq (data : ByteArray) {script : List ReadEvent} (hsize : 0 < size)
    (hscript : ∀ e ∈ script, e.Harmless) (c : Compressor) :
    ∃ s, start (.ofScript data script) size c = .ok s ∧ At data size 0 c s
      ∧ s.reader.data = data := by
  refine ⟨⟨.ofScript data script, size, c, false⟩, ?_, ?_, rfl⟩
  · rw [start, if_neg (by omega)]
  · exact ⟨rfl, by rw [Nat.zero_mul, Nat.zero_min]; rfl, hscript, rfl, rfl, rfl⟩

end ChunkStream

/-- **A run over the frames of a transcript meets the sessions of the transcript.**  In front of each
frame stands the decompressor that the frames before it have left, with their content behind it. -/
theorem Transcript.decompressFrames_eq {data : ByteArray} {size : Nat} {c c' : Compressor}
    {d d' : Decompressor} {frames : List ByteArray}
    (h : Transcript data size 0 c d frames c' d') {k : Nat} (hk : k ≤ frames.length) :
    d.decompressFrames (joined frames) = (.ok data, d')
      ∧ d.decompressFrames (joined frames)
        = (d.after k).decompressFrom (joined frames) (joined (frames.take k)).size
            (data.extract 0 (k * size)) := by
  have hwhole : d.decompressFrames (joined frames) = (.ok data, d') := by
    rw [Decompressor.decompressFrames, h.decompressFrom_eq (standsAt_self _) (Nat.zero_add _),
      Nat.zero_mul, ByteArray.extract_zero_size, ByteArray.empty_append]
  have hsplit : joined frames = joined (frames.take k) ++ joined (frames.drop k) := by
    rw [← joined_append, List.take_append_drop]
  have hcontent : data.extract 0 (k * size) ++ data.extract ((0 + k) * size) data.size = data := by
    rw [Nat.zero_add, extract_append_rest data (Nat.zero_le _), ByteArray.extract_zero_size]
  refine ⟨hwhole, hwhole.trans ?_⟩
  rw [(h.drop hk).decompressFrom_eq (by rw [hsplit]; exact standsAt_append_right _ _)
    (by rw [hsplit, ByteArray.size_append]), hcontent]

/-- **Data comes back from a stream.**  Whatever the data and the size of the chunks are, and however
the reader delivers the data, every item of the stream is a frame, and the concatenation of the
frames is decompressed to the data.  The frames are the chunks, each written and read by the
sessions that the frames before it have left, of which only the first can have a prefix; and a
prefix is still pending on both sides at the end exactly if there was no data. -/
theorem Pairing.stream_roundTrip {p : Pairing} {config : SessionConfig} (hp : p.Sound config)
    (config' : SessionConfig) (data : ByteArray) (size : Nat) {script : List ReadEvent}
    (hsize : 0 < size) (hscript : ∀ e ∈ script, e.Harmless)
    (hdata : data.size ≤ Decompressor.maxCapacity)
    (hlimit : min size data.size ≤ config'.frameLimit) :
    ∃ c d s frames, p.compressor config = .ok c ∧ p.decompressor config' = .ok d
      ∧ ChunkStream.start (.ofScript data script) size c = .ok s
      ∧ s.items.1 = frames.map .ok
      ∧ (d.decompressFrames (joined frames)).1 = .ok data
      ∧ (∀ k (hk : k < frames.length),
          (c.after k).encode (chunkAt data size k) = .ok frames[k]
            ∧ (d.after k).decode frames[k] = .ok (chunkAt data size k)
            ∧ d.decompressFrames (joined frames)
              = (d.after k).decompressFrom (joined frames) (joined (frames.take k)).size
                  (data.extract 0 (k * size)))
      ∧ (∀ k, c.after (k + 1) = (if p.takesPrefix then ⟨c.config, none⟩ else c)
          ∧ d.after (k + 1) = if p.takesPrefix then ⟨d.config, none⟩ else d)
      ∧ s.items.2.compressor.hasPendingPrefix = (p.takesPrefix && data.isEmpty)
      ∧ (d.decompressFrames (joined frames)).2.hasPendingPrefix
        = (p.takesPrefix && data.isEmpty) := by
  obtain ⟨c, d, hc, hd, rfl, hprefix, hagree⟩ := hp.agree config'
  obtain ⟨frames, c', d', htranscript⟩ := exists_transcript hsize hagree hdata hlimit 0
  obtain ⟨s, hstart, hat, hreader⟩ := ChunkStream.start_eq data hsize hscript c
  obtain ⟨s', hitems, hcompressor⟩ := hat.itemsFrom_eq hsize htranscript []
    (s.reader.data.size + s.reader.script.length + 1) (by rw [hreader]; omega)
  obtain ⟨hc', hd'⟩ := htranscript.last
  have hlast : (frames.length == 0) = data.isEmpty := by
    rw [Bool.eq_iff_iff, beq_iff_eq, htranscript.length_eq_zero_iff, isEmpty_iff,
      ← ByteArray.size_eq_zero_iff]
    omega
  refine ⟨c, d, s, frames, hc, hd, hstart, ?_, ?_, ?_, ?_, ?_, ?_⟩
  · rw [ChunkStream.items, hitems]
    rfl
  · rw [(htranscript.decompressFrames_eq (Nat.zero_le _)).1]
  · intro k hk
    obtain ⟨hencode, hdecode⟩ := htranscript.sessions hk
    rw [Nat.zero_add] at hencode hdecode
    exact ⟨hencode, hdecode, (htranscript.decompressFrames_eq (Nat.le_of_lt hk)).2⟩
  · intro k
    rw [c.after_succ, c.afterFrame_eq, d.after_succ, d.afterFrame_eq, ← hagree.pending, hprefix]
    exact ⟨rfl, rfl⟩
  · rw [ChunkStream.items, hitems]
    show s'.compressor.hasPendingPrefix = _
    rw [hcompressor, hc', c.hasPendingPrefix_after, hprefix, hlast]
  · rw [(htranscript.decompressFrames_eq (Nat.zero_le _)).1]
    show d'.hasPendingPrefix = _
    rw [hd', d.hasPendingPrefix_after, ← hagree.pending, hprefix, hlast]

/-- Five bytes in chunks of two, with a prefix, from a reader that is interrupted and delivers one byte
at first. -/
theorem Pairing.stream_roundTrip_prefix :
    ∃ c d s frames,
      (views (.new ⟨#[1, 2, 3]⟩ false) .prefixed 3 (.new ⟨#[1, 2, 3]⟩ true) .prefixed).compressor
          .standard = .ok c
      ∧ (views (.new ⟨#[1, 2, 3]⟩ false) .prefixed 3 (.new ⟨#[1, 2, 3]⟩ true) .prefixed).decompressor
          .standard = .ok d
      ∧ ChunkStream.start (.ofScript ⟨#[1, 2, 3, 4, 5]⟩ [.interrupted, .deliver 1]) 2 c = .ok s
      ∧ s.items.1 = frames.map .ok
      ∧ (d.decompressFrames (joined frames)).1 = .ok ⟨#[1, 2, 3, 4, 5]⟩ := by
  have hp : (views (.new ⟨#[1, 2, 3]⟩ false) .prefixed 3 (.new ⟨#[1, 2, 3]⟩ true)
      .prefixed).Sound .standard :=
    ⟨⟨#[1, 2, 3]⟩, false, true, .new, .new, Or.inl ⟨rfl, rfl⟩⟩
  have hscript : ∀ e ∈ [ReadEvent.interrupted, .deliver 1], e.Harmless := by
    intro e he
    rcases List.mem_cons.mp he with rfl | he
    · exact trivial
    · rw [List.mem_singleton.mp he]
      exact Nat.one_pos
  obtain ⟨c, d, s, frames, hc, hd, hs, hitems, hback, -⟩ :=
    stream_roundTrip hp .standard ⟨#[1, 2, 3, 4, 5]⟩ 2 (by decide) hscript
      (by decide) (by decide)
  exact ⟨c, d, s, frames, hc, hd, hs, hitems, hback⟩

end SharedDictionary
