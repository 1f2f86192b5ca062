import SharedDictionary.Proofs.Session.Attempts
import SharedDictionary.Proofs.Session.Streaming

/-!
# The chunks of a stream

A stream asks its reader for what is left of a chunk, and asks again until the chunk is full, the reader
reports the end or a read fails.  So what a reader does to a stream depends on where in a chunk it stands, and
yet nothing of it shows in the items but how much was read, and whether a read failed.

Two kinds of readers are told apart by their scripts.  One reports the end of its data only where it is, and is
never in error (`ReportsEnd`); its stream cuts the data into chunks (`Reader.fill_of_reportsEnd`).  The other
delivers some bytes without reporting an end, and then a read fails (`failure?`); its stream has cut off
as many full chunks as there were, and loses the rest (`Reader.fill_of_failure?`).

A stream carries its compressor from chunk to chunk (`ChunkStream.Stands.asked`), and nothing is assumed of that:
it may write some chunks and refuse a later one.  A session is one of many (`ChunkStream.handed_session`).  What a
stream yields, in order, is `ChunkStream.Yields`, and the main result is `ChunkStream.yields_chunks`.
-/

namespace SharedDictionary

/-! ### What readers do -/

/-- How many bytes a read delivers to a stream that has gathered some of a chunk: it is asked for the rest of
that. -/
def readCount (total size position most : Nat) : Nat :=
  min (min most (size - position % size)) (total - position)

/-- From some position on, reads report the end of the data only where it is, and none fails. -/
def ReportsEnd (total size : Nat) : (position : Nat) → List ReadEvent → Prop
  | _, [] => True
  | position, .interrupted :: script => ReportsEnd total size position script
  | _, .failed _ :: _ => False
  | position, .deliver most :: script =>
    (most = 0 → position = total)
      ∧ ReportsEnd total size (position + readCount total size position most) script

/-- Where a read fails, and with which text, unless a read before it reports an end. -/
def failure? (total size : Nat) : (position : Nat) → List ReadEvent → Option (Nat × String)
  | _, [] => none
  | position, .interrupted :: script => failure? total size position script
  | position, .failed text :: _ => some (position, text)
  | position, .deliver most :: script =>
    if readCount total size position most = 0 then none
    else failure? total size (position + readCount total size position most) script

section Readers

variable {total size position : Nat}

/-- Where reads are at the end of the data, they stay there. -/
theorem readCount_eq_zero_of_le (h : total ≤ position) (most : Nat) :
    readCount total size position most = 0 := by
  unfold readCount
  omega

/-- A read is asked for what is left of the chunk. -/
theorem readCount_of_dvd {start : Nat} {gathered : Nat} (hstart : size ∣ start)
    (hgathered : gathered < size) (most : Nat) :
    readCount total size (start + gathered) most
      = min (min most (size - gathered)) (total - (start + gathered)) := by
  obtain ⟨k, rfl⟩ := hstart
  rw [readCount, Nat.mul_add_mod, Nat.mod_eq_of_lt hgathered]

/-- Bytes are delivered until a read fails. -/
theorem position_le_of_failure? {script : List ReadEvent} {m : Nat} {text : String}
    (h : failure? total size position script = some (m, text)) : position ≤ m := by
  induction script generalizing position with
  | nil => cases h
  | cons event script ih =>
      cases event with
      | interrupted => exact ih h
      | failed text =>
          cases h
          exact Nat.le_refl _
      | deliver most =>
          rw [failure?] at h
          split at h
          · cases h
          · exact Nat.le_trans (Nat.le_add_right _ _) (ih h)

/-- No more is delivered than there is. -/
theorem le_of_failure? {script : List ReadEvent} {m : Nat} {text : String}
    (hposition : position ≤ total) (h : failure? total size position script = some (m, text)) :
    m ≤ total := by
  induction script generalizing position with
  | nil => cases h
  | cons event script ih =>
      cases event with
      | interrupted => exact ih hposition h
      | failed text =>
          cases h
          exact hposition
      | deliver most =>
          rw [failure?] at h
          split at h
          · cases h
          · refine ih ?_ h
            unfold readCount
            omega

end Readers

/-! ### Gathering a chunk -/

section Gathering

variable {r : Reader} {size start : Nat} {chunk : ByteArray}

/-- A read that there is data for makes the chunk longer. -/
theorem size_pushRange_of_le {data : ByteArray} {position count : Nat} (h : position + count ≤ data.size) :
    (pushRange chunk data position count).size = chunk.size + count := by
  rw [pushRange, ByteArray.size_append, ByteArray.size_extract]
  omega

/-- What is read and what is left of the range are the range. -/
theorem pushRange_append_rest (data : ByteArray) {position count stop : Nat} (h : position + count ≤ stop) :
    pushRange chunk data position count ++ data.extract (position + count) stop
      = chunk ++ data.extract position stop := by
  rw [pushRange, ByteArray.append_assoc,
    ← ByteArray.extract_eq_extract_append_extract _ (Nat.le_add_right _ _) h]

/-- **A reader that reports the end where it is fills every chunk** with the next bytes of the data, as far as
there are any. -/
theorem Reader.fill_of_reportsEnd (hstart : r.position < r.data.size → size ∣ start)
    (hposition : r.position = start + chunk.size) (hinside : r.position ≤ r.data.size)
    (hchunk : chunk.size ≤ size)
    (hscript : ReportsEnd r.data.size size r.position r.script) :
    ∃ script, ReportsEnd r.data.size size (min (start + size) r.data.size) script
      ∧ r.fill size chunk
        = (.ok (chunk ++ r.data.extract r.position (start + size)),
          ⟨r.data, min (start + size) r.data.size, script⟩) := by
  fun_induction Reader.fill r size chunk with
  | case1 r chunk hfull =>
      have hend : start + size = r.position := by omega
      rw [hend, Nat.min_eq_left hinside, ByteArray.extract_same, ByteArray.append_empty]
      exact ⟨r.script, hscript, rfl⟩
  | case2 r chunk hroom hempty chunk' r' hdeliver =>
      have hcount : r.position + min (size - chunk.size) (r.data.size - r.position)
          = min (start + size) r.data.size := by
        omega
      rw [Reader.deliver] at hdeliver
      cases hdeliver
      refine ⟨r.script, ?_, ?_⟩
      · rw [hempty]
        trivial
      · rw [pushRange, hcount, extract_min_size]
  | case3 r chunk hroom script hnext ih =>
      rw [hnext] at hscript
      exact ih hstart hposition hinside hchunk hscript
  | case4 r chunk hroom text script hnext =>
      rw [hnext] at hscript
      exact hscript.elim
  | case5 r chunk hroom most script hnext count r' hcount =>
      rw [hnext] at hscript
      obtain ⟨hend, hrest⟩ := hscript
      -- Nothing was delivered, and that only happens at the end of the data.
      have hdone : r.position = r.data.size := by
        rcases Nat.eq_zero_or_pos most with hmost | hmost
        · exact hend hmost
        · omega
      rw [readCount_eq_zero_of_le (Nat.le_of_eq hdone.symm), Nat.add_zero] at hrest
      have hnothing : r.data.extract r.position (start + size) = ByteArray.empty :=
        ByteArray.extract_eq_empty_iff.mpr (by omega)
      have hlast : min (start + size) r.data.size = r.position := by omega
      rw [hlast, hnothing, ByteArray.append_empty]
      exact ⟨script, hrest, rfl⟩
  | case6 r chunk hroom most script hnext count r' hcount ih =>
      rw [hnext] at hscript
      obtain ⟨-, hrest⟩ := hscript
      have hdvd := hstart (by omega)
      rw [hposition, readCount_of_dvd hdvd (by omega), ← hposition] at hrest
      have hread : (pushRange chunk r.data r.position count).size = chunk.size + count :=
        size_pushRange_of_le (by omega)
      obtain ⟨script', hscript', hfill⟩ := ih (fun _ => hdvd)
        (by rw [hread]; show r.position + count = _; omega)
        (show r.position + count ≤ r.data.size by omega) (by rw [hread]; omega) hrest
      refine ⟨script', hscript', ?_⟩
      have hwhole : pushRange chunk r.data r.position count ++ r.data.extract (r.position + count) (start + size)
          = chunk ++ r.data.extract r.position (start + size) := pushRange_append_rest r.data (by omega)
      rw [hfill]
      exact congrArg (fun chunk => (Except.ok chunk, _)) hwhole

/-- **A reader that fails fills the chunks before**, and the one that it fails in is lost. -/
theorem Reader.fill_of_failure? {m : Nat} {text : String} (hstart : size ∣ start)
    (hposition : r.position = start + chunk.size) (hinside : r.position ≤ r.data.size)
    (hchunk : chunk.size ≤ size)
    (hfailure : failure? r.data.size size r.position r.script = some (m, text)) :
    (start + size ≤ m → ∃ script,
        failure? r.data.size size (start + size) script = some (m, text)
        ∧ r.fill size chunk = (.ok (chunk ++ r.data.extract r.position (start + size)),
          ⟨r.data, start + size, script⟩))
      ∧ (m < start + size → ∃ script, r.fill size chunk = (.error text, ⟨r.data, m, script⟩)) := by
  fun_induction Reader.fill r size chunk with
  | case1 r chunk hfull =>
      have hend : start + size = r.position := by omega
      have hle := position_le_of_failure? hfailure
      refine ⟨fun _ => ⟨r.script, ?_, ?_⟩, fun hbefore => by omega⟩
      · rwa [hend]
      · rw [hend, ByteArray.extract_same, ByteArray.append_empty]
  | case2 r chunk hroom hempty =>
      rw [hempty] at hfailure
      cases hfailure
  | case3 r chunk hroom script hnext ih =>
      rw [hnext] at hfailure
      exact ih hposition hinside hchunk hfailure
  | case4 r chunk hroom text' script hnext =>
      rw [hnext] at hfailure
      cases hfailure
      exact ⟨fun hfull => by omega, fun _ => ⟨script, rfl⟩⟩
  | case5 r chunk hroom most script hnext count r' hcount =>
      rw [hnext, failure?, hposition, readCount_of_dvd hstart (by omega), ← hposition,
        if_pos (by omega)] at hfailure
      cases hfailure
  | case6 r chunk hroom most script hnext count r' hcount ih =>
      rw [hnext, failure?, hposition, readCount_of_dvd hstart (by omega), ← hposition,
        if_neg (by omega)] at hfailure
      have hread : (pushRange chunk r.data r.position count).size = chunk.size + count :=
        size_pushRange_of_le (by omega)
      obtain ⟨hfull, hlost⟩ := ih (by rw [hread]; show r.position + count = _; omega)
        (show r.position + count ≤ r.data.size by omega) (by rw [hread]; omega) hfailure
      refine ⟨fun hbefore => ?_, hlost⟩
      obtain ⟨script', hscript', hfill⟩ := hfull hbefore
      refine ⟨script', hscript', ?_⟩
      have hle := le_of_failure? (show r.position + count ≤ r.data.size by omega) hfailure
      have hwhole : pushRange chunk r.data r.position count ++ r.data.extract (r.position + count) (start + size)
          = chunk ++ r.data.extract r.position (start + size) := pushRange_append_rest r.data (by omega)
      rw [hfill]
      exact congrArg (fun chunk => (Except.ok chunk, _)) hwhole

end Gathering

section Chunk

variable {data : ByteArray} {size position : Nat} {script : List ReadEvent}

/-- The next chunk of a reader that reports the end where it is. -/
theorem Reader.fill_next_of_reportsEnd (hstart : position < data.size → size ∣ position)
    (hinside : position ≤ data.size) (hscript : ReportsEnd data.size size position script) :
    ∃ script', ReportsEnd data.size size (min (position + size) data.size) script'
      ∧ Reader.fill ⟨data, position, script⟩ size ByteArray.empty
        = (.ok (data.extract position (position + size)),
          ⟨data, min (position + size) data.size, script'⟩) := by
  have hfill := Reader.fill_of_reportsEnd (r := ⟨data, position, script⟩) hstart
    (show position = position + ByteArray.empty.size from rfl) hinside (Nat.zero_le size) hscript
  rwa [ByteArray.empty_append] at hfill

/-- The next chunk of a reader that fails, or its failure. -/
theorem Reader.fill_next_of_failure? {m : Nat} {text : String} (hstart : size ∣ position)
    (hinside : position ≤ data.size) (hfailure : failure? data.size size position script = some (m, text)) :
    (position + size ≤ m → ∃ script',
        failure? data.size size (position + size) script' = some (m, text)
        ∧ Reader.fill ⟨data, position, script⟩ size ByteArray.empty
          = (.ok (data.extract position (position + size)), ⟨data, position + size, script'⟩))
      ∧ (m < position + size → ∃ script',
        Reader.fill ⟨data, position, script⟩ size ByteArray.empty = (.error text, ⟨data, m, script'⟩)) := by
  have hfill := Reader.fill_of_failure? (r := ⟨data, position, script⟩) hstart
    (show position = position + ByteArray.empty.size from rfl) hinside (Nat.zero_le size) hfailure
  rwa [ByteArray.empty_append] at hfill

end Chunk

/-! ### Streams -/

/-- The session after `k` frames, after one more. -/
theorem Compressor.afterFrame_after (c : Compressor) (k : Nat) : (c.after k).afterFrame = c.after (k + 1) := by
  cases k with
  | zero => rfl
  | succ k => rw [after_succ, after_succ, afterFrame_afterFrame]

namespace ChunkStream

/-- The chunks that are cut off the first `m` bytes of some data. -/
def cut (data : ByteArray) (size m k : Nat) : ByteArray :=
  data.extract (k * size) (min ((k + 1) * size) m)

/-- What a reader delivers from a position on: the bytes up to `m`, and then it reports the end of the data or
fails. -/
inductive Delivers (data : ByteArray) (size position : Nat) (script : List ReadEvent) :
    Nat → Option String → Prop
  | all (h : ReportsEnd data.size size position script) :
      Delivers data size position script data.size none
  | some {m : Nat} {text : String} (h : failure? data.size size position script = some (m, text)) :
      Delivers data size position script m (some text)

/-- How many chunks a stream hands to its compressor: a reader that fails loses the one that is not full. -/
def count (size m : Nat) : (failure : Option String) → Nat
  | none => (m + size - 1) / size
  | some _ => m / size

/-- A reader has delivered the chunks before `k`. -/
structure Delivering (data : ByteArray) (size m : Nat) (failure : Option String) (k : Nat) (r : Reader) :
    Prop where
  data_eq : r.data = data
  inside : m ≤ data.size
  position_eq : r.position = min (k * size) m
  delivers : Delivers data size r.position r.script m failure

section Handing

variable {S : Type} [FrameCompressor S]

/-- A compressor after all chunks before `k` were handed to it. -/
def handed (c : S) (data : ByteArray) (size m : Nat) : (k : Nat) → S
  | 0 => c
  | k + 1 =>
    (FrameCompressor.compressFrame (handed c data size m k) (cut data size m k) ByteArray.empty).2.1

/-- A compressor that all chunks before `k` were handed to writes that one. -/
def Writes (c : S) (data : ByteArray) (size m k : Nat) : Prop :=
  (FrameCompressor.compressFrame (handed c data size m k) (cut data size m k) ByteArray.empty).1 = .ok ()

/-- A chunk that is written has a frame. -/
theorem Writes.compressFrame_eq {c : S} {data : ByteArray} {size m k : Nat} (h : Writes c data size m k) :
    ∃ frame, FrameCompressor.compressFrame (handed c data size m k) (cut data size m k) ByteArray.empty
      = (.ok (), handed c data size m (k + 1), frame) :=
  ⟨_, Prod.ext h (Prod.ext rfl rfl)⟩

end Handing

/-- **A session that writes its chunks is the one that the first frame has left.** -/
theorem handed_session {c : Compressor} {data : ByteArray} {size m k : Nat}
    (h : ∀ j < k, Writes c data size m j) : handed c data size m k = c.after k := by
  induction k with
  | zero => rfl
  | succ k ih =>
      have hwrites := h k (Nat.lt_succ_self k)
      have hsession := ih fun j hj => h j (Nat.lt_succ_of_lt hj)
      rw [Writes, compressFrame_session, hsession, Compressor.compressFrame] at hwrites
      rw [handed, compressFrame_session, hsession, Compressor.compressFrame, ← Compressor.afterFrame_after]
      split at hwrites
      · cases hwrites
      · rfl

/-- A session that has its dictionary writes every chunk, so that a session fails on the first or on none. -/
theorem writes_of_dictionary {c : Compressor} {dict : LoadedDictionary} (h : c.dictionary = .ok dict)
    (data : ByteArray) (size m k : Nat) : Writes c data size m k := by
  induction k using Nat.strongRecOn with
  | ind k ih =>
      obtain ⟨later, hlater⟩ : ∃ later, (c.after k).dictionary = .ok later := by
        cases k with
        | zero => exact ⟨dict, h⟩
        | succ k =>
            rw [Compressor.after_succ, Compressor.afterFrame_eq]
            split
            · exact ⟨_, rfl⟩
            · exact ⟨dict, h⟩
      rw [Writes, handed_session ih, compressFrame_session, Compressor.compressFrame, Compressor.encode,
        hlater]
      rfl

/-- A stream stands in front of a chunk. -/
structure Stands {S : Type} (data : ByteArray) (size m : Nat) (failure : Option String) (k : Nat) (c : S)
    (s : ChunkStream S) : Prop where
  delivering : Delivering data size m failure k s.reader
  chunkSize_eq : s.chunkSize = size
  compressor_eq : s.compressor = c
  running : s.done = false

section Chunks

variable {data : ByteArray} {size m k : Nat} {failure : Option String} {r : Reader}

/-- Where the data ends, the last chunk has what is left. -/
theorem lt_count_none (hsize : 0 < size) : k < count size m none ↔ k * size < m := by
  rw [count, ← Nat.add_one_le_iff, Nat.le_div_iff_mul_le hsize, Nat.succ_mul]
  omega

/-- Where a read fails, only full chunks count. -/
theorem lt_count_some {text : String} (hsize : 0 < size) :
    k < count size m (some text) ↔ (k + 1) * size ≤ m := by
  rw [count, ← Nat.add_one_le_iff, Nat.le_div_iff_mul_le hsize]

/-- A reader delivers the chunks that count. -/
theorem Delivering.fill_chunk (h : Delivering data size m failure k r) (hsize : 0 < size)
    (hk : k < count size m failure) :
    ∃ r', r.fill size ByteArray.empty = (.ok (cut data size m k), r')
      ∧ (cut data size m k).isEmpty = false ∧ Delivering data size m failure (k + 1) r' := by
  have hnext : (k + 1) * size = k * size + size := Nat.succ_mul k size
  obtain ⟨rdata, position, script⟩ := r
  obtain ⟨rfl, hinside, hposition, hdelivers⟩ := h
  replace hinside : m ≤ rdata.size := hinside
  have hcut : (cut rdata size m k).isEmpty = false ↔ k * size < m := by
    rw [← Bool.not_eq_true, isEmpty_iff, cut, ByteArray.extract_eq_empty_iff]
    omega
  cases hdelivers with
  | all hscript =>
      have hbefore := (lt_count_none hsize).mp hk
      obtain rfl : position = k * size := by rwa [Nat.min_eq_left (Nat.le_of_lt hbefore)] at hposition
      obtain ⟨script', hscript', hfill⟩ := Reader.fill_next_of_reportsEnd
        (fun _ => Nat.dvd_mul_left size k) (Nat.le_of_lt hbefore) hscript
      rw [← hnext, ← extract_min_size] at hfill
      rw [← hnext] at hscript'
      exact ⟨_, hfill, hcut.mpr hbefore, rfl, hinside, rfl, .all hscript'⟩
  | some hfailure =>
      have hfull := (lt_count_some hsize).mp hk
      obtain rfl : position = k * size := by rwa [Nat.min_eq_left (by omega)] at hposition
      obtain ⟨script', hscript', hfill⟩ := (Reader.fill_next_of_failure? (Nat.dvd_mul_left size k)
        (show k * size ≤ rdata.size by omega) hfailure).1 (by omega)
      rw [← hnext, ← Nat.min_eq_left hfull] at hfill
      rw [← hnext] at hscript'
      refine ⟨_, hfill, hcut.mpr (by omega), rfl, hinside, rfl, .some ?_⟩
      rwa [Nat.min_eq_left hfull]

/-- Behind the chunks that count there is the end, or the failure. -/
theorem Delivering.fill_end (h : Delivering data size m failure (count size m failure) r) (hsize : 0 < size) :
    (r.fill size ByteArray.empty).1 = match failure with
      | none => .ok ByteArray.empty
      | some text => .error text := by
  obtain ⟨rdata, position, script⟩ := r
  obtain ⟨rfl, hinside, hposition, hdelivers⟩ := h
  cases hdelivers with
  | all hscript =>
      have hend : ¬count size rdata.size none * size < rdata.size := fun hbefore =>
        Nat.lt_irrefl _ ((lt_count_none hsize).mpr hbefore)
      obtain rfl : position = rdata.size := by rwa [Nat.min_eq_right (Nat.le_of_not_lt hend)] at hposition
      obtain ⟨script', -, hfill⟩ := Reader.fill_next_of_reportsEnd
        (fun hinside => absurd hinside (Nat.lt_irrefl _)) (Nat.le_refl _) hscript
      rw [hfill, ByteArray.extract_eq_empty_iff.mpr (by omega)]
  | @some _ text hfailure =>
      have hlost : ¬(count size m (some text) + 1) * size ≤ m := fun hfull =>
        Nat.lt_irrefl _ ((lt_count_some hsize).mpr hfull)
      have hbefore : count size m (some text) * size ≤ m := Nat.div_mul_le_self m size
      obtain rfl : position = count size m (some text) * size := by rwa [Nat.min_eq_left hbefore] at hposition
      obtain ⟨script', hfill⟩ := (Reader.fill_next_of_failure? (Nat.dvd_mul_left size _)
        (Nat.le_trans hbefore hinside) hfailure).2 (by rw [Nat.succ_mul] at hlost; omega)
      rw [hfill]

section Next

variable {S : Type} [FrameCompressor S] {c c' : S} {s : ChunkStream S}

/-- A stream writes a chunk. -/
theorem Stands.next_frame (h : Stands data size m failure k c s) (hsize : 0 < size)
    (hk : k < count size m failure) {frame : ByteArray}
    (hframe : FrameCompressor.compressFrame c (cut data size m k) ByteArray.empty = (.ok (), c', frame)) :
    s.next.1 = some (.ok frame) ∧ Stands data size m failure (k + 1) c' s.next.2 := by
  obtain ⟨reader, hfill, hsome, hdelivering⟩ := h.delivering.fill_chunk hsize hk
  have hnext : s.next = (some (.ok frame), { s with reader := reader, compressor := c' }) := by
    rw [next, h.running, if_neg Bool.false_ne_true, h.chunkSize_eq, hfill]
    simp only [hsome, h.compressor_eq, hframe, Bool.false_eq_true, if_false]
  rw [hnext]
  exact ⟨rfl, hdelivering, h.chunkSize_eq, rfl, h.running⟩

/-- A stream whose chunk is refused ends with the error. -/
theorem Stands.next_refused (h : Stands data size m failure k c s) (hsize : 0 < size)
    (hk : k < count size m failure) {e : DictError} {out : ByteArray}
    (herror : FrameCompressor.compressFrame c (cut data size m k) ByteArray.empty = (.error e, c', out)) :
    s.next.1 = some (.error e) ∧ s.next.2.done = true ∧ s.next.2.compressor = c'
      ∧ s.next.2.reader.position = min ((k + 1) * size) m := by
  obtain ⟨reader, hfill, hsome, hdelivering⟩ := h.delivering.fill_chunk hsize hk
  have hnext : s.next
      = (some (.error e), { s with reader := reader, compressor := c', done := true }) := by
    rw [next, h.running, if_neg Bool.false_ne_true, h.chunkSize_eq, hfill]
    simp only [hsome, h.compressor_eq, herror, Bool.false_eq_true, if_false]
  rw [hnext]
  exact ⟨rfl, rfl, rfl, hdelivering.position_eq⟩

/-- A stream behind the chunks that count ends, with the failure if there is one. -/
theorem Stands.next_end (h : Stands data size m failure (count size m failure) c s) (hsize : 0 < size) :
    s.next.1 = failure.map (fun text => .error (.codec "read" text)) ∧ s.next.2.done = true := by
  have hfill := h.delivering.fill_end hsize
  rw [next, h.running, if_neg Bool.false_ne_true, h.chunkSize_eq]
  cases failure with
  | none =>
      split
      · rename_i heq
        rw [heq] at hfill
        cases hfill
      · rename_i heq
        rw [heq] at hfill
        cases hfill
        exact ⟨rfl, rfl⟩
  | some text =>
      split
      · rename_i heq
        rw [heq] at hfill
        cases hfill
        exact ⟨rfl, rfl⟩
      · rename_i heq
        rw [heq] at hfill
        cases hfill

end Next

end Chunks

/-! ### Items -/

section Items

variable {S : Type} [FrameCompressor S] {data : ByteArray} {size m : Nat} {failure : Option String} {c : S}
  {s : ChunkStream S}

/-- A stream that has ended stays as it is. -/
theorem asked_of_done {items : Nat} (h : (s.asked items).done = true) :
    ∀ later ≥ items, s.asked later = s.asked items := by
  intro later hlater
  induction hlater with
  | refl => rfl
  | step _ ih => rw [asked_succ, ih, next, if_pos h]

theorem next_of_done (h : s.done = true) : s.next.1 = none := by
  rw [next, if_pos h]

/-- **A stream stands in front of chunk after chunk**, as long as the chunks are written. -/
theorem Stands.asked (h : Stands data size m failure 0 c s) (hsize : 0 < size) {k : Nat}
    (hk : k ≤ count size m failure) (hwrites : ∀ j < k, Writes c data size m j) :
    Stands data size m failure k (handed c data size m k) (s.asked k) := by
  induction k with
  | zero => exact h
  | succ k ih =>
      obtain ⟨frame, hframe⟩ := (hwrites k (Nat.lt_succ_self k)).compressFrame_eq
      have hstands := ih (Nat.le_of_succ_le hk) fun j hj => hwrites j (Nat.lt_succ_of_lt hj)
      rw [asked_succ]
      exact (hstands.next_frame hsize hk hframe).2

/-- What a stream yields.  There is a frame of every chunk, made by the compressor that the chunks before it were
handed to, then the error of a reader that fails, and then nothing.  If a chunk cannot be written, the first one or
a later one, its error is the last item, no byte behind the chunk is read, and the compressor is left alone. -/
structure Yields (s : ChunkStream S) (c : S) (data : ByteArray) (size m : Nat) (failure : Option String) :
    Prop where
  frame : ∀ k < count size m failure, (∀ j ≤ k, Writes c data size m j) →
    ∃ frame, FrameCompressor.compressFrame (handed c data size m k) (cut data size m k) ByteArray.empty
        = (.ok (), handed c data size m (k + 1), frame)
      ∧ (s.asked k).next.1 = some (.ok frame)
  ending : (∀ j < count size m failure, Writes c data size m j) →
    (s.asked (count size m failure)).next.1 = failure.map fun text => .error (.codec "read" text)
  nothing : (∀ j < count size m failure, Writes c data size m j) →
    ∀ later > count size m failure, (s.asked later).next.1 = none
  refused : ∀ k < count size m failure, (∀ j < k, Writes c data size m j) →
    ∀ e, (FrameCompressor.compressFrame (handed c data size m k) (cut data size m k) ByteArray.empty).1
        = .error e →
      (s.asked k).next.1 = some (.error e)
        ∧ ∀ later > k, (s.asked later).next.1 = none
          ∧ (s.asked later).reader.position = min ((k + 1) * size) m
          ∧ (s.asked later).compressor = handed c data size m (k + 1)

/-- A stream in front of its first chunk yields them all. -/
theorem Stands.yields (h : Stands data size m failure 0 c s) (hsize : 0 < size) :
    Yields s c data size m failure where
  frame k hk hwrites := by
    obtain ⟨frame, hframe⟩ := (hwrites k (Nat.le_refl k)).compressFrame_eq
    have hstands := h.asked hsize (Nat.le_of_lt hk) fun j hj => hwrites j (Nat.le_of_lt hj)
    exact ⟨frame, hframe, (hstands.next_frame hsize hk hframe).1⟩
  ending hwrites := ((h.asked hsize (Nat.le_refl _) hwrites).next_end hsize).1
  nothing hwrites later hlater := by
    have hdone : (s.asked (count size m failure + 1)).done = true := by
      rw [asked_succ]
      exact ((h.asked hsize (Nat.le_refl _) hwrites).next_end hsize).2
    rw [asked_of_done hdone later hlater]
    exact next_of_done hdone
  refused k hk hwrites e he := by
    have hstands := h.asked hsize (Nat.le_of_lt hk) hwrites
    obtain ⟨hitem, hended, hleft, hposition⟩ := hstands.next_refused hsize hk (Prod.ext he (Prod.ext rfl rfl))
    rw [← asked_succ] at hended hleft hposition
    refine ⟨hitem, fun later hlater => ?_⟩
    rw [asked_of_done hended later hlater]
    exact ⟨next_of_done hended, hposition, hleft⟩

end Items

/-- **A stream cuts its data into chunks, however the reader delivers them**, and whatever compresses them.  A
reader may deliver as few bytes at a time as it likes and be interrupted anywhere.  If it reports the end of its
data where that is, the stream yields the frames of all chunks, of which the last has what is left.  If it fails
after `m` bytes instead, the stream yields the frames of the chunks that these fill, and the failure.  If a chunk is
refused, that is the last item.  Nothing follows, however often the stream is asked, and what it yields says nothing
else about the reader. -/
theorem yields_chunks {S : Type} [FrameCompressor S] (c : S) (data : ByteArray) {size : Nat} (hsize : 0 < size)
    (script : List ReadEvent) :
    ∃ s, start (.ofScript data script) size c = .ok s
      ∧ ∀ m failure, Delivers data size 0 script m failure → Yields s c data size m failure := by
  refine ⟨⟨.ofScript data script, size, c, false⟩, ?_, fun m failure hdelivers => ?_⟩
  · rw [start, if_neg (by omega)]
  · have hinside : m ≤ data.size := by
      cases hdelivers with
      | all _ => exact Nat.le_refl _
      | some hfailure => exact le_of_failure? (Nat.zero_le _) hfailure
    have hposition : 0 = min (0 * size) m := by rw [Nat.zero_mul, Nat.zero_min]
    have hstands : Stands data size m failure 0 c ⟨.ofScript data script, size, c, false⟩ :=
      ⟨⟨rfl, hinside, hposition, hdelivers⟩, rfl, rfl, rfl⟩
    exact hstands.yields hsize

/-- A compressor that stores content as it is, and refuses everything once its frames are used up. -/
structure Rationed where
  frames : Nat

instance : FrameCompressor Rationed where
  compressFrame c content out :=
    match c.frames with
    | 0 => (.error (.codec "compress" "used up"), c, out)
    | frames + 1 => (.ok (), ⟨frames⟩, out ++ content)

/-- Five bytes in chunks of two.  A reader that is interrupted and delivers one byte at first makes no
difference to the three frames of a session; one that fails after three bytes leaves one frame; and a compressor
that has one frame left refuses the second chunk, behind which nothing is read. -/
theorem yields_chunks_five :
    (∃ s, start (.ofScript ⟨#[1, 2, 3, 4, 5]⟩ [.interrupted, .deliver 1]) 2
          (Compressor.mk .standard none) = .ok s
      ∧ (∃ frame, (Compressor.mk .standard none).compressFrame ⟨#[5]⟩ ByteArray.empty
          = (.ok (), ⟨.standard, none⟩, frame) ∧ (s.asked 2).next.1 = some (.ok frame))
      ∧ ∀ later ≥ 3, (s.asked later).next.1 = none)
    ∧ (∃ s, start (.ofScript ⟨#[1, 2, 3, 4, 5]⟩ [.deliver 2, .deliver 1, .failed "lost"]) 2
          (Compressor.mk .standard none) = .ok s
      ∧ (s.asked 1).next.1 = some (.error (.codec "read" "lost"))
      ∧ ∀ later ≥ 2, (s.asked later).next.1 = none)
    ∧ ∃ s, start (.ofScript ⟨#[1, 2, 3, 4, 5]⟩ [.deliver 1]) 2 (Rationed.mk 1) = .ok s
      ∧ (s.asked 0).next.1 = some (.ok ⟨#[1, 2]⟩)
      ∧ (s.asked 1).next.1 = some (.error (.codec "compress" "used up"))
      ∧ ∀ later ≥ 2, (s.asked later).next.1 = none ∧ (s.asked later).reader.position = 4 := by
  have hwrites (m j : Nat) : Writes (Compressor.mk .standard none) ⟨#[1, 2, 3, 4, 5]⟩ 2 m j :=
    writes_of_dictionary rfl _ _ _ _
  refine ⟨?_, ?_, ?_⟩
  · obtain ⟨s, hstart, hyields⟩ := yields_chunks (Compressor.mk .standard none) ⟨#[1, 2, 3, 4, 5]⟩
      Nat.two_pos [.interrupted, .deliver 1]
    have hall := hyields 5 none (.all ⟨fun h => absurd h Nat.one_ne_zero, trivial⟩)
    obtain ⟨frame, hframe, hitem⟩ := hall.frame 2 (by decide) fun j _ => hwrites _ j
    rw [handed_session fun j _ => hwrites _ j, handed_session fun j _ => hwrites _ j] at hframe
    exact ⟨s, hstart, ⟨frame, hframe, hitem⟩, fun later hlater => by
      rcases Nat.eq_or_lt_of_le hlater with rfl | hlater
      · exact hall.ending fun j _ => hwrites _ j
      · exact hall.nothing (fun j _ => hwrites _ j) later hlater⟩
  · obtain ⟨s, hstart, hyields⟩ := yields_chunks (Compressor.mk .standard none) ⟨#[1, 2, 3, 4, 5]⟩
      Nat.two_pos [.deliver 2, .deliver 1, .failed "lost"]
    have hlost := hyields 3 (some "lost") (.some rfl)
    exact ⟨s, hstart, hlost.ending fun j _ => hwrites _ j, fun later hlater =>
      hlost.nothing (fun j _ => hwrites _ j) later hlater⟩
  · obtain ⟨s, hstart, hyields⟩ := yields_chunks (Rationed.mk 1) ⟨#[1, 2, 3, 4, 5]⟩ Nat.two_pos [.deliver 1]
    have hall := hyields 5 none (.all ⟨fun h => absurd h Nat.one_ne_zero, trivial⟩)
    have hfirst (j : Nat) (hj : j < 1) : Writes (Rationed.mk 1) ⟨#[1, 2, 3, 4, 5]⟩ 2 5 j := by
      obtain rfl := Nat.lt_one_iff.mp hj
      rfl
    obtain ⟨frame, hframe, hitem⟩ := hall.frame 0 (by decide) fun j hj => hfirst j (Nat.lt_succ_of_le hj)
    obtain ⟨hrefused, hlater⟩ := hall.refused 1 (by decide) hfirst _ rfl
    cases hframe
    exact ⟨s, hstart, hitem, hrefused, fun later hmore =>
      ⟨(hlater later hmore).1, (hlater later hmore).2.1⟩⟩

end ChunkStream

end SharedDictionary
