import SharedDictionary.Proofs.Frame.Boundaries
import SharedDictionary.Proofs.Session.Attempts
import SharedDictionary.Proofs.Session.Streaming

/-!
# Frames behind each other

A run over concatenated frames cuts its input where the headers of the blocks say.  So it finds the
frames that were put together, whatever follows them, and does with them what single-frame calls do that
are made one after the other into one buffer (`Decompressor.decompressEach`).

What such calls come to is told by the frames that are read before the first one that fails
(`Decompressor.Reads`).  The main result is `decompressFrames_joined`.
-/

namespace SharedDictionary

namespace Decompressor

/-- Decompresses frames one after the other, each as an input of its own, behind the output before them.
The first that fails ends it. -/
def decompressEach (d : Decompressor) :
    (frames : List ByteArray) → (out : ByteArray) → Except Fault Unit × Decompressor × ByteArray
  | [], out => (.ok (), d, out)
  | frame :: frames, out =>
    match d.decompressFrame frame out with
    | (.error e, d, out) => (.error e, d, out)
    | (.ok (), d, out) => d.decompressEach frames out

/-- Frames are decoded to their contents one after the other, each by the session that the frames before
it have left. -/
inductive Reads : Decompressor → List ByteArray → List ByteArray → Decompressor → Prop
  | nil (d : Decompressor) : Reads d [] [] d
  | cons {d d' : Decompressor} {frame content : ByteArray} {frames contents : List ByteArray}
      (hdecode : d.decode frame = .ok content) (rest : Reads d.afterFrame frames contents d') :
      Reads d (frame :: frames) (content :: contents) d'

/-- A single-frame call that fails changes nothing. -/
theorem decompressFrame_of_error {d : Decompressor} {frame : ByteArray} {e : Fault}
    (h : d.decode frame = .error e) (out : ByteArray) :
    d.decompressFrame frame out = (.error e, d, out) := by
  rw [decompressFrame, h]

/-- A single-frame call that succeeds appends the content. -/
theorem decompressFrame_of_ok {d : Decompressor} {frame content : ByteArray}
    (h : d.decode frame = .ok content) (out : ByteArray) :
    d.decompressFrame frame out = (.ok (), d.afterFrame, out ++ content) := by
  rw [decompressFrame, h]

/-! ### Single-frame calls one after the other -/

section Each

variable {d d' : Decompressor} {frames before contents : List ByteArray}

/-- Frames that are read before others leave their contents behind the output. -/
theorem Reads.decompressEach_append (h : Reads d before contents d') (frames : List ByteArray)
    (out : ByteArray) :
    d.decompressEach (before ++ frames) out = d'.decompressEach frames (out ++ joined contents) := by
  induction h generalizing out with
  | nil d => rw [joined_nil, ByteArray.append_empty, List.nil_append]
  | cons hdecode rest ih =>
      rw [List.cons_append, decompressEach, decompressFrame_of_ok hdecode, joined_cons,
        ← ByteArray.append_assoc]
      exact ih _

/-- **Either all frames are read, or those before the first that fails.** -/
theorem reads_or_fails (d : Decompressor) (frames : List ByteArray) :
    (∃ contents d', Reads d frames contents d')
      ∨ ∃ before frame after contents d' e, frames = before ++ frame :: after
        ∧ Reads d before contents d' ∧ d'.decode frame = .error e := by
  induction frames generalizing d with
  | nil => exact .inl ⟨[], d, .nil d⟩
  | cons frame frames ih =>
      rcases hdecode : d.decode frame with e | content
      · exact .inr ⟨[], frame, frames, [], d, e, rfl, .nil d, hdecode⟩
      · rcases ih d.afterFrame with ⟨contents, d', hreads⟩
          | ⟨before, failing, after, contents, d', e, rfl, hreads, hfails⟩
        · exact .inl ⟨content :: contents, d', .cons hdecode hreads⟩
        · exact .inr ⟨frame :: before, failing, after, content :: contents, d', e, rfl,
            .cons hdecode hreads, hfails⟩

end Each

/-! ### Runs -/

section Run

variable {input : ByteArray} {start size : Nat} {d : Decompressor}

theorem decompressFrom_of_decode_error {e : Fault} (hmore : start < input.size)
    (hsize : frameSize input start input.size = .ok size)
    (hdecode : d.decode (input.extract start (start + size)) = .error e) (out : ByteArray) :
    d.decompressFrom input start out = (.error e, d) := by
  rw [d.decompressFrom_of_ok out hmore hsize, decompressFrame_of_error hdecode]

theorem decompressFrom_of_decode_ok {content : ByteArray} (hmore : start < input.size)
    (hsize : frameSize input start input.size = .ok size)
    (hdecode : d.decode (input.extract start (start + size)) = .ok content) (out : ByteArray) :
    d.decompressFrom input start out
      = d.afterFrame.decompressFrom input (start + size) (out ++ content) := by
  rw [d.decompressFrom_of_ok out hmore hsize, decompressFrame_of_ok hdecode]

/-- **What holds of a run** holds where it ends, where no frame is found, where the frame that is found
fails, and in front of a frame that is read if it holds behind it. -/
theorem run_induction (input : ByteArray) {motive : Decompressor → Nat → ByteArray → Prop}
    (done : ∀ d start out, ¬start < input.size → motive d start out)
    (unfound : ∀ d start out e, start < input.size →
      frameSize input start input.size = .error e → motive d start out)
    (fails : ∀ d start out size e, start < input.size →
      frameSize input start input.size = .ok size →
      d.decode (input.extract start (start + size)) = .error e → motive d start out)
    (reads : ∀ d start out size content, start < input.size →
      frameSize input start input.size = .ok size →
      d.decode (input.extract start (start + size)) = .ok content →
      motive d.afterFrame (start + size) (out ++ content) → motive d start out)
    (d : Decompressor) (start : Nat) (out : ByteArray) : motive d start out := by
  induction hleft : input.size - start using Nat.strongRecOn generalizing d start out with
  | ind left ih =>
      by_cases hmore : start < input.size
      · rcases hsize : frameSize input start input.size with e | size
        · exact unfound d start out e hmore hsize
        · rcases hdecode : d.decode (input.extract start (start + size)) with e | content
          · exact fails d start out size e hmore hsize hdecode
          · have hpos := pos_of_frameSize hsize
            exact reads d start out size content hmore hsize hdecode
              (ih (input.size - (start + size)) (by omega) d.afterFrame _ _ rfl)
      · exact done d start out hmore

/-- A run over the end of an input is a run over that end alone. -/
theorem decompressFrom_of_standsAt {part : ByteArray} {i : Nat} (h : StandsAt input i part)
    (hend : i + part.size = input.size) (d : Decompressor) (start : Nat) (out : ByteArray) :
    d.decompressFrom input (i + start) out = d.decompressFrom part start out := by
  have hsame : ∀ start, frameSize input (i + start) input.size
      = frameSize part start part.size := by
    intro start
    rw [← hend]
    exact h.frameSize_eq start (Nat.le_refl _)
  have hrange : ∀ start size, input.extract (i + start) (i + start + size)
      = part.extract start (start + size) := by
    intro start size
    rw [← h.extract_eq, ByteArray.extract_extract, hend, extract_min_size, Nat.add_assoc]
  induction d, start, out using run_induction part with
  | done d start out hdone =>
      rw [d.decompressFrom_of_le out hdone, d.decompressFrom_of_le out (by omega)]
  | unfound d start out e hmore hsize =>
      rw [d.decompressFrom_of_error out hmore hsize,
        d.decompressFrom_of_error out (by omega) ((hsame start).trans hsize)]
  | fails d start out size e hmore hsize hdecode =>
      rw [decompressFrom_of_decode_error hmore hsize hdecode,
        decompressFrom_of_decode_error (by omega) ((hsame start).trans hsize)
          (by rw [hrange]; exact hdecode)]
  | reads d start out size content hmore hsize hdecode ih =>
      rw [decompressFrom_of_decode_ok hmore hsize hdecode,
        decompressFrom_of_decode_ok (by omega) ((hsame start).trans hsize)
          (by rw [hrange]; exact hdecode), Nat.add_assoc]
      exact ih

/-- What a run produces is put behind the output before it. -/
theorem decompressFrom_append (d : Decompressor) (input : ByteArray) (start : Nat)
    (before out : ByteArray) :
    d.decompressFrom input start (before ++ out)
      = ((d.decompressFrom input start out).1.map (before ++ ·),
          (d.decompressFrom input start out).2) := by
  induction d, start, out using run_induction input with
  | done d start out hdone =>
      rw [d.decompressFrom_of_le _ hdone, d.decompressFrom_of_le _ hdone]
      rfl
  | unfound d start out e hmore hsize =>
      rw [d.decompressFrom_of_error _ hmore hsize, d.decompressFrom_of_error _ hmore hsize]
      rfl
  | fails d start out size e hmore hsize hdecode =>
      rw [decompressFrom_of_decode_error hmore hsize hdecode,
        decompressFrom_of_decode_error hmore hsize hdecode]
      rfl
  | reads d start out size content hmore hsize hdecode ih =>
      rw [decompressFrom_of_decode_ok hmore hsize hdecode,
        decompressFrom_of_decode_ok hmore hsize hdecode, ByteArray.append_assoc]
      exact ih

theorem isWholeFrame_iff {frame : ByteArray} :
    isWholeFrame frame = true ↔ frameSize frame 0 frame.size = .ok frame.size := by
  unfold isWholeFrame
  rcases frameSize frame 0 frame.size with e | size
  · exact iff_of_false Bool.false_ne_true (fun h => by cases h)
  · rw [beq_iff_eq, Except.ok.injEq]

/-- What is found as a frame is whole. -/
theorem isWholeFrame_extract {bytes : ByteArray} {start stop size : Nat}
    (h : frameSize bytes start stop = .ok size) (hstop : stop ≤ bytes.size) :
    isWholeFrame (bytes.extract start (start + size)) = true := by
  obtain ⟨hle, hshort⟩ := frameSize_eq_ok h
  have hlength : (bytes.extract start (start + size)).size = size := by
    rw [ByteArray.size_extract]
    omega
  have hpart : StandsAt bytes start (bytes.extract start (start + size)) :=
    ⟨by omega, by rw [hlength]⟩
  rw [isWholeFrame_iff, ← hpart.frameSize_eq 0 (Nat.le_refl _), hlength]
  exact hshort _ (Nat.le_refl _)

/-- **A run over frames behind each other is single-frame calls on them**, and then a run over what
follows. -/
theorem decompressFrom_joined (d : Decompressor) {frames : List ByteArray}
    (hframes : ∀ frame ∈ frames, isWholeFrame frame = true) (h : StandsAt input start (joined frames))
    (out : ByteArray) :
    d.decompressFrom input start out
      = match d.decompressEach frames out with
        | (.error e, d, _) => (.error e, d)
        | (.ok (), d, out) => d.decompressFrom input (start + (joined frames).size) out := by
  induction frames generalizing d start out with
  | nil => rfl
  | cons frame frames ih =>
      rw [joined_cons, standsAt_append] at h
      obtain ⟨hframe, hrest⟩ := h
      have hsize := hframe.frameSize_whole
        (isWholeFrame_iff.mp (hframes frame List.mem_cons_self))
      have hpos := pos_of_frameSize hsize
      have hmore : start < input.size := by
        have hle := hframe.le
        omega
      rw [decompressEach]
      rcases hdecode : d.decode frame with e | content
      · rw [decompressFrom_of_decode_error hmore hsize (by rw [hframe.extract_eq]; exact hdecode),
          decompressFrame_of_error hdecode]
      · rw [decompressFrom_of_decode_ok hmore hsize (by rw [hframe.extract_eq]; exact hdecode),
          decompressFrame_of_ok hdecode, joined_cons, ByteArray.size_append, ← Nat.add_assoc]
        exact ih d.afterFrame (fun frame hmem => hframes frame (List.mem_cons_of_mem _ hmem))
          hrest _

end Run

/-! ### Whole frames and what follows them -/

section Whole

variable (d : Decompressor) {frames : List ByteArray}
  (hframes : ∀ frame ∈ frames, isWholeFrame frame = true) (rest : ByteArray)

include hframes in
/-- A run over whole frames and any bytes behind them is single-frame calls into one buffer, and then a
run over those bytes. -/
theorem decompressFrames_append :
    d.decompressFrames (joined frames ++ rest)
      = match d.decompressEach frames ByteArray.empty with
        | (.error e, d, _) => (.error e, d)
        | (.ok (), d, out) =>
          ((d.decompressFrames rest).1.map (out ++ ·), (d.decompressFrames rest).2) := by
  have hstands : StandsAt (joined frames ++ rest) 0 (joined frames) :=
    (standsAt_append.mp (standsAt_self _)).1
  have hrest := standsAt_append_right (joined frames) rest
  rw [decompressFrames, decompressFrom_joined d hframes hstands]
  rcases d.decompressEach frames ByteArray.empty with ⟨e | _, d', out⟩
  · rfl
  · dsimp only
    rw [Nat.zero_add, ← Nat.add_zero (joined frames).size,
      decompressFrom_of_standsAt hrest (ByteArray.size_append.symm) d' 0]
    conv_lhs => rw [← out.append_empty]
    exact decompressFrom_append d' rest 0 out ByteArray.empty

/-- Where no whole frame starts, no boundary is found. -/
theorem frameSize_of_no_whole (hno : ∀ size, isWholeFrame (rest.extract 0 size) = false) :
    ∃ e, frameSize rest 0 rest.size = .error e := by
  rcases hsize : frameSize rest 0 rest.size with e | size
  · exact ⟨e, rfl⟩
  · have hwhole := isWholeFrame_extract hsize (Nat.le_refl _)
    rw [Nat.zero_add, hno size] at hwhole
    cases hwhole

end Whole

/-- **Decompressing all frames of an input is decompressing them one by one.**  Whole frames with any
bytes behind them come to what single-frame calls into one buffer come to, followed by a run over those
bytes.  The calls either read all frames, or they stop with the first that fails; then its error is the
result.  Bytes behind the frames in which no whole frame starts are reported after these were read. -/
theorem decompressFrames_joined (d : Decompressor) {frames : List ByteArray}
    (hframes : ∀ frame ∈ frames, isWholeFrame frame = true) (rest : ByteArray) :
    d.decompressFrames (joined frames ++ rest)
        = (match d.decompressEach frames ByteArray.empty with
          | (.error e, d, _) => (.error e, d)
          | (.ok (), d, out) =>
            ((d.decompressFrames rest).1.map (out ++ ·), (d.decompressFrames rest).2))
      ∧ ((∃ contents d', Reads d frames contents d'
            ∧ d.decompressEach frames ByteArray.empty = (.ok (), d', joined contents)
            ∧ d.decompressFrames (joined frames) = (.ok (joined contents), d')
            ∧ (rest ≠ ByteArray.empty → (∀ size, isWholeFrame (rest.extract 0 size) = false) →
              ∃ e, d.decompressFrames (joined frames ++ rest)
                = (.error (.error (.ofCodec "find frame boundary" e)), d')))
        ∨ ∃ before frame after contents d' e, frames = before ++ frame :: after
            ∧ Reads d before contents d' ∧ d'.decode frame = .error e
            ∧ d.decompressEach frames ByteArray.empty = (.error e, d', joined contents)
            ∧ d.decompressFrames (joined frames ++ rest) = (.error e, d')) := by
  have hfold := decompressFrames_append d hframes
  refine ⟨hfold rest, ?_⟩
  rcases reads_or_fails d frames with ⟨contents, d', hreads⟩
    | ⟨before, frame, after, contents, d', e, rfl, hreads, hfails⟩
  · have heach : d.decompressEach frames ByteArray.empty = (.ok (), d', joined contents) := by
      have hall := hreads.decompressEach_append [] ByteArray.empty
      rwa [List.append_nil, decompressEach, ByteArray.empty_append] at hall
    have hbehind : ∀ rest, d.decompressFrames (joined frames ++ rest)
        = ((d'.decompressFrames rest).1.map (joined contents ++ ·), (d'.decompressFrames rest).2) := by
      intro rest
      rw [hfold, heach]
    refine .inl ⟨contents, d', hreads, heach, ?_, fun hrest hno => ?_⟩
    · have hnothing : d'.decompressFrames ByteArray.empty = (.ok ByteArray.empty, d') :=
        d'.decompressFrom_of_le _ (Nat.lt_irrefl 0)
      have hjust := hbehind ByteArray.empty
      rw [hnothing, ByteArray.append_empty] at hjust
      rw [hjust]
      simp only [Except.map, ByteArray.append_empty]
    · obtain ⟨e, hsize⟩ := frameSize_of_no_whole rest hno
      have hmore : 0 < rest.size :=
        Nat.pos_of_ne_zero fun hzero => hrest (ByteArray.size_eq_zero_iff.mp hzero)
      refine ⟨e, ?_⟩
      rw [hbehind, decompressFrames, d'.decompressFrom_of_error _ hmore hsize]
      rfl
  · have heach : d.decompressEach (before ++ frame :: after) ByteArray.empty
        = (.error e, d', joined contents) := by
      rw [hreads.decompressEach_append, ByteArray.empty_append, decompressEach,
        decompressFrame_of_error hfails]
    refine .inr ⟨before, frame, after, contents, d', e, rfl, hreads, hfails, heach, ?_⟩
    rw [hfold, heach]

/-- A frame that uses the prefix up, a skippable one, and a piece of a magic number. -/
theorem decompressFrames_joined_prefixed :
    let d : Decompressor := ⟨.standard, some (.prefixed ⟨#[1, 2, 3]⟩)⟩
    let frames : List ByteArray :=
      [⟨#[0x28, 0xB5, 0x2F, 0xFD, 0x20, 5, 0x29, 0, 0, 104, 101, 108, 108, 111]⟩,
        ⟨#[0x50, 0x2A, 0x4D, 0x18, 1, 0, 0, 0, 7]⟩]
    (∀ frame ∈ frames, isWholeFrame frame = true)
      ∧ d.decompressFrames (joined frames ++ ⟨#[0x28, 0xB5]⟩)
        = (match d.decompressEach frames ByteArray.empty with
          | (.error e, d, _) => (.error e, d)
          | (.ok (), d, out) => ((d.decompressFrames ⟨#[0x28, 0xB5]⟩).1.map (out ++ ·),
            (d.decompressFrames ⟨#[0x28, 0xB5]⟩).2)) := by
  have hframes : ∀ frame ∈ ([⟨#[0x28, 0xB5, 0x2F, 0xFD, 0x20, 5, 0x29, 0, 0, 104, 101, 108, 108, 111]⟩,
      ⟨#[0x50, 0x2A, 0x4D, 0x18, 1, 0, 0, 0, 7]⟩] : List ByteArray), isWholeFrame frame = true := by
    decide +kernel
  exact ⟨hframes, (decompressFrames_joined _ hframes _).1⟩

end Decompressor

end SharedDictionary
