import SharedDictionary.Proofs.Session.TrailingFrames

/-!
# Skippable frames between others

A skippable frame is a frame to the session too: its boundary is looked for, its size is checked against the
limit, it is decoded, to nothing, and the session is what it is after a frame.  For a session whose dictionary
stays that adds up to nothing, and a run over frames is the same with skippable frames put anywhere between
them, whatever the frames come to (`Decompressor.decompressEach_padded`).

A prefix is used up by the first frame that succeeds, and a skippable frame always does.  So behind a skippable
frame the rest is read without the prefix.

The main result is `Decompressor.decompressFrames_padded`.
-/

namespace SharedDictionary

/-- Skippable frames, all of them below the size at which their end is no longer found, are put in front of
frames, between them and behind them. -/
inductive Padded : List ByteArray → List ByteArray → Prop
  | nil : Padded [] []
  | keep {frames padded : List ByteArray} (frame : ByteArray) (rest : Padded frames padded) :
      Padded (frame :: frames) (frame :: padded)
  | insert {frames padded : List ByteArray} {skippable : ByteArray} (hskip : SkippableFrame skippable)
      (hsize : skippable.size < 2 ^ 32) (rest : Padded frames padded) :
      Padded frames (skippable :: padded)

namespace Decompressor

variable {d : Decompressor} {frames padded : List ByteArray}

theorem isWholeFrame_skippable {skippable : ByteArray} (hskip : SkippableFrame skippable)
    (hsize : skippable.size < 2 ^ 32) : isWholeFrame skippable = true :=
  isWholeFrame_iff.mpr (hskip.frameSize hsize)

/-- Whole frames stay whole frames between skippable ones. -/
theorem isWholeFrame_of_padded (h : Padded frames padded)
    (hframes : ∀ frame ∈ frames, isWholeFrame frame = true) :
    ∀ frame ∈ padded, isWholeFrame frame = true := by
  induction h with
  | nil => exact hframes
  | keep frame _ ih =>
      obtain ⟨hframe, hrest⟩ := List.forall_mem_cons.mp hframes
      exact List.forall_mem_cons.mpr ⟨hframe, ih hrest⟩
  | insert hskip hsize _ ih =>
      exact List.forall_mem_cons.mpr ⟨isWholeFrame_skippable hskip hsize, ih hframes⟩

/-! ### Single-frame calls -/

/-- **A skippable frame is decoded to nothing** by every session whose dictionary can be loaded. -/
theorem decode_skippable {dict : Option LoadedDictionary} (hdict : d.dictionary = .ok dict)
    {skippable : ByteArray} (hskip : SkippableFrame skippable) (hsize : skippable.size < 2 ^ 32) :
    d.decode skippable = .ok ByteArray.empty := by
  have hdeclared : declaredSize? skippable = some (some 0) := by
    rw [declaredSize?, hskip.headerScan (standsAt_self skippable)]
  exact decode_eq_ok_iff.mpr ⟨dict, hdict,
    .inl ⟨0, hdeclared, Nat.zero_le _, Nat.zero_le _, hskip.decodeWhole_eq hsize dict 0⟩⟩

theorem afterFrame_of_pending (h : d.hasPendingPrefix = true) : d.afterFrame = ⟨d.config, none⟩ := by
  rw [afterFrame, h]
  rfl

/-- A prefix can always be loaded. -/
theorem dictionary_of_pending (h : d.hasPendingPrefix = true) : ∃ dict, d.dictionary = .ok dict := by
  unfold hasPendingPrefix at h
  unfold dictionary
  cases hview : d.dict with
  | none =>
      rw [hview] at h
      cases h
  | some view =>
      rw [hview] at h
      cases view with
      | digested _ _ => cases h
      | undigested _ => cases h
      | prefixed content => exact ⟨_, rfl⟩

/-- **Where the dictionary stays, skippable frames change nothing**, neither what is read nor where it
fails. -/
theorem decompressEach_padded (hpending : d.hasPendingPrefix = false)
    {dict : Option LoadedDictionary} (hdict : d.dictionary = .ok dict) (h : Padded frames padded)
    (out : ByteArray) : d.decompressEach padded out = d.decompressEach frames out := by
  have hafter := afterFrame_of_not_pending hpending
  induction h generalizing out with
  | nil => rfl
  | keep frame _ ih =>
      rw [decompressEach, decompressEach]
      rcases hdecode : d.decode frame with e | content
      · rw [decompressFrame_of_error hdecode]
      · rw [decompressFrame_of_ok hdecode, hafter]
        exact ih _
  | insert hskip hsize _ ih =>
      rw [decompressEach, decompressFrame_of_ok (decode_skippable hdict hskip hsize), hafter,
        ByteArray.append_empty]
      exact ih out

/-- Behind the first frame a prefix is gone, and skippable frames change nothing. -/
theorem decompressEach_cons_padded {dict : Option LoadedDictionary} (hdict : d.dictionary = .ok dict)
    (h : Padded frames padded) (first out : ByteArray) :
    d.decompressEach (first :: padded) out = d.decompressEach (first :: frames) out := by
  rw [decompressEach, decompressEach]
  rcases hdecode : d.decode first with e | content
  · rw [decompressFrame_of_error hdecode]
  · rw [decompressFrame_of_ok hdecode]
    rcases hpending : d.hasPendingPrefix with _ | _
    · rw [afterFrame_of_not_pending hpending]
      exact decompressEach_padded hpending hdict h _
    · rw [afterFrame_of_pending hpending]
      exact decompressEach_padded rfl rfl h _

/-! ### Runs -/

/-- A run over whole frames is single-frame calls on them. -/
theorem decompressFrames_eq_each (hframes : ∀ frame ∈ frames, isWholeFrame frame = true) :
    d.decompressFrames (joined frames)
      = match d.decompressEach frames ByteArray.empty with
        | (.error e, d, _) => (.error e, d)
        | (.ok (), d, out) => (.ok out, d) := by
  rw [decompressFrames, decompressFrom_joined d hframes (standsAt_self _)]
  rcases d.decompressEach frames ByteArray.empty with ⟨e | _, d', out⟩
  · rfl
  · exact d'.decompressFrom_of_le out (by omega)

/-- A run that yields something, or nothing but for want of frames, has loaded its dictionary. -/
theorem dictionary_of_decompressFrames {out : ByteArray} {d' : Decompressor}
    (hframes : ∀ frame ∈ frames, isWholeFrame frame = true) (hsome : frames ≠ [])
    (h : d.decompressFrames (joined frames) = (.ok out, d')) : ∃ dict, d.dictionary = .ok dict := by
  cases frames with
  | nil => exact absurd rfl hsome
  | cons frame frames =>
      rw [decompressFrames_eq_each hframes, decompressEach] at h
      rcases hdecode : d.decode frame with e | content
      · rw [decompressFrame_of_error hdecode] at h
        cases h
      · obtain ⟨dict, hdict, -⟩ := decode_eq_ok_iff.mp hdecode
        exact ⟨dict, hdict⟩

/-- **Skippable frames are passed over, but they use a prefix up.**

A session without a pending prefix whose dictionary can be loaded makes of whole frames what it makes of them
with skippable frames put anywhere between them: the same output and the same failure.  That its dictionary can
be loaded is known of a session that has read any frame.  If a prefix is pending, the same holds for skippable
frames behind the first frame.  A skippable frame in front of it is the first frame itself, and so the frames
are read as by the session without the prefix.  A skippable frame too long for its end to be found is refused
where it stands. -/
theorem decompressFrames_padded (d : Decompressor) {frames padded : List ByteArray}
    (hframes : ∀ frame ∈ frames, isWholeFrame frame = true) (h : Padded frames padded) :
    (d.hasPendingPrefix = false → (∃ dict, d.dictionary = .ok dict) →
      d.decompressFrames (joined padded) = d.decompressFrames (joined frames))
    ∧ (d.hasPendingPrefix = false → frames ≠ [] →
      ∀ out d', d.decompressFrames (joined frames) = (.ok out, d') →
        d.decompressFrames (joined padded) = (.ok out, d'))
    ∧ (d.hasPendingPrefix = true → ∀ first, isWholeFrame first = true →
      d.decompressFrames (joined (first :: padded)) = d.decompressFrames (joined (first :: frames)))
    ∧ (d.hasPendingPrefix = true → ∀ skippable, SkippableFrame skippable → skippable.size < 2 ^ 32 →
      d.decompressFrames (joined (skippable :: padded))
        = (⟨d.config, none⟩ : Decompressor).decompressFrames (joined frames))
    ∧ ∀ long, SkippableFrame long → 2 ^ 32 ≤ long.size → ∀ rest,
      d.decompressFrames (long ++ rest)
        = (.error (.error (.ofCodec "find frame boundary" .unsupportedFrameParameter)), d) := by
  have hpadded := isWholeFrame_of_padded h hframes
  -- The session that the prefix has left is another one, and so this is said of any session.
  have hstays : ∀ (d : Decompressor) dict, d.hasPendingPrefix = false → d.dictionary = .ok dict →
      d.decompressFrames (joined padded) = d.decompressFrames (joined frames) := by
    intro d dict hpending hdict
    rw [decompressFrames_eq_each hpadded, decompressFrames_eq_each hframes,
      decompressEach_padded hpending hdict h]
  refine ⟨fun hpending ⟨dict, hdict⟩ => hstays d dict hpending hdict,
    fun hpending hsome out d' hread => ?_, fun hpending first hfirst => ?_,
    fun hpending skippable hskip hsize => ?_, fun long hlong hsize rest => ?_⟩
  · obtain ⟨dict, hdict⟩ := dictionary_of_decompressFrames hframes hsome hread
    rw [hstays d dict hpending hdict, hread]
  · obtain ⟨dict, hdict⟩ := dictionary_of_pending hpending
    rw [decompressFrames_eq_each (List.forall_mem_cons.mpr ⟨hfirst, hpadded⟩),
      decompressFrames_eq_each (List.forall_mem_cons.mpr ⟨hfirst, hframes⟩),
      decompressEach_cons_padded hdict h]
  · -- The skippable frame is decoded with the prefix; what is left is a session without a dictionary.
    obtain ⟨dict, hdict⟩ := dictionary_of_pending hpending
    rw [← hstays ⟨d.config, none⟩ none rfl rfl, decompressFrames_eq_each hpadded,
      decompressFrames_eq_each (List.forall_mem_cons.mpr
        ⟨isWholeFrame_skippable hskip hsize, hpadded⟩),
      decompressEach, decompressFrame_of_ok (decode_skippable hdict hskip hsize),
      afterFrame_of_pending hpending, ByteArray.append_empty]
  · have hstands : StandsAt (long ++ rest) 0 long := (standsAt_append.mp (standsAt_self _)).1
    have hmore : 0 < (long ++ rest).size := by
      rw [ByteArray.size_append]
      omega
    exact d.decompressFrom_of_error ByteArray.empty hmore (hlong.frameSize_of_long hsize hstands)

/-- A frame between two skippable ones. -/
theorem decompressFrames_padded_hello :
    let d : Decompressor := ⟨.standard, none⟩
    let frame : ByteArray := ⟨#[0x28, 0xB5, 0x2F, 0xFD, 0x20, 5, 0x29, 0, 0, 104, 101, 108, 108, 111]⟩
    let skippable : ByteArray := ⟨#[0x50, 0x2A, 0x4D, 0x18, 1, 0, 0, 0, 7]⟩
    (∀ f ∈ [frame], isWholeFrame f = true)
      ∧ Padded [frame] [skippable, frame, skippable]
      ∧ d.decompressFrames (joined [skippable, frame, skippable])
        = d.decompressFrames (joined [frame]) := by
  intro d frame skippable
  have hframes : ∀ f ∈ [frame], isWholeFrame f = true := by decide +kernel
  have hskip : SkippableFrame skippable := ⟨by decide +kernel, by decide +kernel⟩
  have hpadded : Padded [frame] [skippable, frame, skippable] :=
    .insert hskip (by decide) (.keep frame (.insert hskip (by decide) .nil))
  exact ⟨hframes, hpadded, (decompressFrames_padded d hframes hpadded).1 rfl ⟨none, rfl⟩⟩

/-- **Skippable frames are not passed over without a trace.**  A frame that was made with a prefix is read while
it is pending, and no more behind a skippable frame.  A session whose dictionary cannot be loaded reads an input
without frames, but not one of skippable frames.  And there are skippable frames whose end is not found. -/
theorem decompressFrames_padded_not_same :
    let content : ByteArray := ⟨#[1, 2, 3, 4, 5, 6, 7, 8, 9, 10, 11, 12, 13, 14, 15, 16, 17, 18, 19, 20,
      21, 22, 23, 24]⟩
    let frame : ByteArray := ⟨#[0x28, 0xB5, 0x2F, 0xFD, 0x20, 24, 0x3D, 0, 0, 0, 1, 0x54, 0, 4, 0x15, 0x1B]⟩
    let skippable : ByteArray := ⟨#[0x50, 0x2A, 0x4D, 0x18, 0, 0, 0, 0]⟩
    let prefixed : Decompressor := ⟨.standard, some (.prefixed content)⟩
    let damaged : Decompressor :=
      ⟨.standard, some (.undigested ⟨#[0x37, 0xA4, 0x30, 0xEC, 1, 0, 0, 0]⟩)⟩
    SkippableFrame skippable
      ∧ (prefixed.decompressFrames (joined [frame])).1 = .ok content
      ∧ (prefixed.decompressFrames (joined [skippable, frame])).1
        = .error (.error (.codec "decompress" "Data corruption detected"))
      ∧ (damaged.decompressFrames (joined [])).1 = .ok ByteArray.empty
      ∧ (damaged.decompressFrames (joined [skippable])).1
        = .error (.error (.ofCodec "load undigested dictionary" .allocation))
      ∧ ∃ long, SkippableFrame long ∧ (prefixed.decompressFrames long).1
        = .error (.error (.ofCodec "find frame boundary" .unsupportedFrameParameter)) := by
  intro content frame skippable prefixed damaged
  obtain ⟨long, hlong, hsize⟩ := SkippableFrame.exists_long
  have hrefused : (prefixed.decompressFrames long).1
      = .error (.error (.ofCodec "find frame boundary" .unsupportedFrameParameter)) := by
    rw [decompressFrames, prefixed.decompressFrom_of_error ByteArray.empty (by omega)
      (hlong.frameSize_of_long hsize (standsAt_self long))]
  exact ⟨⟨by decide +kernel, by decide +kernel⟩, by decide +kernel, by decide +kernel,
    by decide +kernel, by decide +kernel, long, hlong, hrefused⟩

end Decompressor

end SharedDictionary
