import SharedDictionary.Proofs.Session.TrailingFrames

/-!
# Frames that are cut short

Where a frame ends is told by its own bytes, so that no frame is the beginning of another
(`frameSize_of_cut`).  That is all it takes: a session reads nothing that does not open with a whole frame,
and calls a failure a mismatch only if its input is one.  So it makes no difference whether the cut falls into
the header, a block or the checksum, and whether a prefix is pending.

The main result is `Decompressor.decompressFrame_cut`.
-/

namespace SharedDictionary

open Decompressor (isWholeFrame_iff)

/-- **No frame is the beginning of another**: in a frame that is cut short, no end of a frame is found. -/
theorem frameSize_of_cut {frame : ByteArray} (h : IsFrame frame) {k : Nat} (hk : k < frame.size) :
    ∃ e, frameSize (frame.extract 0 k) 0 (frame.extract 0 k).size = .error e := by
  have hlength : (frame.extract 0 k).size = k := by
    rw [ByteArray.size_extract]
    omega
  have hstands : StandsAt frame 0 (frame.extract 0 k) := ⟨by omega, by rw [hlength, Nat.zero_add]⟩
  rw [← hstands.frameSize_eq 0 (Nat.le_refl _), hlength]
  rcases hsize : frameSize frame (0 + 0) (0 + k) with e | size
  · exact ⟨e, rfl⟩
  · -- What is found in the part would be found in the whole frame.
    obtain ⟨hle, hlonger⟩ := frameSize_eq_ok hsize
    have hsame : frameSize frame 0 frame.size = .ok size := hlonger frame.size (by omega)
    have hfull : size = frame.size := by
      rcases h with hwhole | hskip
      · rw [isWholeFrame_iff.mp hwhole] at hsame
        exact (Except.ok.inj hsame).symm
      · exact hskip.eq_of_frameSize hsame
    omega

namespace Decompressor

variable {d : Decompressor} {input : ByteArray}

/-- A session panics for a declared size only that it allows and no memory holds. -/
theorem panic_of_decode {text : String} (h : d.decode input = .error (.panic text)) :
    text = "capacity overflow" ∧ ∃ size, declaredSize? input = some (some size)
      ∧ maxCapacity < size ∧ size ≤ d.config.frameLimit := by
  unfold decode at h
  split at h
  · cases h
  · rename_i declared hcheck
    obtain ⟨hdeclared, hlimit⟩ := checkSize_eq_ok_iff.mp hcheck
    split at h
    · cases h
    · rename_i dict hdict
      split at h
      · rename_i size
        split at h
        · rename_i hlarge
          cases h
          exact ⟨rfl, size, hdeclared, hlarge, hlimit size rfl⟩
        · cases hdecode : decodeWhole dict input size <;> rw [hdecode] at h <;> cases h
      · cases hdecode : decodeStream dict d.hasPendingPrefix input d.config.frameLimit <;>
          rw [hdecode] at h <;> cases h

/-- Input in which no frame ends is not decoded, and the failure has nothing to do with a prefix. -/
theorem decode_of_no_frame {e : CodecError} (h : frameSize input 0 input.size = .error e) :
    (∃ operation text, d.decode input = .error (.error (.codec operation text)))
      ∨ ∃ text, d.decode input = .error (.panic text) := by
  -- Input that is decoded starts with a whole frame, and the end of that would be found.
  have hnot : ∀ content, d.decode input ≠ .ok content := by
    intro content hdecode
    obtain ⟨first, rest, hfirst, -, hinput, -⟩ := frames_of_decode hdecode
    have hstands : StandsAt input 0 first := by
      rw [hinput]
      exact (standsAt_append.mp (standsAt_self _)).1
    rw [hstands.frameSize_whole (isWholeFrame_iff.mp hfirst)] at h
    cases h
  obtain ⟨verdict, -, heq⟩ | ⟨-, fault, hrefusal, heq⟩ := decode_eq d input
  · rw [heq] at hnot ⊢
    cases verdict with
    | ok content => exact absurd rfl (hnot content)
    | error failure =>
        obtain ⟨e', -, hlikely, -⟩ | ⟨-, text, htext⟩ := d.streamError_eq input failure
        · have hwhole := hlikely.whole
          rw [h] at hwhole
          cases hwhole
        · exact .inl ⟨"decompress", text, congrArg (fun e => Except.error (Fault.error e)) htext⟩
  · rw [heq]
    cases hrefusal with
    | refused operation text => exact .inl ⟨operation, text, rfl⟩
    | tooLarge hcheck hlarge text => exact .inr ⟨text, rfl⟩

/-- **A frame that is cut short is refused, and never as a mismatch.**

Whatever kind of frame is cut, wherever the cut falls and whatever the session decodes with, a call on what is
left leaves the session and the output as they were.  It fails with an error of the codec, if there is not
a header left that declares a size which the session allows and no memory holds.  A run over what is left, if
that is anything, finds no frame in it and yields nothing. -/
theorem decompressFrame_cut (d : Decompressor) {frame : ByteArray} (h : IsFrame frame) {k : Nat}
    (hk : k < frame.size) (out : ByteArray) :
    ((∃ operation text, d.decompressFrame (frame.extract 0 k) out
          = (.error (.error (.codec operation text)), d, out))
        ∨ ∃ size, declaredSize? (frame.extract 0 k) = some (some size) ∧ maxCapacity < size
          ∧ size ≤ d.config.frameLimit
          ∧ d.decompressFrame (frame.extract 0 k) out
            = (.error (.panic "capacity overflow"), d, out))
      ∧ (0 < k → ∃ e, d.decompressFrames (frame.extract 0 k)
          = (.error (.error (.ofCodec "find frame boundary" e)), d)) := by
  obtain ⟨e, hsize⟩ := frameSize_of_cut h hk
  refine ⟨?_, fun hpos => ⟨e, ?_⟩⟩
  · obtain ⟨operation, text, hdecode⟩ | ⟨text, hdecode⟩ := decode_of_no_frame (d := d) hsize
    · exact .inl ⟨operation, text, decompressFrame_of_error hdecode out⟩
    · obtain ⟨rfl, size, hdeclared, hlarge, hlimit⟩ := panic_of_decode hdecode
      exact .inr ⟨size, hdeclared, hlarge, hlimit, decompressFrame_of_error hdecode out⟩
  · have hmore : 0 < (frame.extract 0 k).size := by
      rw [ByteArray.size_extract]
      omega
    exact d.decompressFrom_of_error ByteArray.empty hmore hsize

/-- A frame that a prefix was used for, with a checksum that lacks its last octet. -/
theorem decompressFrame_cut_checksum :
    let d : Decompressor := ⟨.standard, some (.prefixed ⟨#[1, 2, 3]⟩)⟩
    let frame : ByteArray := ⟨#[0x28, 0xB5, 0x2F, 0xFD, 0x24, 5, 0x29, 0, 0, 104, 101, 108, 108, 111,
      1, 2, 3, 4]⟩
    IsFrame frame ∧ 17 < frame.size
      ∧ ((∃ operation text, d.decompressFrame (frame.extract 0 17) ⟨#[9]⟩
            = (.error (.error (.codec operation text)), d, ⟨#[9]⟩))
        ∨ ∃ size, declaredSize? (frame.extract 0 17) = some (some size) ∧ maxCapacity < size
          ∧ size ≤ d.config.frameLimit
          ∧ d.decompressFrame (frame.extract 0 17) ⟨#[9]⟩
            = (.error (.panic "capacity overflow"), d, ⟨#[9]⟩)) := by
  intro d frame
  have hframe : IsFrame frame := .inl (by decide +kernel)
  have hcut : 17 < frame.size := by decide
  exact ⟨hframe, hcut, (decompressFrame_cut d hframe hcut ⟨#[9]⟩).1⟩

/-- **A cut frame may end the program**: it is an empty frame but for its header, which declares more than any
memory holds, and the session sets no limit. -/
theorem decompressFrame_cut_panics :
    let d : Decompressor := ⟨{ SessionConfig.standard with maxFrameSize := some (2 ^ 64 - 1) }, none⟩
    let frame : ByteArray := ⟨#[0x28, 0xB5, 0x2F, 0xFD, 0xE0, 0, 0, 0, 0, 0, 0, 0, 0x80, 1, 0, 0]⟩
    IsFrame frame ∧ 15 < frame.size
      ∧ (d.decompressFrame (frame.extract 0 15) ByteArray.empty).1
        = .error (.panic "capacity overflow") :=
  ⟨.inl (by decide +kernel), by decide, by decide +kernel⟩

end Decompressor

end SharedDictionary
