import SharedDictionary.Proofs.Session.Concatenation
import SharedDictionary.Proofs.Session.ValidFrames

/-!
# The limit of a frame's content

A session limits how much content a frame may have.  Where the frame declares its size the limit is held
against the header, and otherwise against the output while it grows.  Both are the same limit on valid frames
(`Decompressor.decompressFrame_limit`), with one exception: an output that may not grow at all counts as full
before anything is decoded.  So a session whose limit is zero refuses a frame without content that does not
declare it, and accepts one that does (`Decompressor.decompressFrame_limit_zero`).
-/

namespace SharedDictionary

namespace Decompressor

variable {d : Decompressor} {dict : Option LoadedDictionary} {frame content : ByteArray}
  {header : FrameHeader}

/-- **Both decoders hold a frame's content against the same limit.**

Take any valid frame, a session that has the dictionary for it, and content that some memory holds.  If the
frame declares its size, or its window is not too large for a stream, then the call appends the content exactly
if there is no more than the limit allows, but for a limit of zero, with which a frame that does not declare
its size is always refused.  Otherwise it fails to decompress, and leaves the session and the output as they
were. -/
theorem decompressFrame_limit (d : Decompressor) (hdict : d.dictionary = .ok dict)
    (h : ValidFrame dict frame header content) (hsize : content.size ≤ maxCapacity)
    (hwindow : header.contentSize = none → header.windowSize ≤ StreamBuffers.maxWindow)
    (out : ByteArray) :
    ((d.decompressFrame frame out).1 = .ok ()
        ↔ content.size ≤ d.config.frameLimit
          ∧ ¬(header.contentSize = none ∧ d.config.frameLimit = 0))
      ∧ ((d.decompressFrame frame out).1 = .ok () →
        d.decompressFrame frame out = (.ok (), d.afterFrame, out ++ content))
      ∧ ((d.decompressFrame frame out).1 ≠ .ok () →
        ∃ text, d.decompressFrame frame out = (.error (.error (.codec "decompress" text)), d, out)) := by
  by_cases hlimit : content.size ≤ d.config.frameLimit
      ∧ ¬(header.contentSize = none ∧ d.config.frameLimit = 0)
  · have hdecode := decode_of_valid hdict h hsize hwindow hlimit.1
      fun hnone => Nat.pos_of_ne_zero fun hzero => hlimit.2 ⟨hnone, hzero⟩
    rw [decompressFrame_of_ok hdecode]
    exact ⟨iff_of_true rfl hlimit, fun _ => rfl, fun hnot => absurd rfl hnot⟩
  · have hrefused : ∃ text, d.decode frame = .error (.error (.codec "decompress" text)) := by
      by_cases hheader : header.contentSize = none
      · exact ⟨_, decode_of_valid_undeclared hdict h hsize hheader (hwindow hheader) (by
          simp only [hheader, true_and, not_and_or, not_not] at hlimit
          omega)⟩
      · exact ⟨_, decode_of_valid_declared h hsize hheader (by
          simp only [hheader, false_and, not_false_eq_true, and_true] at hlimit
          omega)⟩
    obtain ⟨text, hdecode⟩ := hrefused
    rw [decompressFrame_of_error hdecode]
    exact ⟨iff_of_false nofun hlimit, nofun, fun _ => ⟨text, rfl⟩⟩

/-- Five octets in a frame that does not declare them, at a limit of five. -/
theorem decompressFrame_limit_five :
    let d : Decompressor := ⟨{ SessionConfig.standard with maxFrameSize := some 5 }, none⟩
    let frame : ByteArray := ⟨#[0x28, 0xB5, 0x2F, 0xFD, 0, 0x50, 0x29, 0, 0, 104, 101, 108, 108, 111]⟩
    let header : FrameHeader := ⟨none, 2 ^ 20, 0, false, 6⟩
    let content : ByteArray := ⟨#[104, 101, 108, 108, 111]⟩
    ValidFrame none frame header content ∧ content.size ≤ maxCapacity
      ∧ header.windowSize ≤ StreamBuffers.maxWindow
      ∧ ((d.decompressFrame frame ByteArray.empty).1 = .ok ()
        ↔ content.size ≤ 5 ∧ ¬(header.contentSize = none ∧ 5 = 0)) := by
  intro d frame header content
  have hblock : HoldsBlock header frame 6 (header.reach ByteArray.empty ByteArray.empty) .initial
      ⟨.raw, true, 5⟩ .initial (frame.extract 9 14) :=
    .raw (by decide +kernel) (by decide) (by decide) _ _
  have hvalid : ValidFrame none frame header content :=
    ⟨by decide +kernel, rfl, ⟨14, .last hblock rfl, rfl⟩, ⟨nofun, nofun⟩⟩
  have hsize : content.size ≤ maxCapacity := by decide
  have hwindow : header.windowSize ≤ StreamBuffers.maxWindow := by decide
  exact ⟨hvalid, hsize, hwindow,
    (decompressFrame_limit d rfl hvalid hsize (fun _ => hwindow) ByteArray.empty).1⟩

/-- **A limit of zero is not the same to both decoders.**  Two valid frames hold nothing, and both sessions allow
nothing.  The frame that declares it is accepted, the other is refused. -/
theorem decompressFrame_limit_zero :
    let d : Decompressor := ⟨{ SessionConfig.standard with maxFrameSize := some 0 }, none⟩
    let sized : ByteArray := ⟨#[0x28, 0xB5, 0x2F, 0xFD, 0x20, 0, 1, 0, 0]⟩
    let unsized : ByteArray := ⟨#[0x28, 0xB5, 0x2F, 0xFD, 0, 0x50, 1, 0, 0]⟩
    ValidFrame none sized ⟨some 0, 0, 0, false, 6⟩ ByteArray.empty
      ∧ (d.decompressFrame sized ByteArray.empty).1 = .ok ()
      ∧ ValidFrame none unsized ⟨none, 2 ^ 20, 0, false, 6⟩ ByteArray.empty
      ∧ (d.decompressFrame unsized ByteArray.empty).1
        = .error (.error (.codec "decompress" "frame output exceeds limit 0")) := by
  intro d sized unsized
  have hsized : HoldsBlock ⟨some 0, 0, 0, false, 6⟩ sized 6
      (FrameHeader.reach ⟨some 0, 0, 0, false, 6⟩ ByteArray.empty ByteArray.empty) .initial ⟨.raw, true, 0⟩
      .initial (sized.extract 9 9) :=
    .raw (by decide +kernel) (by decide) (by decide) _ _
  have hunsized : HoldsBlock ⟨none, 2 ^ 20, 0, false, 6⟩ unsized 6
      (FrameHeader.reach ⟨none, 2 ^ 20, 0, false, 6⟩ ByteArray.empty ByteArray.empty) .initial
      ⟨.raw, true, 0⟩ .initial (unsized.extract 9 9) :=
    .raw (by decide +kernel) (by decide) (by decide) _ _
  refine ⟨⟨by decide +kernel, rfl, ⟨9, .last hsized rfl, rfl⟩, ⟨?_, nofun⟩⟩, by decide +kernel,
    ⟨by decide +kernel, rfl, ⟨9, .last hunsized rfl, rfl⟩, ⟨nofun, nofun⟩⟩, by decide +kernel⟩
  rintro _ ⟨⟩
  rfl

end Decompressor

end SharedDictionary
