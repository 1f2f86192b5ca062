import SharedDictionary.Proofs.Session.OutputBound
import SharedDictionary.Proofs.Session.Truncation

/-!
# Input that ends the program

A session holds the size that an input declares against its limit, and makes room for all of it before it decodes
anything.  But the limit may be larger than any memory, and then so may be the room
(`Decompressor.Overflows`).  A run comes to such a frame behind frames that it has read
(`Decompressor.RunOverflows`).

Nothing else ends the program.  The frames that a run finds are not empty and lie within the input, and the loop that
lets an output grow stays within its limit.  So under a limit that some memory holds every input is read or
refused.

The main result is `Decompressor.decompress_panics_iff`.
-/

namespace SharedDictionary

namespace Decompressor

variable {d : Decompressor} {input frame rest : ByteArray} {text : String}

/-- A session makes room for more than any memory holds. -/
structure Overflows (d : Decompressor) (input : ByteArray) : Prop where
  dictionary : ∃ dict, d.dictionary = .ok dict
  size : ∃ size, declaredSize? input = some (some size) ∧ maxCapacity < size ∧ size ≤ d.config.frameLimit

theorem Overflows.lt_frameLimit (h : d.Overflows input) : maxCapacity < d.config.frameLimit := by
  obtain ⟨size, -, hlarge, hlimit⟩ := h.size
  exact Nat.lt_of_lt_of_le hlarge hlimit

/-- **Decoding ends the program for one reason only.** -/
theorem decode_panics_iff :
    d.decode input = .error (.panic text) ↔ text = "capacity overflow" ∧ d.Overflows input := by
  constructor
  · intro h
    obtain ⟨htext, hsize⟩ := panic_of_decode h
    refine ⟨htext, ⟨?_, hsize⟩⟩
    -- A dictionary that cannot be prepared is an error, and it comes first.
    cases hdict : d.dictionary with
    | ok dict => exact ⟨dict, rfl⟩
    | error e =>
        unfold decode at h
        rw [hdict] at h
        split at h <;> cases h
  · rintro ⟨rfl, ⟨dict, hdict⟩, size, hdeclared, hlarge, hlimit⟩
    have hcheck : d.checkSize input = .ok (some size) :=
      checkSize_eq_ok_iff.mpr ⟨hdeclared, by rintro _ ⟨⟩; exact hlimit⟩
    rw [decode, hcheck, hdict]
    exact if_pos hlarge

theorem decompressFrame_panics_iff (out : ByteArray) :
    (d.decompressFrame input out).1 = .error (.panic text) ↔ text = "capacity overflow" ∧ d.Overflows input := by
  rw [← decode_panics_iff]
  rcases hdecode : d.decode input with fault | content
  · rw [decompressFrame_of_error hdecode]
    simp only [Except.error.injEq]
  · rw [decompressFrame_of_ok hdecode]
    exact ⟨nofun, nofun⟩

/-! ### Runs -/

/-- A run over some bytes comes to a frame that a session makes too much room for. -/
inductive RunOverflows : Decompressor → ByteArray → Prop
  | here {d : Decompressor} {frame : ByteArray} (hframe : isWholeFrame frame = true) (hsize : d.Overflows frame)
      (rest : ByteArray) : RunOverflows d (frame ++ rest)
  | behind {d : Decompressor} {frame content rest : ByteArray} (hframe : isWholeFrame frame = true)
      (hdecode : d.decode frame = .ok content) (hrest : RunOverflows d.afterFrame rest) :
      RunOverflows d (frame ++ rest)

theorem RunOverflows.lt_frameLimit (h : RunOverflows d input) : maxCapacity < d.config.frameLimit := by
  induction h with
  | here hframe hsize rest => exact hsize.lt_frameLimit
  | behind hframe hdecode hrest ih => rwa [config_afterFrame] at ih

/-- A run over a whole frame and what follows it. -/
theorem decompressFrames_frame_append (d : Decompressor) (hframe : isWholeFrame frame = true) (rest : ByteArray) :
    d.decompressFrames (frame ++ rest) = match d.decode frame with
      | .error fault => (.error fault, d)
      | .ok content =>
        ((d.afterFrame.decompressFrames rest).1.map (content ++ ·), (d.afterFrame.decompressFrames rest).2) := by
  have hone : joined [frame] = frame := by rw [joined_cons, joined_nil, ByteArray.append_empty]
  have hwhole : ∀ f ∈ [frame], isWholeFrame f = true := fun f hmem => by rwa [List.mem_singleton.mp hmem]
  have hrun := decompressFrames_append d hwhole rest
  rw [hone, decompressEach] at hrun
  rw [hrun]
  rcases hdecode : d.decode frame with fault | content
  · rw [decompressFrame_of_error hdecode]
  · rw [decompressFrame_of_ok hdecode, ByteArray.empty_append]
    rfl

theorem RunOverflows.panics (h : RunOverflows d input) :
    (d.decompressFrames input).1 = .error (.panic "capacity overflow") := by
  induction h with
  | @here d frame hframe hsize rest =>
      have hdecode : d.decode frame = .error (.panic "capacity overflow") := decode_panics_iff.mpr ⟨rfl, hsize⟩
      rw [decompressFrames_frame_append d hframe, hdecode]
  | @behind d frame content rest hframe hdecode hrest ih =>
      rw [decompressFrames_frame_append d hframe, hdecode]
      dsimp only
      rw [ih]
      rfl

/-- **A run ends the program where it comes to such a frame**, and nowhere else. -/
theorem runOverflows_of_panic {start : Nat} {out : ByteArray}
    (h : (d.decompressFrom input start out).1 = .error (.panic text)) :
    text = "capacity overflow" ∧ RunOverflows d (input.extract start input.size) := by
  induction d, start, out using run_induction input with
  | done d start out hdone =>
      rw [d.decompressFrom_of_le out hdone] at h
      cases h
  | unfound d start out e hmore hsize =>
      rw [d.decompressFrom_of_error out hmore hsize] at h
      cases h
  | fails d start out size fault hmore hsize hdecode =>
      rw [decompressFrom_of_decode_error hmore hsize hdecode] at h
      have hfault : fault = .panic text := Except.error.inj h
      rw [hfault] at hdecode
      obtain ⟨htext, hover⟩ := decode_panics_iff.mp hdecode
      have hle := (frameSize_eq_ok hsize).1
      rw [ByteArray.extract_eq_extract_append_extract (start + size) (Nat.le_add_right _ _) hle]
      exact ⟨htext, .here (isWholeFrame_extract hsize (Nat.le_refl _)) hover _⟩
  | reads d start out size content hmore hsize hdecode ih =>
      rw [decompressFrom_of_decode_ok hmore hsize hdecode] at h
      obtain ⟨htext, hrest⟩ := ih h
      have hle := (frameSize_eq_ok hsize).1
      rw [ByteArray.extract_eq_extract_append_extract (start + size) (Nat.le_add_right _ _) hle]
      exact ⟨htext, .behind (isWholeFrame_extract hsize (Nat.le_refl _)) hdecode hrest⟩

theorem decompressFrames_panics_iff :
    (d.decompressFrames input).1 = .error (.panic text)
      ↔ text = "capacity overflow" ∧ RunOverflows d input := by
  constructor
  · intro h
    have hrun := runOverflows_of_panic h
    rwa [ByteArray.extract_zero_size] at hrun
  · rintro ⟨rfl, h⟩
    exact h.panics

/-- **A call ends the program if its input declares more than any memory holds, within the limit, and a run if it
comes to such a frame; and nothing else does.**

Either takes a limit that is itself larger than any memory.  Apart from that every call returns: the frames that a
run finds in an input are not empty and lie within it, and wherever the loop stands that lets an output grow, its
output has not passed the limit, and it never makes room for more than one step at a time. -/
theorem decompress_panics_iff (d : Decompressor) (input out : ByteArray) (text : String) :
    ((d.decompressFrame input out).1 = .error (.panic text)
        ↔ text = "capacity overflow" ∧ d.Overflows input)
      ∧ ((d.decompressFrames input).1 = .error (.panic text)
        ↔ text = "capacity overflow" ∧ RunOverflows d input)
      ∧ (d.Overflows input ∨ RunOverflows d input → maxCapacity < d.config.frameLimit)
      ∧ (∀ start size, frameSize input start input.size = .ok size →
        0 < size ∧ start + size ≤ input.size)
      ∧ ∀ (σ : Type) (D : StreamDecoder σ), D.Fits input → ∀ turns g,
        (Growing.start D d.config.frameLimit).run D input d.config.frameLimit turns = .again g →
          g.Within D input d.config.frameLimit := by
  refine ⟨decompressFrame_panics_iff out, decompressFrames_panics_iff, ?_, fun start size hsize => ?_,
    fun σ D hfits turns g hrun => Growing.within_run hfits hrun⟩
  · rintro (h | h)
    · exact h.lt_frameLimit
    · exact h.lt_frameLimit
  · exact ⟨pos_of_frameSize hsize, (frameSize_eq_ok hsize).1⟩

/-- A frame that declares more than any memory holds, with another behind it, under a limit that allows both. -/
theorem decompress_panics_iff_unlimited :
    let d : Decompressor := ⟨{ SessionConfig.standard with maxFrameSize := some (2 ^ 64 - 1) }, none⟩
    let frame : ByteArray := ⟨#[0x28, 0xB5, 0x2F, 0xFD, 0xE0, 0, 0, 0, 0, 0, 0, 0, 0x80, 1, 0, 0]⟩
    let hello : ByteArray := ⟨#[0x28, 0xB5, 0x2F, 0xFD, 0, 0x50, 0x29, 0, 0, 104, 101, 108, 108, 111]⟩
    (d.decompressFrames (frame ++ hello)).1 = .error (.panic "capacity overflow")
      ∧ maxCapacity < d.config.frameLimit
      ∧ (frameSize (frame ++ hello) 16 (frame ++ hello).size = .ok 14 ∧ 16 + 14 ≤ (frame ++ hello).size)
      ∧ (Growing.start (codecDecoder none false) d.config.frameLimit).Within (codecDecoder none false)
          (frame ++ hello) d.config.frameLimit := by
  intro d frame hello
  have hsize : declaredSize? frame = some (some (2 ^ 63)) := by decide +kernel
  have hover : d.Overflows frame := ⟨⟨none, rfl⟩, 2 ^ 63, hsize, by decide, by decide⟩
  have hrun : RunOverflows d (frame ++ hello) := .here (by decide +kernel) hover hello
  have hsecond : frameSize (frame ++ hello) 16 (frame ++ hello).size = .ok 14 := by decide +kernel
  obtain ⟨-, hpanics, hlimit, hfound, hloop⟩ :=
    decompress_panics_iff d (frame ++ hello) ByteArray.empty "capacity overflow"
  exact ⟨hpanics.mpr ⟨rfl, hrun⟩, hlimit (.inr hrun), ⟨hsecond, (hfound 16 14 hsecond).2⟩,
    hloop _ _ (Growing.fits_codecDecoder none false _) 0 _ rfl⟩

/-- **Input may end the program**: a whole frame, empty but for its header, which declares more than any memory
holds, under a limit that allows it. -/
theorem decompress_declared_panics :
    let d : Decompressor := ⟨{ SessionConfig.standard with maxFrameSize := some (2 ^ 64 - 1) }, none⟩
    let frame : ByteArray := ⟨#[0x28, 0xB5, 0x2F, 0xFD, 0xE0, 0, 0, 0, 0, 0, 0, 0, 0x80, 1, 0, 0]⟩
    isWholeFrame frame = true
      ∧ (d.decompressFrame frame ByteArray.empty).1 = .error (.panic "capacity overflow")
      ∧ (d.decompressFrames frame).1 = .error (.panic "capacity overflow") :=
  ⟨by decide +kernel, by decide +kernel, by decide +kernel⟩

end Decompressor

end SharedDictionary
