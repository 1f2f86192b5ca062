import SharedDictionary.Proofs.Frame.Advance
import SharedDictionary.Proofs.Session.OutputBound
import SharedDictionary.Session.Splitting

/-!
# Every run ends

A session has two loops, and input that is damaged keeps neither of them busy.  The run over the frames of an input
splits off a frame in every turn, and what it splits off is not empty and lies within what is left
(`Splitting.run_eq`).  The loop that lets an output grow reads or hands out something in every turn: the codec's
decoder can be relied on, and has no patience at all (`reliable_codecDecoder`).

The main result is `Decompressor.decompress_terminates`.
-/

namespace SharedDictionary

/-! ### The codec's decoder -/

section Codec

variable {dict : Option LoadedDictionary} {cold once : Bool} {bytes input : ByteArray} {start stop next : Nat}
  {buffers buffers' : StreamBuffers} {position room : Nat} {s : CodecState}

/-- A course that is complete ends behind the block where it starts, within the input. -/
theorem courseBlocks_complete {header : FrameHeader} {buffer : Nat} {d : BlockDecoder} {w : StreamWindow}
    (h : (courseBlocks ⟨header, buffer, 0⟩ bytes stop start d w ByteArray.empty buffers).ending
      = .complete next buffers') : start < next ∧ next ≤ stop := by
  -- The blocks are decoded into an output that has room for all of their content.
  rcases hcourse : courseBlocks ⟨header, buffer, 0⟩ bytes stop start d w ByteArray.empty buffers
    with ⟨content, ending⟩
  rw [hcourse] at h
  obtain rfl : ending = .complete next buffers' := h
  have hempty : ByteArray.empty.size + ByteArray.empty.size ≤ content.size := Nat.zero_le _
  have honto : (streamBlocks ⟨header, buffer, 0⟩ bytes stop start d w
        ⟨ByteArray.empty ++ ByteArray.empty, content.size⟩).map (fun r => (⟨r.1, buffers, r.2⟩ : StreamStep))
      = (courseBlocks ⟨header, buffer, 0⟩ bytes stop start d w ByteArray.empty buffers).onto
        ⟨ByteArray.empty, content.size⟩ := streamBlocks_onto hempty
  have hfits : ByteArray.empty.size + content.size ≤ content.size := Nat.le_of_eq (Nat.zero_add _)
  rw [hcourse, Course.onto_complete hfits] at honto
  obtain ⟨r, hblocks, hstep⟩ := map_eq_ok_iff.mp honto
  obtain ⟨last, o, hlast, hfinish⟩ := blocksEnd_of_streamBlocks hblocks
  have hnext : r.1 = next := congrArg StreamStep.next hstep
  rw [← hnext]
  exact ⟨lt_of_streamBlocks hblocks, (fits_of_finish (blocksEnd_le hlast).2 hfinish).2.1⟩

theorem dataCourse_complete {header : FrameHeader}
    (h : (dataCourse dict cold header bytes start stop buffers room).ending = .complete next buffers') :
    start < next ∧ next ≤ stop := by
  unfold dataCourse at h
  split at h
  · rename_i size hdirect
    have hsize := frameSize_of_inOneGo hdirect
    have hpos := Decompressor.pos_of_frameSize hsize
    split at h
    · cases h
    · cases h
      exact ⟨Nat.lt_add_of_pos_right hpos, (frameSize_eq_ok hsize).1⟩
  · split at h
    · cases h
    · split at h
      · cases h
      · obtain ⟨hlt, hle⟩ := courseBlocks_complete h
        exact ⟨by omega, hle⟩

/-- **A frame that is complete takes some of the input**, and not more than there is. -/
theorem frameCourse_complete
    (h : (frameCourse dict cold bytes start stop buffers room).ending = .complete next buffers') :
    start < next ∧ next ≤ stop := by
  unfold frameCourse at h
  split at h
  · cases h
  · cases h
  · split at h
    · cases h
    · cases h
      omega
  · exact dataCourse_complete h

/-- The codec's decoder stands in front of the end of the frame that it decodes. -/
structure CodecState.Stands (input : ByteArray) (position : Nat) (s : CodecState) : Prop where
  position_le : position ≤ input.size
  complete : ∀ course next buffers, s.course = some course → course.ending = .complete next buffers →
    position < next ∧ next ≤ input.size

theorem CodecState.Stands.courseAt_complete (h : s.Stands input position)
    (hending : (s.courseAt input position room).ending = .complete next buffers) :
    position < next ∧ next ≤ input.size := by
  unfold courseAt at hending
  rcases hcourse : s.course with _ | course
  · rw [hcourse] at hending
    exact frameCourse_complete hending
  · rw [hcourse] at hending
    exact h.complete course next buffers hcourse hending

/-- **Each call of the codec's decoder comes to something.** -/
theorem CodecState.Stands.call (h : s.Stands input position) (hroom : 0 < room) {c : StreamCall CodecState}
    (hcall : (codecDecoder dict once).call input position room s = .ok c) :
    position ≤ c.position ∧ c.state.Stands input c.position
      ∧ (position < input.size → position < c.position ∨ 0 < c.written.size) := by
  have hhand : s.handOut once input position room (s.courseAt input position room) = .ok c := hcall
  unfold CodecState.handOut at hhand
  split at hhand
  · rename_i hmore
    cases hhand
    refine ⟨Nat.le_refl _, ⟨h.position_le, ?_⟩, fun _ => .inr ?_⟩
    · rintro _ next buffers ⟨⟩ hending
      exact h.courseAt_complete hending
    · rw [ByteArray.size_extract]
      omega
  · split at hhand
    · rename_i next buffers hending
      cases hhand
      obtain ⟨hlt, hle⟩ := h.courseAt_complete hending
      exact ⟨Nat.le_of_lt hlt, ⟨hle, nofun⟩, fun _ => .inl hlt⟩
    · cases hhand
      refine ⟨h.position_le, ⟨Nat.le_refl _, ?_⟩, fun hleft => .inl hleft⟩
      rintro _ next buffers ⟨⟩ ⟨⟩
    · cases hhand

theorem stands_of_reaches (h : (codecDecoder dict once).Reaches input position s) : s.Stands input position := by
  induction h with
  | initial => exact ⟨Nat.zero_le _, nofun⟩
  | call h hroom hcall ih => exact (ih.call hroom hcall).2.1

/-- **The codec's decoder can be relied on**, and no call of it comes to nothing. -/
theorem reliable_codecDecoder (dict : Option LoadedDictionary) (once : Bool) (input : ByteArray) :
    (codecDecoder dict once).Reliable input 0 where
  fits := Growing.fits_codecDecoder dict once input
  forward hreaches hroom hcall := by
    obtain ⟨hforward, hstands, -⟩ := (stands_of_reaches hreaches).call hroom hcall
    exact ⟨hforward, hstands.position_le⟩
  patient hreaches hidles := by
    cases hidles with
    | never => exact Nat.le_refl _
    | call hleft hroom hcall hposition hwritten rest =>
        obtain ⟨-, -, hmoves⟩ := (stands_of_reaches hreaches).call hroom hcall
        have hsomething := hmoves hleft
        omega

end Codec

/-! ### The run over frames -/

namespace Splitting

variable {d : Decompressor} {rest out : ByteArray} {turns : Nat}

/-- A frame that is found can be split off. -/
theorem splitAt_of_frameSize {size : Nat} (h : frameSize rest 0 rest.size = .ok size) :
    splitAt rest size = .ok (rest.extract 0 size, rest.extract size rest.size) := by
  have hle := (frameSize_eq_ok h).1
  exact if_neg (by omega)

theorem run_of_empty (hempty : rest.isEmpty = true) :
    run turns ⟨d, rest, out⟩ = .ended (.ok out, d) := by
  cases turns <;> exact if_pos hempty

theorem run_succ_of_nonempty (hempty : ¬rest.isEmpty = true) :
    run (turns + 1) ⟨d, rest, out⟩ = match turn ⟨d, rest, out⟩ with
      | .again s => run turns s
      | .ended result => .ended result := if_neg hempty

/-- What follows a position is a part of its own. -/
theorem standsAt_rest {middle : Nat} (h : middle ≤ rest.size) :
    StandsAt rest middle (rest.extract middle rest.size) := by
  have hsize : middle + (rest.extract middle rest.size).size = rest.size := by
    rw [ByteArray.size_extract]
    omega
  exact ⟨Nat.le_of_eq hsize, by rw [hsize]⟩

/-- **A run ends, and every turn takes a byte at least**, so that as many turns are enough as there are bytes. -/
theorem run_eq (d : Decompressor) (out : ByteArray) (hturns : rest.size ≤ turns) :
    run turns ⟨d, rest, out⟩ = .ended (d.decompressFrom rest 0 out) := by
  induction turns generalizing d rest out with
  | zero =>
      have hzero : rest.size = 0 := Nat.le_zero.mp hturns
      have hnothing : rest = ByteArray.empty := ByteArray.size_eq_zero_iff.mp hzero
      rw [run_of_empty (isEmpty_iff.mpr hnothing), d.decompressFrom_of_le out (by omega)]
  | succ turns ih =>
      by_cases hempty : rest.isEmpty = true
      · have hnothing := isEmpty_iff.mp hempty
        rw [run_of_empty hempty, d.decompressFrom_of_le out (by rw [hnothing]; exact Nat.lt_irrefl 0)]
      · have hmore : 0 < rest.size := Nat.pos_of_ne_zero fun hzero =>
          hempty (isEmpty_iff.mpr (ByteArray.size_eq_zero_iff.mp hzero))
        rw [run_succ_of_nonempty hempty, turn]
        dsimp only
        rcases hsize : frameSize rest 0 rest.size with e | size
        · rw [d.decompressFrom_of_error out hmore hsize]
        · have hpos := Decompressor.pos_of_frameSize hsize
          have hle := (frameSize_eq_ok hsize).1
          have hframe : rest.extract 0 (0 + size) = rest.extract 0 size := by rw [Nat.zero_add]
          dsimp only
          rw [splitAt_of_frameSize hsize]
          dsimp only
          rcases hdecode : d.decode (rest.extract 0 size) with fault | content
          · rw [Decompressor.decompressFrame_of_error hdecode,
              Decompressor.decompressFrom_of_decode_error hmore hsize (by rw [hframe]; exact hdecode)]
          · have hstands : StandsAt rest size (rest.extract size rest.size) := standsAt_rest (by omega)
            have hend : size + (rest.extract size rest.size).size = rest.size := by
              rw [ByteArray.size_extract]
              omega
            have hbehind := Decompressor.decompressFrom_of_standsAt hstands hend d.afterFrame 0 (out ++ content)
            rw [Decompressor.decompressFrame_of_ok hdecode,
              Decompressor.decompressFrom_of_decode_ok hmore hsize (by rw [hframe]; exact hdecode),
              Nat.zero_add, ← Nat.add_zero size, hbehind, Nat.add_zero]
            exact ih d.afterFrame (out ++ content) (by omega)

end Splitting

namespace Decompressor

/-- **Every run ends, whatever the input is.**

A run over the frames of an input takes no more turns than the input has bytes: every frame that is found has at
least one byte and lies within what is left.  Where an input declares no size, the loop that lets an output grow
comes to its result after a number of turns that its input and its limit determine; each of them reads or hands out
something, within both.  With any decoder that can be relied on the loop ends as well; then so many turns in a row
may come to nothing as the decoder has patience. -/
theorem decompress_terminates (d : Decompressor) (input : ByteArray) :
    (Splitting.start d input).run input.size = .ended (d.decompressFrames input)
      ∧ (∀ rest size, frameSize rest 0 rest.size = .ok size → 0 < size ∧ size ≤ rest.size)
      ∧ (∀ dict, d.dictionary = .ok dict → declaredSize? input = some none →
        Growing.Terminates (codecDecoder dict d.hasPendingPrefix) input d.config.frameLimit 0
          ∧ ∃ result, (Growing.start (codecDecoder dict d.hasPendingPrefix) d.config.frameLimit).run
              (codecDecoder dict d.hasPendingPrefix) input d.config.frameLimit
              (input.size + d.config.frameLimit + 1) = .ended result
            ∧ d.decode input = result.mapError fun e => .error (d.streamError input e))
      ∧ ∀ (σ : Type) (D : StreamDecoder σ) (patience : Nat), D.Reliable input patience →
        Growing.Terminates D input d.config.frameLimit patience := by
  refine ⟨Splitting.run_eq d ByteArray.empty (Nat.le_refl _), fun rest size hsize => ?_,
    fun dict hdict hdeclared => ?_, fun σ D patience hD => Growing.terminates_of_reliable hD _⟩
  · have hle := (frameSize_eq_ok hsize).1
    exact ⟨pos_of_frameSize hsize, by omega⟩
  · have hloop := Growing.terminates_of_reliable
      (reliable_codecDecoder dict d.hasPendingPrefix input) d.config.frameLimit
    obtain ⟨result, hrun⟩ := hloop.ends
    obtain ⟨result', hends, hdecode⟩ := decode_of_ends hdict hdeclared
    obtain rfl : result = result' := hends.eq_of_run hrun
    rw [Nat.zero_add, Nat.one_mul] at hrun
    exact ⟨hloop, result, hrun, hdecode⟩

/-- A frame without a declared size, and a skippable one behind it. -/
theorem decompress_terminates_hello :
    let d : Decompressor := ⟨.standard, none⟩
    let input : ByteArray := ⟨#[0x28, 0xB5, 0x2F, 0xFD, 0, 0x50, 0x29, 0, 0, 104, 101, 108, 108, 111,
      0x50, 0x2A, 0x4D, 0x18, 0, 0, 0, 0]⟩
    (Splitting.start d input).run 22 = .ended (d.decompressFrames input)
      ∧ (frameSize input 0 input.size = .ok 14 ∧ 0 < 14 ∧ 14 ≤ input.size)
      ∧ (d.dictionary = .ok none ∧ declaredSize? input = some none
        ∧ ∃ result, (Growing.start (codecDecoder none false) d.config.frameLimit).run (codecDecoder none false)
            input d.config.frameLimit (input.size + d.config.frameLimit + 1) = .ended result
          ∧ d.decode input = result.mapError fun e => .error (d.streamError input e))
      ∧ (codecDecoder none false).Reliable input 0
      ∧ Growing.Terminates (codecDecoder none false) input d.config.frameLimit 0 := by
  intro d input
  have hfound : frameSize input 0 input.size = .ok 14 := by decide +kernel
  have hdeclared : declaredSize? input = some none := by decide +kernel
  have hreliable := reliable_codecDecoder none false input
  obtain ⟨hsplit, hwithin, hloop, hany⟩ := decompress_terminates d input
  exact ⟨hsplit, ⟨hfound, hwithin input 14 hfound⟩, ⟨rfl, hdeclared, (hloop none rfl hdeclared).2⟩, hreliable,
    hany _ _ 0 hreliable⟩

end Decompressor

end SharedDictionary
