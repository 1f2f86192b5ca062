import SharedDictionary.Proofs.Frame.Growth
import SharedDictionary.Proofs.Session.TrailingFrames

/-!
# How much a call appends

Input is not to be trusted, and what it says of its size is held against the limit of the session in two ways.  A
size that is declared is checked before anything is decoded, and all frames of the input share the room of that
size.  Where none is declared, an output grows by steps up to the limit, and the loop that lets it grow comes to
what decoding all frames comes to (`Growing.ends_decodeStream`).

So a call appends no more than the limit, and exactly what is declared, whatever the input is and however it
fails on the way.  The output of the loop never exceeds the limit either, nor does what it has room for: neither
between turns nor within one (`Growing.Within`).

The main result is `Decompressor.decompressFrame_bounded`.
-/

namespace SharedDictionary

/-! ### The loop over frames -/

/-- A frame that is decoded or skipped takes some of the input. -/
theorem lt_of_streamFrame {dict : Option LoadedDictionary} {cold : Bool} {bytes : ByteArray} {start stop : Nat}
    {buffers : StreamBuffers} {o : StreamOutput} {step : StreamStep}
    (h : streamFrame dict cold bytes start stop buffers o = .ok step) : start < step.next := by
  unfold streamFrame at h
  split at h
  · cases h
  · cases h
  · split at h
    · cases h
    · cases h
      dsimp only
      omega
  · rename_i header hread
    have hpos := Decompressor.pos_of_frameSize (frameSize_of_streamDataFrame hread h).2
    omega

/-- A frame leaves the limit of the output as it is. -/
theorem Course.output_of_onto {c : Course} {o : StreamOutput} {step : StreamStep} (h : c.onto o = .ok step) :
    step.output = ⟨step.output.bytes, o.max⟩ := by
  unfold onto at h
  split at h
  · cases h
  · split at h <;> cases h
    rfl

namespace Growing

variable {σ : Type} {D : StreamDecoder σ} {dict : Option LoadedDictionary} {once cold : Bool} {input : ByteArray}
  {max : Nat}

/-- In front of a frame, **the loop comes to what decoding frame by frame comes to**. -/
theorem ends_streamFrames (first : Option LoadedDictionary) {step : StreamStep} {g : Growing CodecState}
    {fuel : Nat} (hg : g.Fresh max dict cold step) (hfuel : input.size - step.next < fuel) :
    g.Ends (codecDecoder first once) input max
      (streamFrames dict once cold input step.next input.size step.buffers ⟨step.output.bytes, max⟩ fuel) := by
  induction fuel generalizing dict cold step g with
  | zero => exact absurd hfuel (Nat.not_lt_zero _)
  | succ fuel ih =>
      rw [streamFrames]
      cases hmake : g.makeRoom max with
      | error e =>
          obtain ⟨rfl, hmax⟩ := hg.stepwise.makeRoom_error hmake
          rw [hg.bytes_eq] at hmax
          rw [if_pos (StreamOutput.isFull_iff.mpr hmax)]
          exact ends_limit hmake
      | ok made =>
          obtain ⟨hstate, -, hbytes, hmade, hroom⟩ := hg.stepwise.makeRoom_ok hmake
          have hframe : streamFrame dict cold input step.next input.size step.buffers ⟨made.bytes, max⟩
              = (made.state.courseAt input made.position (made.capacity - made.bytes.size)).onto
                  ⟨made.bytes, max⟩ := hg.streamFrame_eq hmake
          have hless : made.bytes.size < max := Nat.lt_of_lt_of_le hroom hmade.capacity_le
          have hnot : ¬StreamOutput.isFull ⟨made.bytes, max⟩ = true :=
            fun hfull => Nat.ne_of_lt hless (StreamOutput.isFull_iff.mp hfull)
          rw [← hg.bytes_eq, ← hbytes, if_neg hnot]
          refine Poised.ends_of_course ⟨hmake, hmade, hroom, rfl⟩ ?_
          rw [← hframe, hstate, hg.state_eq]
          cases hstep : streamFrame dict cold input step.next input.size step.buffers ⟨made.bytes, max⟩ with
          | error e => rfl
          | ok behind =>
              unfold Follows
              dsimp only
              split
              · rfl
              · rename_i hmore
                -- The frame took some of the input, so what is left of the fuel is enough for the rest.
                have hnext := lt_of_streamFrame hstep
                have hwithin := (isFrame_of_streamFrame (Nat.le_refl _) hstep).2.1
                have hmax : behind.output = ⟨behind.output.bytes, max⟩ :=
                  Course.output_of_onto (hframe.symm.trans hstep)
                intro g' hg'
                rw [hmax]
                exact ih hg' (by omega)

/-- **The loop comes to what decoding all frames comes to.** -/
theorem ends_decodeStream (dict : Option LoadedDictionary) (once : Bool) (input : ByteArray) (max : Nat) :
    (start (codecDecoder dict once) max).Ends (codecDecoder dict once) input max
      (decodeStream dict once input max) := by
  have hfresh : (start (codecDecoder dict once) max).Fresh max dict dict.isSome
      ⟨0, ⟨0, 0⟩, ⟨ByteArray.empty, max⟩⟩ :=
    ⟨rfl, rfl, rfl, stepwise_start _ _⟩
  exact ends_streamFrames dict hfresh (Nat.lt_succ_self _)

/-- The output does not exceed the limit, nor does what it has room for: in front of a turn, when room was made and
behind a call. -/
structure Within (D : StreamDecoder σ) (input : ByteArray) (max : Nat) (g : Growing σ) : Prop where
  size_le : g.bytes.size ≤ g.capacity
  capacity_le : g.capacity ≤ max
  grown : ∀ made, g.makeRoom max = .ok made →
    made.bytes.size < made.capacity ∧ made.capacity ≤ max
      ∧ made.capacity ≤ made.bytes.size + StreamOutput.growth
  written : ∀ made call, g.makeRoom max = .ok made →
    D.call input made.position (made.capacity - made.bytes.size) made.state = .ok call →
      (made.bytes ++ call.written).size ≤ made.capacity

/-- **The loop keeps its output within the limit**, whatever decoder it calls and whatever the input is. -/
theorem within_run (hfits : D.Fits input) {turns : Nat} {g : Growing σ}
    (h : (start D max).run D input max turns = .again g) : g.Within D input max := by
  have hg : g.Stepwise max := (stepwise_run hfits (stepwise_start D max) turns).1 g h
  refine ⟨hg.size_le, hg.capacity_le, fun made hmake => ?_, fun made call hmake hcall => ?_⟩
  · obtain ⟨-, -, -, hmade, hroom⟩ := hg.makeRoom_ok hmake
    have hnext := hmade.next hroom
    have hgrowth : StreamOutput.growth = 131072 := rfl
    rw [hgrowth] at hnext ⊢
    exact ⟨hroom, hmade.capacity_le, by omega⟩
  · obtain ⟨-, -, -, -, hroom⟩ := hg.makeRoom_ok hmake
    have hwritten := hfits _ _ _ _ hcall
    rw [ByteArray.size_append]
    omega

end Growing

/-! ### Sessions -/

namespace Decompressor

variable {d : Decompressor} {input content : ByteArray}

/-- Content that is decoded by steps does not exceed the limit. -/
theorem size_le_of_decodeStream {dict : Option LoadedDictionary} {once : Bool} {max : Nat}
    (h : decodeStream dict once input max = .ok content) : content.size ≤ max := by
  obtain ⟨turns, hrun⟩ := Growing.ends_decodeStream dict once input max
  rw [h] at hrun
  have hfits := Growing.fits_codecDecoder dict once input
  exact (Growing.stepwise_run hfits (Growing.stepwise_start _ _) turns).2 content hrun

/-- Content does not exceed the limit, and is as long as it is declared to be. -/
theorem size_of_decode (h : d.decode input = .ok content) :
    content.size ≤ d.config.frameLimit
      ∧ ∀ size, declaredSize? input = some (some size) → content.size = size := by
  obtain ⟨dict, -, ⟨size, hdeclared, hlimit, -, hdecode⟩ | ⟨hdeclared, hdecode⟩⟩ := decode_eq_ok_iff.mp h
  · have hle : content.size ≤ size := size_le_of_decodeConcatenated (Nat.zero_le _) hdecode
    refine ⟨Nat.le_trans hle hlimit, fun size' hsize' => ?_⟩
    obtain rfl : size = size' := Option.some.inj (Option.some.inj (hdeclared.symm.trans hsize'))
    obtain ⟨header, hread, hheader⟩ | ⟨length, -, hzero⟩ := declaredSize?_eq_some hdeclared
    · exact size_of_decodeWhole hread hheader hdecode
    · -- A skippable frame declares nothing, and so do the frames behind it.
      obtain rfl := Option.some.inj hzero
      exact Nat.le_zero.mp hle
  · refine ⟨size_le_of_decodeStream hdecode, fun size' hsize' => ?_⟩
    rw [hdeclared] at hsize'
    cases hsize'

/-- Where no size is declared, a session decodes what the loop comes to. -/
theorem decode_of_ends {dict : Option LoadedDictionary} (hdict : d.dictionary = .ok dict)
    (hdeclared : declaredSize? input = some none) :
    ∃ result, (Growing.start (codecDecoder dict d.hasPendingPrefix) d.config.frameLimit).Ends
        (codecDecoder dict d.hasPendingPrefix) input d.config.frameLimit result
      ∧ d.decode input = result.mapError fun e => .error (d.streamError input e) := by
  refine ⟨_, Growing.ends_decodeStream dict d.hasPendingPrefix input d.config.frameLimit, ?_⟩
  have hcheck : d.checkSize input = .ok none := checkSize_eq_ok_iff.mpr ⟨hdeclared, nofun⟩
  rw [decode, hcheck, hdict]

/-- **A call appends no more than the limit of its session, and exactly what the input declares.**

That is so for any input, with any dictionary and any limit.  Where the input declares no size, the call is
the loop that lets an output grow, with a decoder that hands out no more than there is room for.  And with any
such decoder, wherever that loop stands, neither the output nor what it has room for exceeds the limit. -/
theorem decompressFrame_bounded (d : Decompressor) (input out : ByteArray) :
    ((d.decompressFrame input out).1 = .ok () →
      ∃ content, d.decompressFrame input out = (.ok (), d.afterFrame, out ++ content)
        ∧ content.size ≤ d.config.frameLimit
        ∧ ∀ size, declaredSize? input = some (some size) → content.size = size)
    ∧ (∀ dict, d.dictionary = .ok dict → declaredSize? input = some none →
      (codecDecoder dict d.hasPendingPrefix).Fits input
        ∧ ∃ result, (Growing.start (codecDecoder dict d.hasPendingPrefix) d.config.frameLimit).Ends
            (codecDecoder dict d.hasPendingPrefix) input d.config.frameLimit result
          ∧ d.decode input = result.mapError fun e => .error (d.streamError input e))
    ∧ ∀ (σ : Type) (D : StreamDecoder σ), D.Fits input → ∀ turns g,
      (Growing.start D d.config.frameLimit).run D input d.config.frameLimit turns = .again g →
        g.Within D input d.config.frameLimit := by
  refine ⟨fun hok => ?_, fun dict hdict hdeclared => ?_, fun σ D hfits turns g hrun => ?_⟩
  · rcases hdecode : d.decode input with fault | content
    · rw [decompressFrame_of_error hdecode out] at hok
      cases hok
    · obtain ⟨hlimit, hsize⟩ := size_of_decode hdecode
      exact ⟨content, decompressFrame_of_ok hdecode out, hlimit, hsize⟩
  · exact ⟨Growing.fits_codecDecoder dict d.hasPendingPrefix input, decode_of_ends hdict hdeclared⟩
  · exact Growing.within_run hfits hrun

/-- A frame that declares its size, and one that does not, with the loop after its first turn. -/
theorem decompressFrame_bounded_hello :
    let d : Decompressor := ⟨{ SessionConfig.standard with maxFrameSize := some 6 }, none⟩
    let sized : ByteArray := ⟨#[0x28, 0xB5, 0x2F, 0xFD, 0x20, 5, 0x29, 0, 0, 104, 101, 108, 108, 111]⟩
    let unsized : ByteArray := ⟨#[0x28, 0xB5, 0x2F, 0xFD, 0, 0x50, 0x29, 0, 0, 104, 101, 108, 108, 111]⟩
    let skippable : ByteArray := ⟨#[0x50, 0x2A, 0x4D, 0x18, 0, 0, 0, 0]⟩
    (∃ content, d.decompressFrame sized ⟨#[9]⟩ = (.ok (), d.afterFrame, ⟨#[9]⟩ ++ content)
        ∧ content.size ≤ 6 ∧ content.size = 5)
      ∧ (∃ result, (Growing.start (codecDecoder none false) 6).Ends (codecDecoder none false) unsized 6 result
        ∧ d.decode unsized = result.mapError fun e => .error (d.streamError unsized e))
      ∧ ∃ g, (Growing.start (codecDecoder none false) 6).run (codecDecoder none false) (unsized ++ skippable) 6 1
          = .again g ∧ g.bytes.size = 5 ∧ g.Within (codecDecoder none false) (unsized ++ skippable) 6 := by
  intro d sized unsized skippable
  have hok : (d.decompressFrame sized ⟨#[9]⟩).1 = .ok () := by decide +kernel
  have hdeclared : declaredSize? sized = some (some 5) := by decide +kernel
  have hundeclared : declaredSize? unsized = some none := by decide +kernel
  obtain ⟨content, hresult, hlimit, hsize⟩ := (decompressFrame_bounded d sized ⟨#[9]⟩).1 hok
  have hloop := (decompressFrame_bounded d unsized ⟨#[9]⟩).2.1 none rfl hundeclared
  refine ⟨⟨content, hresult, hlimit, hsize 5 hdeclared⟩, hloop.2, ?_⟩
  have hfits := Growing.fits_codecDecoder none false (unsized ++ skippable)
  have hturn : (match (Growing.start (codecDecoder none false) 6).run (codecDecoder none false)
      (unsized ++ skippable) 6 1 with
    | .again g => g.bytes.size
    | .ended _ => 0) = 5 := by decide +kernel
  rcases hrun : (Growing.start (codecDecoder none false) 6).run (codecDecoder none false)
      (unsized ++ skippable) 6 1 with g | result
  · rw [hrun] at hturn
    exact ⟨g, rfl, hturn, (decompressFrame_bounded d (unsized ++ skippable) ⟨#[9]⟩).2.2 _ _ hfits 1 g hrun⟩
  · rw [hrun] at hturn
    cases hturn

end Decompressor

end SharedDictionary
