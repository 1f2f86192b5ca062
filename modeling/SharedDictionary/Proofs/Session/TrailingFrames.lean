import SharedDictionary.Proofs.Frame.Acceptance
import SharedDictionary.Proofs.Frame.Room
import SharedDictionary.Proofs.Frame.Skippable
import SharedDictionary.Proofs.Session.Mismatch
import SharedDictionary.Proofs.Session.ValidFrames

/-!
# Frames behind the first

A call that reads one frame is given an input, and what it does not refuse is not always one frame.  Both
decoders go on behind a frame for as long as there are bytes.  So what they accept is frames end to end, with
nothing in front of the first, between two or behind the last (`frames_of_decodeConcatenated`,
`frames_of_streamFrames`).

The first of them is whole, and it is the one whose header the session has looked at.  A size that it declares
is the size of all the content together, and so the frames behind it add nothing
(`Decompressor.frames_of_decode`).  Without one they add their content.

The main result is `Decompressor.decompressFrame_consumes`.
-/

namespace SharedDictionary

open Decompressor (isWholeFrame isWholeFrame_iff isWholeFrame_extract)

/-- A byte string is one frame, to be decoded or to be skipped. -/
def IsFrame (frame : ByteArray) : Prop := isWholeFrame frame = true ∨ SkippableFrame frame

variable {bytes : ByteArray} {start stop : Nat}

/-- A range of a byte string is frames of some kind end to end. -/
structure Tiled (kind : ByteArray → Prop) (bytes : ByteArray) (start stop : Nat)
    (frames : List ByteArray) : Prop where
  all : ∀ frame ∈ frames, kind frame
  extract_eq : bytes.extract start stop = joined frames

namespace Tiled

variable {kind : ByteArray → Prop} {frames : List ByteArray}

theorem nil (bytes : ByteArray) (stop : Nat) : Tiled kind bytes stop stop [] :=
  ⟨nofun, ByteArray.extract_same⟩

/-- A frame in front of others. -/
theorem cons {next : Nat} (hstart : start ≤ next) (hnext : next ≤ stop)
    (hframe : kind (bytes.extract start next)) (hrest : Tiled kind bytes next stop frames) :
    Tiled kind bytes start stop (bytes.extract start next :: frames) := by
  refine ⟨fun frame hmem => ?_, ?_⟩
  · rcases List.mem_cons.mp hmem with rfl | hmem
    · exact hframe
    · exact hrest.all frame hmem
  · rw [joined_cons, ← hrest.extract_eq]
    exact ByteArray.extract_eq_extract_append_extract next hstart hnext

end Tiled

/-! ### In one go -/

/-- The end of a skippable frame is found where it is skipped. -/
theorem frameSize_of_skippableAt {size : Nat} (h : skippableAt bytes start stop = some (.ok size)) :
    frameSize bytes start stop = .ok size := by
  unfold skippableAt at h
  split at h
  · rename_i hmagic
    split at h
    · cases h
    · rename_i hlong
      have hwhole : WholeHeader bytes start stop (.skippable (littleEndian bytes (start + 4) 4)) :=
        .skippable (SkippableFrame.ne_frameMagic hmagic) hmagic (by omega)
      rw [frameSize, hwhole.read_eq hwhole.length_le.2]
      exact Option.some.inj h
  · cases h

/-- **What is decoded into one range is whole frames end to end**, each put behind the content of those
before it. -/
theorem frames_of_decodeConcatenated {dict : Option LoadedDictionary} {cold later : Bool}
    {capacity : Nat} {out content : ByteArray} (hstart : start ≤ stop) (hstop : stop ≤ bytes.size)
    (h : decodeConcatenated dict cold bytes start stop capacity later out = .ok content) :
    out.size ≤ content.size ∧ ∃ frames, Tiled (isWholeFrame · = true) bytes start stop frames := by
  -- Every frame takes some of the bytes that are left.
  induction hleft : stop - start using Nat.strongRecOn generalizing cold later start out with
  | ind left ih =>
      rw [decodeConcatenated] at h
      split at h
      · rename_i hmore
        simp only [shortestInput] at hmore
        split at h
        · cases h
        · rename_i size hskip
          have hpos := pos_of_skippableAt hskip
          have hsize := frameSize_of_skippableAt hskip
          have hle := (frameSize_eq_ok hsize).1
          obtain ⟨hgrows, frames, hrest⟩ := ih _ (by omega) (by omega) h rfl
          exact ⟨hgrows, _, .cons (by omega) hle (isWholeFrame_extract hsize hstop) hrest⟩
        · split at h
          · cases h
          · rename_i frame hframe
            have hlt := lt_of_decodeFrame hframe
            obtain ⟨-, -, hsize, -⟩ := decodeFrame_fits hframe
            have hle := (frameSize_eq_ok hsize).1
            have hnext : start + (frame.next - start) = frame.next := by omega
            rw [hnext] at hle
            obtain ⟨hgrows, frames, hrest⟩ := ih _ (by omega) hle h rfl
            rw [ByteArray.size_append] at hgrows
            refine ⟨by omega, _, .cons (by omega) hle ?_ hrest⟩
            rw [← hnext]
            exact isWholeFrame_extract hsize hstop
      · split at h
        · cases h
        · cases h
          obtain rfl : start = stop := by omega
          exact ⟨Nat.le_refl _, [], .nil _ _⟩

/-- What one frame declares is the size of all the content that is decoded into a range of that size. -/
theorem size_of_decodeWhole {header : FrameHeader} {dict : Option LoadedDictionary} {size : Nat}
    {content : ByteArray} (hread : HeaderScan.read bytes 0 bytes.size = .ok (.frame header))
    (hdeclared : header.contentSize = some size)
    (h : decodeWhole dict bytes size = .ok content) : content.size = size := by
  have hle : content.size ≤ size := size_le_of_decodeConcatenated (Nat.zero_le _) h
  rw [decodeWhole_of_frame hread] at h
  split at h
  · cases h
  · rename_i frame hframe
    obtain ⟨header', hread', hsize, hfits⟩ := decodeFrame_fits hframe
    rw [hread] at hread'
    cases hread'
    have hfirst := hfits.size size hdeclared
    have hgrows := (frames_of_decodeConcatenated
      (by have := (frameSize_eq_ok hsize).1; omega) (Nat.le_refl _) h).1
    omega

/-! ### Piece by piece -/

theorem frameSize_of_inOneGo {header : FrameHeader} {o : StreamOutput} {size : Nat}
    (h : inOneGo header bytes start stop o = some size) : frameSize bytes start stop = .ok size := by
  unfold inOneGo at h
  split at h
  · cases h
  · split at h
    · cases hfound : frameSize bytes start stop with
      | error e =>
          rw [hfound] at h
          cases h
      | ok size' =>
          rw [hfound] at h
          cases h
          rfl
    · cases h

/-- A frame that is decoded through buffers or in one go is found whole. -/
theorem frameSize_of_streamDataFrame {header : FrameHeader} {dict : Option LoadedDictionary}
    {cold : Bool} {buffers : StreamBuffers} {o : StreamOutput} {step : StreamStep}
    (hread : HeaderScan.read bytes start stop = .ok (.frame header))
    (h : streamDataFrame dict cold header bytes start stop buffers o = .ok step) :
    start ≤ step.next ∧ frameSize bytes start stop = .ok (step.next - start) := by
  cases hdirect : inOneGo header bytes start stop o with
  | some size =>
      have hsize := frameSize_of_inOneGo hdirect
      unfold streamDataFrame at h
      rw [hdirect] at h
      dsimp only at h
      split at h
      · cases h
      · cases h
        exact ⟨Nat.le_add_right _ _, by rw [hsize, Nat.add_sub_cancel_left]⟩
  | none =>
      obtain ⟨last, hlast, hnext, hwithin, -⟩ := fits_of_streamDataFrame hdirect h
      have hfirst := (blocksEnd_le hlast).1
      refine ⟨by omega, ?_⟩
      rw [frameSize_of_blocksEnd hread hlast (by rw [← hnext]; exact hwithin), ← hnext]

/-- What is decoded or skipped piece by piece is a frame. -/
theorem isFrame_of_streamFrame {dict : Option LoadedDictionary} {cold : Bool}
    {buffers : StreamBuffers} {o : StreamOutput} {step : StreamStep} (hstop : stop ≤ bytes.size)
    (h : streamFrame dict cold bytes start stop buffers o = .ok step) :
    start ≤ step.next ∧ step.next ≤ stop ∧ IsFrame (bytes.extract start step.next) := by
  unfold streamFrame at h
  split at h
  · cases h
  · cases h
  · rename_i length hread
    split at h
    · cases h
    · rename_i hfits
      cases h
      dsimp only
      refine ⟨by omega, by omega, .inr ?_⟩
      rw [Nat.add_assoc]
      exact skippableFrame_of_headerScan hread (by omega) hstop
  · rename_i header hread
    obtain ⟨hle, hsize⟩ := frameSize_of_streamDataFrame hread h
    have hnext : start + (step.next - start) = step.next := by omega
    refine ⟨hle, ?_, ?_⟩
    · rw [← hnext]
      exact (frameSize_eq_ok hsize).1
    · rw [← hnext]
      exact .inl (isWholeFrame_extract hsize hstop)

/-- **What is decoded piece by piece is frames end to end.** -/
theorem frames_of_streamFrames {dict : Option LoadedDictionary} {once cold : Bool}
    {buffers : StreamBuffers} {o : StreamOutput} {fuel : Nat} {content : ByteArray}
    (hstop : stop ≤ bytes.size)
    (h : streamFrames dict once cold bytes start stop buffers o fuel = .ok content) :
    ∃ frames, Tiled IsFrame bytes start stop frames := by
  induction fuel generalizing dict cold start buffers o with
  | zero => cases h
  | succ fuel ih =>
      rw [streamFrames] at h
      split at h
      · cases h
      · split at h
        · cases h
        · rename_i step hstep
          obtain ⟨hle, hnext, hframe⟩ := isFrame_of_streamFrame hstop hstep
          split at h
          · rename_i hdone
            rw [hdone] at hle hframe hnext
            exact ⟨_, .cons hle hnext hframe (.nil _ _)⟩
          · obtain ⟨frames, hrest⟩ := ih h
            exact ⟨_, .cons hle hnext hframe hrest⟩

/-! ### Sessions -/

/-- What stands behind a frame does not change its header. -/
theorem headerScan_append {first : ByteArray} (h : isWholeFrame first = true) (rest : ByteArray) :
    HeaderScan.read (first ++ rest) 0 (first ++ rest).size
      = HeaderScan.read first 0 first.size := by
  have hstands : StandsAt (first ++ rest) 0 first := (standsAt_append.mp (standsAt_self _)).1
  have hsize := isWholeFrame_iff.mp h
  have hsame : HeaderScan.read (first ++ rest) 0 first.size = HeaderScan.read first 0 first.size := by
    have hscan : HeaderScan.read (first ++ rest) (0 + 0) (0 + first.size)
        = HeaderScan.read first 0 first.size := hstands.headerScan_eq (Nat.le_refl first.size)
    rwa [Nat.zero_add, Nat.zero_add] at hscan
  unfold frameSize at hsize
  rcases hread : HeaderScan.read first 0 first.size with e | scan
  · rw [hread] at hsize
    cases hsize
  · obtain ⟨length, rfl⟩ | hwhole := HeaderScan.read_eq_ok (hsame.trans hread)
    · rw [hread] at hsize
      cases hsize
    · have hfits := hwhole.length_le.2
      exact hwhole.read_eq (by rw [ByteArray.size_append]; omega)

namespace Decompressor

variable {d : Decompressor} {input first content : ByteArray}

/-- What an input is declared to come to is what its first header says. -/
theorem declaredSize?_eq_some {declared : Option Nat} (h : declaredSize? input = some declared) :
    (∃ header, HeaderScan.read input 0 input.size = .ok (.frame header)
        ∧ header.contentSize = declared)
      ∨ ∃ length, HeaderScan.read input 0 input.size = .ok (.skippable length)
        ∧ declared = some 0 := by
  unfold declaredSize? at h
  split at h
  · rename_i header hread
    split at h
    · cases h
    · exact .inl ⟨header, hread, Option.some.inj h⟩
  · rename_i length hread
    exact .inr ⟨length, hread, (Option.some.inj h).symm⟩
  · cases h

/-- What stands behind a whole frame does not change its header. -/
theorem declaredSize?_append (h : isWholeFrame first = true) (rest : ByteArray) :
    declaredSize? (first ++ rest) = declaredSize? first := by
  rw [declaredSize?, declaredSize?, headerScan_append h]

/-- **What a session reads is a whole frame with frames behind it**, and if the first declares a size, it is
that of all the content. -/
theorem frames_of_decode (h : d.decode input = .ok content) :
    ∃ first rest, isWholeFrame first = true ∧ (∀ frame ∈ rest, IsFrame frame)
      ∧ input = first ++ joined rest
      ∧ ∀ size, declaredSize? first = some (some size) → content.size = size := by
  obtain ⟨dict, -, ⟨size, hdeclared, -, -, hdecode⟩ | ⟨hdeclared, hdecode⟩⟩ := decode_eq_ok_iff.mp h
  · obtain ⟨-, frames, hall, hjoined⟩ :=
      frames_of_decodeConcatenated (Nat.zero_le _) (Nat.le_refl _) hdecode
    rw [ByteArray.extract_zero_size] at hjoined
    cases frames with
    | nil =>
        rw [hjoined] at hdeclared
        cases hdeclared
    | cons first rest =>
        have hfirst := hall first List.mem_cons_self
        have hsame : declaredSize? input = declaredSize? first := by
          rw [hjoined, joined_cons, declaredSize?_append hfirst]
        refine ⟨first, rest, hfirst, fun frame hmem => .inl (hall frame (List.mem_cons_of_mem _ hmem)),
          hjoined, fun size' hsize' => ?_⟩
        rw [← hsame, hdeclared] at hsize'
        cases hsize'
        obtain ⟨header, hread, hheader⟩ | ⟨length, -, ⟨⟩⟩ := declaredSize?_eq_some hdeclared
        · exact size_of_decodeWhole hread hheader hdecode
        · exact Nat.le_zero.mp (size_le_of_decodeConcatenated (Nat.zero_le _) hdecode)
  · obtain ⟨frames, hall, hjoined⟩ := frames_of_streamFrames (Nat.le_refl _) hdecode
    rw [ByteArray.extract_zero_size] at hjoined
    obtain ⟨header, hread, hheader⟩ | ⟨length, -, ⟨⟩⟩ := declaredSize?_eq_some hdeclared
    cases frames with
    | nil =>
        rw [hjoined] at hdeclared
        cases hdeclared
    | cons first rest =>
        have hfirst : isWholeFrame first = true := by
          rcases hall first List.mem_cons_self with hwhole | hskip
          · exact hwhole
          · refine absurd hread (hskip.headerScan_ne_frame ?_ header)
            rw [hjoined, joined_cons]
            exact (standsAt_append.mp (standsAt_self _)).1
        have hsame : declaredSize? input = declaredSize? first := by
          rw [hjoined, joined_cons, declaredSize?_append hfirst]
        refine ⟨first, rest, hfirst, fun frame hmem => hall frame (List.mem_cons_of_mem _ hmem),
          hjoined, fun size hsize => ?_⟩
        rw [← hsame, hdeclared] at hsize
        cases hsize

/-- A whole frame in front of an input is told by the input. -/
theorem first_eq {first first' rest rest' : ByteArray} (h : first ++ rest = first' ++ rest')
    (hfirst : isWholeFrame first = true) (hfirst' : isWholeFrame first' = true) :
    first = first' ∧ rest = rest' := by
  have hstands : StandsAt (first ++ rest) 0 first := (standsAt_append.mp (standsAt_self _)).1
  have hstands' : StandsAt (first ++ rest) 0 first' := by
    rw [h]
    exact (standsAt_append.mp (standsAt_self _)).1
  have hsize : first.size = first'.size := Except.ok.inj
    ((hstands.frameSize_whole (isWholeFrame_iff.mp hfirst)).symm.trans
      (hstands'.frameSize_whole (isWholeFrame_iff.mp hfirst')))
  obtain rfl : first = first' := by
    rw [← hstands.extract_eq, ← hstands'.extract_eq, hsize]
  have hbehind := (standsAt_append_right first rest).extract_eq
  have hbehind' := (standsAt_append_right first rest').extract_eq
  have hlength : rest.size = rest'.size := by
    have hall := congrArg ByteArray.size h
    rw [ByteArray.size_append, ByteArray.size_append] at hall
    omega
  exact ⟨rfl, by rw [← hbehind, ← hbehind', h, hlength]⟩

/-- **A call that reads one frame reads frames end to end.**

A call that fails leaves the session and the output as they were.  One that succeeds has found its input to be
a whole frame, and behind it any number of frames, each whole or skippable, and nothing else; it uses up a
prefix once, and appends the content of them all.  If the first frame declares its size, that is the size of all
the content together, so that the frames behind it have added nothing.  So an input in which bytes follow
a whole frame is refused if no frame starts with them, whether or not the first declares a size. -/
theorem decompressFrame_consumes (d : Decompressor) (input out : ByteArray) :
    (∀ fault, (d.decompressFrame input out).1 = .error fault →
      d.decompressFrame input out = (.error fault, d, out))
    ∧ ((d.decompressFrame input out).1 = .ok () →
      ∃ first rest content, isWholeFrame first = true ∧ (∀ frame ∈ rest, IsFrame frame)
        ∧ input = first ++ joined rest
        ∧ d.decompressFrame input out = (.ok (), d.afterFrame, out ++ content)
        ∧ ∀ size, declaredSize? first = some (some size) → content.size = size)
    ∧ ∀ first rest, isWholeFrame first = true → input = first ++ rest → rest ≠ ByteArray.empty →
      (∀ size, ¬ IsFrame (rest.extract 0 size)) →
      ∃ fault, d.decompressFrame input out = (.error fault, d, out) := by
  rcases hdecode : d.decode input with fault | content
  · have hresult := decompressFrame_of_error hdecode out
    rw [hresult]
    refine ⟨fun fault' h => ?_, nofun, fun first rest _ _ _ _ => ⟨fault, rfl⟩⟩
    rw [Except.error.inj h]
  · obtain ⟨first, rest, hfirst, hrest, hinput, hsize⟩ := frames_of_decode hdecode
    have hresult := decompressFrame_of_ok hdecode out
    rw [hresult]
    refine ⟨nofun, fun _ => ⟨first, rest, content, hfirst, hrest, hinput, rfl, hsize⟩,
      fun first' rest' hfirst' hinput' hsome hno => ?_⟩
    -- What follows the first frame is frames too, and so it starts with one.
    obtain ⟨-, rfl⟩ := first_eq (hinput'.symm.trans hinput) hfirst' hfirst
    cases rest with
    | nil => exact absurd joined_nil hsome
    | cons frame frames =>
        refine absurd (hrest frame List.mem_cons_self) ?_
        have hstands : StandsAt (joined (frame :: frames)) 0 frame :=
          (standsAt_append.mp (standsAt_self _)).1
        rw [← hstands.extract_eq, Nat.zero_add]
        exact hno _

/-- A frame with a piece of a magic number behind it, and the same frame with a skippable one behind it. -/
theorem decompressFrame_consumes_hello :
    let d : Decompressor := ⟨.standard, some (.prefixed ⟨#[1, 2, 3]⟩)⟩
    let frame : ByteArray := ⟨#[0x28, 0xB5, 0x2F, 0xFD, 0x20, 5, 0x29, 0, 0, 104, 101, 108, 108, 111]⟩
    let skippable : ByteArray := ⟨#[0x50, 0x2A, 0x4D, 0x18, 0, 0, 0, 0]⟩
    (∃ fault, d.decompressFrame (frame ++ ⟨#[0x28]⟩) ⟨#[9]⟩ = (.error fault, d, ⟨#[9]⟩))
      ∧ ∃ first rest content, isWholeFrame first = true ∧ (∀ frame ∈ rest, IsFrame frame)
        ∧ frame ++ skippable = first ++ joined rest
        ∧ d.decompressFrame (frame ++ skippable) ⟨#[9]⟩ = (.ok (), d.afterFrame, ⟨#[9]⟩ ++ content)
        ∧ ∀ size, declaredSize? first = some (some size) → content.size = size := by
  intro d frame skippable
  have hno : ∀ size, ¬ IsFrame ((⟨#[0x28]⟩ : ByteArray).extract 0 size) := by
    rintro size (hwhole | hskip)
    · rcases Nat.eq_zero_or_pos size with rfl | hpos
      · exact absurd hwhole (by decide +kernel)
      · rw [← extract_min_size,
          Nat.min_eq_right (show ByteArray.size ⟨#[0x28]⟩ ≤ size from hpos)] at hwhole
        exact absurd hwhole (by decide +kernel)
    · have hlength := hskip.length
      rw [ByteArray.size_extract] at hlength
      have hone : ByteArray.size ⟨#[0x28]⟩ = 1 := rfl
      omega
  exact ⟨(decompressFrame_consumes d _ _).2.2 frame ⟨#[0x28]⟩ (by decide +kernel) rfl (by decide) hno,
    (decompressFrame_consumes d (frame ++ skippable) ⟨#[9]⟩).2.1 (by decide +kernel)⟩

/-- **A call that reads one frame is not held to one frame.**  Behind a frame that declares its size a
skippable one is let pass, and behind a frame that does not a second frame, which adds its content.  Neither
input is one frame, and both calls use the prefix up. -/
theorem decompressFrame_reads_on :
    let d : Decompressor := ⟨.standard, some (.prefixed ⟨#[1, 2, 3]⟩)⟩
    let sized : ByteArray := ⟨#[0x28, 0xB5, 0x2F, 0xFD, 0x20, 5, 0x29, 0, 0, 104, 101, 108, 108, 111]⟩
    let unsized : ByteArray := ⟨#[0x28, 0xB5, 0x2F, 0xFD, 0, 0x50, 0x29, 0, 0, 104, 101, 108, 108, 111]⟩
    let skippable : ByteArray := ⟨#[0x50, 0x2A, 0x4D, 0x18, 0, 0, 0, 0]⟩
    let hello : ByteArray := ⟨#[104, 101, 108, 108, 111]⟩
    (isWholeFrame (sized ++ skippable) = false
        ∧ d.decompressFrame (sized ++ skippable) ByteArray.empty = (.ok (), d.afterFrame, hello))
      ∧ isWholeFrame (unsized ++ unsized) = false
        ∧ d.decompressFrame (unsized ++ unsized) ByteArray.empty
          = (.ok (), d.afterFrame, hello ++ hello) := by
  intro d sized unsized skippable hello
  have hsized : d.decode (sized ++ skippable) = .ok hello := by decide +kernel
  have hunsized : d.decode (unsized ++ unsized) = .ok (hello ++ hello) := by decide +kernel
  refine ⟨⟨by decide +kernel, ?_⟩, by decide +kernel, ?_⟩
  · rw [decompressFrame_of_ok hsized, ByteArray.empty_append]
  · rw [decompressFrame_of_ok hunsized, ByteArray.empty_append]

end Decompressor

end SharedDictionary
