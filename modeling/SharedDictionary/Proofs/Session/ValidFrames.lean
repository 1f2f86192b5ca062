import SharedDictionary.Proofs.Frame.ValidDecoding
import SharedDictionary.Session.Decompressor

/-!
# Valid frames in a session

A session looks at the header of its input before it decodes anything.  A size that is declared is held against
the limit and is the room that the content is given; otherwise the content grows piece by piece, and the limit
is held against that (`Decompressor.decode_eq_ok_iff`).

So a session that has the dictionary of a valid frame decodes it to its content within the limit
(`Decompressor.decode_of_valid`), and beyond the limit refuses it in one of two ways
(`Decompressor.decode_of_valid_declared`, `Decompressor.decode_of_valid_undeclared`).
-/

namespace SharedDictionary

namespace Decompressor

variable {d : Decompressor} {input content : ByteArray}

theorem checkSize_eq_ok_iff {declared : Option Nat} :
    d.checkSize input = .ok declared
      ↔ declaredSize? input = some declared
        ∧ ∀ size, declared = some size → size ≤ d.config.frameLimit := by
  unfold checkSize
  rcases declaredSize? input with _ | _ | size
  · exact ⟨nofun, fun h => nomatch h.1⟩
  · dsimp only
    constructor
    · rintro ⟨⟩
      exact ⟨rfl, nofun⟩
    · rintro ⟨⟨⟩, -⟩
      rfl
  · dsimp only
    split
    · refine ⟨nofun, ?_⟩
      rintro ⟨⟨⟩, hlimit⟩
      have := hlimit size rfl
      omega
    · constructor
      · rintro ⟨⟩
        refine ⟨rfl, ?_⟩
        rintro _ ⟨⟩
        omega
      · rintro ⟨⟨⟩, -⟩
        rfl

/-- **A session reads an input in one go or piece by piece**, as the input declares a size or not. -/
theorem decode_eq_ok_iff :
    d.decode input = .ok content ↔ ∃ dict, d.dictionary = .ok dict
      ∧ ((∃ size, declaredSize? input = some (some size) ∧ size ≤ d.config.frameLimit
            ∧ size ≤ maxCapacity ∧ decodeWhole dict input size = .ok content)
        ∨ (declaredSize? input = some none
            ∧ decodeStream dict d.hasPendingPrefix input d.config.frameLimit = .ok content)) := by
  constructor
  · intro h
    unfold decode at h
    split at h
    · cases h
    · rename_i declared hcheck
      obtain ⟨hdeclared, hlimit⟩ := checkSize_eq_ok_iff.mp hcheck
      split at h
      · cases h
      · rename_i dict hdict
        refine ⟨dict, hdict, ?_⟩
        split at h
        · rename_i size
          split at h
          · cases h
          · rename_i hcapacity
            exact .inl ⟨size, hdeclared, hlimit size rfl, by omega, mapError_eq_ok_iff.mp h⟩
        · exact .inr ⟨hdeclared, mapError_eq_ok_iff.mp h⟩
  · rintro ⟨dict, hdict, ⟨size, hdeclared, hlimit, hcapacity, hdecode⟩ | ⟨hdeclared, hdecode⟩⟩
    · have hcheck : d.checkSize input = .ok (some size) :=
        checkSize_eq_ok_iff.mpr ⟨hdeclared, by rintro _ ⟨⟩; exact hlimit⟩
      rw [decode, hcheck, hdict]
      dsimp only
      rw [if_neg (by omega)]
      exact mapError_eq_ok_iff.mpr hdecode
    · have hcheck : d.checkSize input = .ok none :=
        checkSize_eq_ok_iff.mpr ⟨hdeclared, by rintro _ ⟨⟩⟩
      rw [decode, hcheck, hdict]
      exact mapError_eq_ok_iff.mpr hdecode

/-! ### Valid frames -/

variable {dict : Option LoadedDictionary} {frame : ByteArray} {header : FrameHeader}

/-- What a valid frame declares is looked at, if some memory holds its content. -/
theorem declaredSize?_of_valid (h : ValidFrame dict frame header content)
    (hsize : content.size ≤ maxCapacity) : declaredSize? frame = some header.contentSize := by
  rw [declaredSize?, h.opens]
  refine if_neg fun hlast => ?_
  have hdeclared := h.fits.size _ hlast
  simp only [maxCapacity] at hsize
  omega

theorem checkSize_of_valid (h : ValidFrame dict frame header content) (hsize : content.size ≤ maxCapacity)
    (hlimit : content.size ≤ d.config.frameLimit) : d.checkSize frame = .ok header.contentSize := by
  refine checkSize_eq_ok_iff.mpr ⟨declaredSize?_of_valid h hsize, fun size hdeclared => ?_⟩
  rw [← h.fits.size size hdeclared]
  exact hlimit

/-- Content within the limit is decoded, unless the limit is zero and the frame declares no size. -/
theorem decode_of_valid (hdict : d.dictionary = .ok dict) (h : ValidFrame dict frame header content)
    (hsize : content.size ≤ maxCapacity)
    (hwindow : header.contentSize = none → header.windowSize ≤ StreamBuffers.maxWindow)
    (hlimit : content.size ≤ d.config.frameLimit)
    (hsome : header.contentSize = none → 0 < d.config.frameLimit) :
    d.decode frame = .ok content := by
  have hdeclared := declaredSize?_of_valid h hsize
  refine decode_eq_ok_iff.mpr ⟨dict, hdict, ?_⟩
  cases hheader : header.contentSize with
  | some size =>
      rw [hheader] at hdeclared
      obtain rfl := h.fits.size size hheader
      exact .inl ⟨_, hdeclared, hlimit, hsize, h.decodeWhole_eq⟩
  | none =>
      have hpos := hsome hheader
      rw [hheader] at hdeclared
      refine .inr ⟨hdeclared, ?_⟩
      rw [h.decodeStream_eq hheader (hwindow hheader), if_neg (by omega)]

/-- Content that is declared beyond the limit is refused. -/
theorem decode_of_valid_declared (h : ValidFrame dict frame header content)
    (hsize : content.size ≤ maxCapacity) (hheader : header.contentSize ≠ none)
    (hlimit : d.config.frameLimit < content.size) :
    d.decode frame = .error (.error (.codec "decompress" ("frame content size " ++ toString content.size
      ++ " exceeds limit " ++ toString d.config.frameLimit))) := by
  have hdeclared := declaredSize?_of_valid h hsize
  obtain ⟨size, hheader⟩ := Option.ne_none_iff_exists'.mp hheader
  obtain rfl := h.fits.size size hheader
  rw [decode, checkSize, hdeclared, hheader]
  dsimp only
  rw [if_pos hlimit]

/-- Content that is not declared is refused beyond the limit, and any is refused at a limit of zero. -/
theorem decode_of_valid_undeclared (hdict : d.dictionary = .ok dict)
    (h : ValidFrame dict frame header content) (hsize : content.size ≤ maxCapacity)
    (hheader : header.contentSize = none) (hwindow : header.windowSize ≤ StreamBuffers.maxWindow)
    (hlimit : d.config.frameLimit = 0 ∨ d.config.frameLimit < content.size) :
    d.decode frame = .error (.error (.codec "decompress"
      ("frame output exceeds limit " ++ toString d.config.frameLimit))) := by
  have hdeclared := declaredSize?_of_valid h hsize
  have hcheck : d.checkSize frame = .ok none :=
    checkSize_eq_ok_iff.mpr ⟨by rw [hdeclared, hheader], by rintro _ ⟨⟩⟩
  rw [decode, hcheck, hdict]
  dsimp only
  rw [h.decodeStream_eq hheader hwindow, if_pos hlimit]
  rfl

end Decompressor

end SharedDictionary
