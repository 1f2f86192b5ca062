import SharedDictionary.Frame.Encode

/-!
# Cutting content into pieces

A plan is right if its pieces cover the content without gaps and each piece says the truth about
the bytes it stands for: a run repeats one byte, a copy repeats what stands at its distance, and no
piece is longer than a block may be.  `Piece.Fits` and `Cuts` say this, and `cuts_plan` shows it of
every plan, whatever the finder of copies proposes.
-/

namespace SharedDictionary

/-! ### Agreeing ranges -/

theorem commonFrom_eq (bytes : ByteArray) (i j limit known : Nat) :
    commonFrom bytes i j limit known = known + commonLength bytes i j limit := by
  induction limit generalizing i j known with
  | zero => rfl
  | succ limit ih =>
      rw [commonLength, commonFrom, commonFrom, ih, ih]
      split <;> omega

theorem commonLength_succ (bytes : ByteArray) (i j limit : Nat) :
    commonLength bytes i j (limit + 1) =
      if octetAt bytes i = octetAt bytes j then commonLength bytes (i + 1) (j + 1) limit + 1
      else 0 := by
  rw [commonLength, commonFrom, commonFrom_eq, Nat.zero_add, Nat.add_comm]

/-- The octets of two ranges agree as far as the ranges do. -/
theorem octetAt_eq_of_lt_commonLength {bytes : ByteArray} {i j limit k : Nat}
    (h : k < commonLength bytes i j limit) : octetAt bytes (i + k) = octetAt bytes (j + k) := by
  induction limit generalizing i j k with
  | zero => exact absurd h (Nat.not_lt_zero k)
  | succ limit ih =>
      rw [commonLength_succ] at h
      split at h
      · rename_i heq
        cases k with
        | zero => exact heq
        | succ k =>
            have hrest := ih (i := i + 1) (j := j + 1) (k := k) (by omega)
            rwa [Nat.add_right_comm, Nat.add_right_comm j] at hrest
      · exact absurd h (Nat.not_lt_zero k)

theorem runLength_le (window : ByteArray) (position limit : Nat) :
    runLength window position limit ≤ limit := by
  have hle := commonLength_le window position (position + 1) (limit - 1)
  rw [runLength]
  split <;> omega

/-- A run repeats its first octet. -/
theorem octetAt_eq_of_lt_runLength {window : ByteArray} {position limit k : Nat}
    (h : k < runLength window position limit) :
    octetAt window (position + k) = octetAt window position := by
  induction k with
  | zero => rfl
  | succ k ih =>
      have hprevious := ih (by omega)
      rw [runLength] at h
      split at h
      · exact absurd h (Nat.not_lt_zero _)
      · have hnext := octetAt_eq_of_lt_commonLength (show k < commonLength window position
          (position + 1) (limit - 1) by omega)
        rw [← hprevious, hnext, Nat.add_assoc, Nat.add_comm 1]

/-- A copy that is proposed starts before its position, and its octets are those to be copied. -/
theorem proposeCopy_spec {σ : Type} {F : CopyFinder σ} {index : σ} {window : ByteArray}
    {position limit distance length : Nat}
    (h : proposeCopy F index window position limit = some (distance, length)) :
    1 ≤ distance ∧ distance ≤ position ∧ distance ≤ greatestDistance ∧ length ≤ limit
      ∧ ∀ k < length, octetAt window (position + k - distance) = octetAt window (position + k) := by
  unfold proposeCopy at h
  split at h
  · simp at h
  · rename_i source _
    split at h
    · rename_i hsource
      simp only [Option.ite_none_right_eq_some, Option.some.injEq, Prod.mk.injEq] at h
      obtain ⟨-, rfl, rfl⟩ := h
      refine ⟨by omega, by omega, by omega, commonLength_le window source position limit, ?_⟩
      intro k hk
      rw [← octetAt_eq_of_lt_commonLength hk]
      congr 1
      omega
    · simp at h

/-! ### Pieces that fit -/

/-- A piece says the truth about the bytes at a position, and is short enough for a block. -/
def Piece.Fits (window : ByteArray) (blockLimit position : Nat) : Piece → Prop
  | .raw length => length ≤ blockLimit ∧ position + length ≤ window.size
  | .run length =>
    length ≤ blockLimit ∧ position + length ≤ window.size
      ∧ ∀ k < length, octetAt window (position + k) = octetAt window position
  | .copy distance length =>
    length ≤ blockLimit ∧ position + length ≤ window.size ∧ shortestGain ≤ length
      ∧ 1 ≤ distance ∧ distance ≤ position ∧ distance ≤ greatestDistance
      ∧ ∀ k < length, octetAt window (position + k - distance) = octetAt window (position + k)

theorem Piece.Fits.length_le {window : ByteArray} {blockLimit position : Nat} {piece : Piece}
    (h : piece.Fits window blockLimit position) :
    piece.length ≤ blockLimit ∧ position + piece.length ≤ window.size := by
  cases piece with
  | raw length => exact h
  | run length => exact ⟨h.1, h.2.1⟩
  | copy distance length => exact ⟨h.1, h.2.1⟩

/-- Pieces that follow each other cover the bytes of a window from one position to another. -/
def Cuts (window : ByteArray) (blockLimit : Nat) : Nat → List Piece → Nat → Prop
  | position, [], stop => position = stop
  | position, piece :: rest, stop =>
    piece.Fits window blockLimit position
      ∧ Cuts window blockLimit (position + piece.length) rest stop

variable {window : ByteArray} {blockLimit : Nat}

/-- One more piece behind pieces. -/
theorem Cuts.concat {position middle : Nat} {pieces : List Piece} {piece : Piece}
    (h : Cuts window blockLimit position pieces middle)
    (hpiece : piece.Fits window blockLimit middle) :
    Cuts window blockLimit position (pieces ++ [piece]) (middle + piece.length) := by
  induction pieces generalizing position with
  | nil =>
      cases h
      exact ⟨hpiece, rfl⟩
  | cons first rest ih => exact ⟨h.1, ih h.2⟩

/-- Raw pieces extend pieces that are given in reverse. -/
theorem cuts_pushRaw {origin middle : Nat} {pieces : List Piece} (length : Nat)
    (hlimit : 0 < blockLimit)
    (h : Cuts window blockLimit origin pieces.reverse middle)
    (hroom : middle + length ≤ window.size) :
    Cuts window blockLimit origin (pushRaw blockLimit length pieces).reverse
      (middle + length) := by
  fun_induction pushRaw blockLimit length pieces generalizing middle with
  | case1 length pieces hnone =>
      obtain rfl : length = 0 := by omega
      exact h
  | case2 length pieces hsome hfits =>
      rw [List.reverse_cons]
      exact h.concat ⟨hfits, hroom⟩
  | case3 length pieces hsome hlong ih =>
      have hpiece : (Piece.raw blockLimit).Fits window blockLimit middle :=
        ⟨Nat.le_refl _, by omega⟩
      have hfirst := h.concat hpiece
      rw [← List.reverse_cons] at hfirst
      have hrest := ih hfirst (by simp only [Piece.length]; omega)
      simp only [Piece.length] at hrest
      rwa [Nat.add_assoc, Nat.add_sub_cancel' (by omega)] at hrest

/-! ### Plans -/

section Plan

variable {σ : Type} (F : CopyFinder σ)

/-- The rest of a plan covers the bytes up to the end of the window.  The bytes that wait for a piece
stand between the pieces so far and the position. -/
theorem cuts_planFrom {origin position pending : Nat} {index : σ} {pieces : List Piece}
    (hlimit : 0 < blockLimit) (hpending : pending ≤ position) (hposition : position ≤ window.size)
    (h : Cuts window blockLimit origin pieces.reverse (position - pending)) :
    Cuts window blockLimit origin
      (planFrom F window blockLimit position pending index pieces).reverse window.size := by
  fun_induction planFrom F window blockLimit position pending index pieces with
  | case1 position pending index pieces hinside hrun run ih =>
      have hpushed := cuts_pushRaw pending hlimit h (by omega)
      rw [Nat.sub_add_cancel hpending] at hpushed
      have hle := runLength_le window position (pieceLimit window blockLimit position)
      have hbound : pieceLimit window blockLimit position
        = min (window.size - position) blockLimit := rfl
      have hpiece : (Piece.run run).Fits window blockLimit position :=
        ⟨by omega, by omega, fun k hk => octetAt_eq_of_lt_runLength hk⟩
      refine ih (by omega) (by omega) ?_
      rw [List.reverse_cons]
      exact hpushed.concat hpiece
  | case2 position pending index pieces hinside hrun distance length hcopy ih =>
      have hpushed := cuts_pushRaw pending hlimit h (by omega)
      rw [Nat.sub_add_cancel hpending] at hpushed
      obtain ⟨hpos, hreach, hfar, hle, hsame⟩ := proposeCopy_spec hcopy
      simp only [pieceLimit] at hle
      have hpiece : (Piece.copy distance length).Fits window blockLimit position :=
        ⟨by omega, by omega, shortestGain_le_of_proposeCopy hcopy, hpos, hreach, hfar, hsame⟩
      refine ih (by omega) (by omega) ?_
      rw [List.reverse_cons]
      exact hpushed.concat hpiece
  | case3 position pending index pieces hinside hrun hcopy ih =>
      refine ih (by omega) (by omega) ?_
      rwa [Nat.add_sub_add_right]
  | case4 position pending index pieces hend =>
      have hpushed := cuts_pushRaw pending hlimit h (by omega)
      rwa [Nat.sub_add_cancel hpending, show position = window.size by omega] at hpushed

/-- **A plan covers the bytes from its origin on**, and has a piece even for no bytes. -/
theorem cuts_plan (base : Nat) {origin : Nat} (horigin : origin ≤ window.size)
    (hlimit : origin < window.size → 0 < blockLimit) :
    Cuts window blockLimit origin (plan F window base origin blockLimit) window.size
      ∧ plan F window base origin blockLimit ≠ [] := by
  have hcuts : origin < window.size → Cuts window blockLimit origin
      (if origin + shortestGain ≤ window.size then
        planFrom F window blockLimit origin 0 (F.enterRange F.empty window base (origin - base)) []
      else pushRaw blockLimit (window.size - origin) []).reverse window.size := by
    intro hsome
    split
    · exact cuts_planFrom F (hlimit hsome) (Nat.zero_le _) horigin rfl
    · have hnone : Cuts window blockLimit origin [].reverse origin := rfl
      have hraw := cuts_pushRaw (window.size - origin) (hlimit hsome) hnone (by omega)
      rwa [Nat.add_sub_cancel' horigin] at hraw
  rw [plan]
  split
  · rename_i hnil
    refine ⟨⟨⟨Nat.zero_le _, horigin⟩, ?_⟩, by simp⟩
    rcases Nat.lt_or_eq_of_le horigin with hlt | heq
    · have hnone := hcuts hlt
      rw [hnil] at hnone
      exact hnone
    · exact heq
  · rename_i pieces hne
    refine ⟨?_, by simpa using hne⟩
    rcases Nat.lt_or_eq_of_le horigin with hlt | heq
    · exact hcuts hlt
    · exfalso
      refine hne ?_
      rw [if_neg (by simp only [shortestGain]; omega), heq, Nat.sub_self, pushRaw]
      simp

end Plan

end SharedDictionary
