import SharedDictionary.Checksum
import SharedDictionary.Proofs.Bytes.Standing

/-!
# The checksum of a part

The checksum of a range reads nothing outside the range: each of its stages looks at octets at or behind
its own position, as many as it was given.  So a part has the same checksum wherever it stands
(`StandsAt.low_eq`), and the checksum of the end of a window is that of the bytes alone.
-/

namespace SharedDictionary

namespace StandsAt

variable {bytes part : ByteArray} {i j : Nat}

/-- A word inside a part is read off the part. -/
theorem word64At_eq (h : StandsAt bytes i part) (hj : j + 8 ≤ part.size) :
    word64At bytes (i + j) = word64At part j := by
  have hoctet : ∀ k < 8, octetAt bytes (i + j + k) = octetAt part (j + k) := by
    intro k hk
    rw [Nat.add_assoc]
    exact h.octetAt_eq (by omega)
  have hfirst : octetAt bytes (i + j) = octetAt part j := hoctet 0 (by decide)
  unfold word64At
  rw [hfirst, hoctet 1 (by decide), hoctet 2 (by decide), hoctet 3 (by decide),
    hoctet 4 (by decide), hoctet 5 (by decide), hoctet 6 (by decide), hoctet 7 (by decide)]

theorem absorb_eq (h : StandsAt bytes i part) {stripes : Nat} (hj : j + stripes * 32 ≤ part.size)
    (lanes : Checksum.Lanes) :
    Checksum.Lanes.absorb bytes (i + j) lanes stripes
      = Checksum.Lanes.absorb part j lanes stripes := by
  induction stripes generalizing j lanes with
  | zero => rfl
  | succ stripes ih =>
      rw [Checksum.Lanes.absorb, Checksum.Lanes.absorb, Nat.add_assoc i j 8, Nat.add_assoc i j 16,
        Nat.add_assoc i j 24, Nat.add_assoc i j 32, h.word64At_eq (by omega),
        h.word64At_eq (by omega), h.word64At_eq (by omega), h.word64At_eq (by omega)]
      exact ih (by omega) _

theorem absorbWords_eq (h : StandsAt bytes i part) {words : Nat} (hj : j + words * 8 ≤ part.size)
    (hash : UInt64) :
    Checksum.absorbWords bytes (i + j) hash words = Checksum.absorbWords part j hash words := by
  induction words generalizing j hash with
  | zero => rfl
  | succ words ih =>
      rw [Checksum.absorbWords, Checksum.absorbWords, Nat.add_assoc i j 8, h.word64At_eq (by omega)]
      exact ih (by omega) _

theorem absorbBytes_eq (h : StandsAt bytes i part) {count : Nat} (hj : j + count ≤ part.size)
    (hash : UInt64) :
    Checksum.absorbBytes bytes (i + j) hash count = Checksum.absorbBytes part j hash count := by
  induction count generalizing j hash with
  | zero => rfl
  | succ count ih =>
      rw [Checksum.absorbBytes, Checksum.absorbBytes, Nat.add_assoc i j 1, h.octetAt_eq (by omega)]
      exact ih (by omega) _

theorem absorbTail_eq (h : StandsAt bytes i part) {count : Nat} (hj : j + count ≤ part.size)
    (hash : UInt64) :
    Checksum.absorbTail bytes (i + j) count hash = Checksum.absorbTail part j count hash := by
  unfold Checksum.absorbTail
  dsimp only
  rw [h.absorbWords_eq (by omega), Nat.add_assoc i j]
  split
  · rw [h.littleEndian_eq (by omega), Nat.add_assoc i (j + count / 8 * 8) 4]
    exact h.absorbBytes_eq (by omega) _
  · exact h.absorbBytes_eq (by omega) _

/-- **A part has the same checksum wherever it stands.** -/
theorem low_eq (h : StandsAt bytes i part) :
    Checksum.low bytes i part.size = Checksum.low part 0 part.size := by
  have hstripes : 0 + part.size / 32 * 32 ≤ part.size := by omega
  have hrest : part.size / 32 * 32 + part.size % 32 ≤ part.size := by omega
  have habsorb := h.absorb_eq hstripes Checksum.Lanes.initial
  have htail := h.absorbTail_eq hrest
  rw [Nat.add_zero] at habsorb
  unfold Checksum.low Checksum.hashRange
  dsimp only
  rw [habsorb, htail, Nat.zero_add]

end StandsAt

/-- The checksum of nothing reads nothing. -/
theorem Checksum.low_zero (bytes : ByteArray) (i : Nat) :
    low bytes i 0 = low ByteArray.empty 0 0 := by
  simp only [low, hashRange, absorbTail, absorbWords, absorbBytes, Nat.zero_div, Nat.zero_mod,
    Nat.reduceLeDiff, if_false]

/-- The checksum of a window from a position on is that of the bytes there alone. -/
theorem Checksum.low_extract (window : ByteArray) (origin : Nat) :
    low window origin (window.size - origin)
      = low (window.extract origin window.size) 0 (window.extract origin window.size).size := by
  have hsize : (window.extract origin window.size).size = window.size - origin := by
    rw [ByteArray.size_extract]
    omega
  rcases Nat.le_total origin window.size with hle | hle
  · have hstands : StandsAt window origin (window.extract origin window.size) := by
      constructor
      · omega
      · rw [hsize, Nat.add_sub_cancel' hle]
    rw [← hstands.low_eq, hsize]
  · rw [hsize, Nat.sub_eq_zero_of_le hle, low_zero, ← low_zero _ 0]

end SharedDictionary
