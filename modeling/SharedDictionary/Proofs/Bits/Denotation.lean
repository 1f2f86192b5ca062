import Mathlib.Tactic.Positivity
import Mathlib.Tactic.Ring
import SharedDictionary.Bits.Backward
import SharedDictionary.Proofs.Bytes.Standing

/-!
# What a backward reader reads

The bytes of a reader's range denote one number, the least significant byte first
(`Backward.number`).  As long as bits are left, reading is arithmetic on that number: the next `n`
of `left` bits are the number without its low `left - n` bits, modulo `2 ^ n` (`read_eq`,
`readLate_eq`).

The other direction is the writer's.  A number above zero, written in as many bytes as it needs,
opens as a reader whose unread bits are those below its highest bit (`open?_number`): the highest
bit is the marker.
-/

namespace SharedDictionary

/-! ### Numbers cut at a byte -/

/-- A number of `a + b` bytes is its low `a` bytes and the number of the `b` bytes above. -/
theorem littleEndian_add (bytes : ByteArray) (i a b : Nat) :
    littleEndian bytes i (a + b)
      = littleEndian bytes i a + 256 ^ a * littleEndian bytes (i + a) b := by
  induction a generalizing i with
  | zero => simp
  | succ a ih =>
      rw [Nat.succ_add, littleEndian_succ, littleEndian_succ, ih (i + 1), Nat.pow_succ,
        show i + 1 + a = i + (a + 1) by omega]
      ring

/-- Cutting the low bytes off a number. -/
theorem littleEndian_div (bytes : ByteArray) (i a b : Nat) :
    littleEndian bytes i (a + b) / 256 ^ a = littleEndian bytes (i + a) b := by
  rw [littleEndian_add, Nat.add_mul_div_left _ _ (by positivity),
    Nat.div_eq_of_lt (littleEndian_lt bytes i a), Nat.zero_add]

/-- The low bits of a number do not depend on how many bytes above them are read. -/
theorem littleEndian_mod {bytes : ByteArray} {i k : Nat} (m m' : Nat) (h : k ≤ 8 * m)
    (h' : k ≤ 8 * m') : littleEndian bytes i m % 2 ^ k = littleEndian bytes i m' % 2 ^ k := by
  have hcut : ∀ {a b : Nat}, k ≤ 8 * a →
      littleEndian bytes i (a + b) % 2 ^ k = littleEndian bytes i a % 2 ^ k := by
    intro a b ha
    obtain ⟨c, hc⟩ : 2 ^ k ∣ 256 ^ a := by
      rw [show (256 : Nat) = 2 ^ 8 from rfl, ← Nat.pow_mul]
      exact Nat.pow_dvd_pow 2 ha
    rw [littleEndian_add, hc, Nat.mul_assoc, Nat.add_mul_mod_self_left]
  rcases Nat.le_total m m' with hle | hle
  · obtain ⟨b, rfl⟩ := Nat.exists_eq_add_of_le hle
    exact (hcut h).symm
  · obtain ⟨b, rfl⟩ := Nat.exists_eq_add_of_le hle
    exact hcut h'

/-! ### The word at a position -/

/-- Setting the octet above the bits of a word adds it there. -/
theorem toNat_or_shiftLeft {word : UInt64} {octet : UInt8} {shift : UInt64}
    (hshift : shift.toNat ≤ 56) (hword : word.toNat < 2 ^ shift.toNat) :
    (word ||| octet.toUInt64 <<< shift).toNat
      = word.toNat + 2 ^ shift.toNat * octet.toNat := by
  have hoctet := octet.toNat_lt
  have hfits : octet.toNat * 2 ^ shift.toNat < 2 ^ 64 := by
    calc octet.toNat * 2 ^ shift.toNat < 2 ^ 8 * 2 ^ shift.toNat :=
          Nat.mul_lt_mul_of_pos_right hoctet (by positivity)
      _ ≤ 2 ^ 8 * 2 ^ 56 := Nat.mul_le_mul_left _ (Nat.pow_le_pow_right (by decide) hshift)
      _ = 2 ^ 64 := by decide
  rw [UInt64.toNat_or, UInt64.toNat_shiftLeft, UInt8.toNat_toUInt64, Nat.shiftLeft_eq,
    Nat.mod_eq_of_lt (show shift.toNat < 64 by omega), Nat.mod_eq_of_lt hfits, Nat.or_comm,
    Nat.mul_comm, ← Nat.two_pow_add_eq_or_of_lt hword, Nat.add_comm]

/-- One more octet of a word that holds the number of the octets so far. -/
private theorem toNat_or_octetAt {bytes : ByteArray} {i k : Nat} {word : UInt64} (shift : UInt64)
    (hk : k ≤ 7) (hshift : shift.toNat = 8 * k) (hword : word.toNat = littleEndian bytes i k) :
    (word ||| (octetAt bytes (i + k)).toUInt64 <<< shift).toNat
      = littleEndian bytes i (k + 1) := by
  have hpow : (2 : Nat) ^ shift.toNat = 256 ^ k := by
    rw [hshift, Nat.pow_mul]
  have hlt : word.toNat < 2 ^ shift.toNat := by
    rw [hpow, hword]
    exact littleEndian_lt bytes i k
  rw [toNat_or_shiftLeft (by omega) hlt, hpow, hword, littleEndian_add, littleEndian_succ]
  simp [byteAt]

/-- The word at a position is the number of its eight bytes. -/
theorem toNat_word64At (bytes : ByteArray) (i : Nat) :
    (word64At bytes i).toNat = littleEndian bytes i 8 := by
  have h1 : (octetAt bytes i).toUInt64.toNat = littleEndian bytes i 1 := by
    rw [UInt8.toNat_toUInt64, littleEndian_succ, littleEndian_zero]
    rfl
  have h2 := toNat_or_octetAt 8 (by decide) rfl h1
  have h3 := toNat_or_octetAt 16 (by decide) rfl h2
  have h4 := toNat_or_octetAt 24 (by decide) rfl h3
  have h5 := toNat_or_octetAt 32 (by decide) rfl h4
  have h6 := toNat_or_octetAt 40 (by decide) rfl h5
  have h7 := toNat_or_octetAt 48 (by decide) rfl h6
  exact toNat_or_octetAt 56 (by decide) rfl h7

namespace Bits.Backward

/-- Masking a word keeps its low bits. -/
theorem toNat_and_mask (word : UInt64) {n : Nat} (h : n ≤ 63) :
    (word &&& mask n).toNat = word.toNat % 2 ^ n := by
  have hpow : 2 ^ n < 2 ^ 64 := Nat.pow_lt_pow_right (by decide) (by omega)
  have hshift : ((1 : UInt64) <<< UInt64.ofNat n).toNat = 2 ^ n := by
    rw [UInt64.toNat_shiftLeft, UInt64.toNat_ofNat', Nat.mod_eq_of_lt (a := n) (by omega),
      Nat.mod_eq_of_lt (a := n) (by omega), Nat.shiftLeft_eq]
    simpa using Nat.mod_eq_of_lt hpow
  have hmask : (mask n).toNat = 2 ^ n - 1 := by
    rw [mask, UInt64.toNat_sub_of_le _ _ (by
      rw [UInt64.le_iff_toNat_le, hshift]
      exact Nat.one_le_two_pow), hshift]
    rfl
  rw [UInt64.toNat_and, hmask, Nat.and_two_pow_sub_one_eq_mod]

/-- The number that the bytes of a reader's range denote. -/
def number (r : Backward) : Nat := littleEndian r.bytes r.start (r.stop - r.start)

/-- The next bits are a slice of the number. -/
theorem within_eq {r : Backward} {n left : Nat} (hleft : r.left = left) (hn : n ≤ left)
    (hroom : left ≤ 8 * (r.stop - r.start)) (hword : n ≤ 57) :
    r.within n = r.number / 2 ^ (left - n) % 2 ^ n := by
  have hlow : r.left.toNat - n = left - n := by omega
  generalize hk : left - n = low at hlow
  have hshift : (UInt64.ofNat (low % 8)).toNat % 64 = low % 8 := by
    rw [UInt64.toNat_ofNat', Nat.mod_eq_of_lt (a := low % 8) (by omega),
      Nat.mod_eq_of_lt (by omega)]
  have hcut : r.number / 2 ^ low
      = littleEndian r.bytes (r.start + low / 8) (r.stop - r.start - low / 8) / 2 ^ (low % 8) := by
    have hsplit : low / 8 + (r.stop - r.start - low / 8) = r.stop - r.start := by omega
    rw [number, ← littleEndian_div _ _ (low / 8), hsplit, Nat.div_div_eq_div_mul,
      show (256 : Nat) = 2 ^ 8 from rfl, ← Nat.pow_mul, ← Nat.pow_add, Nat.div_add_mod low 8]
  rw [within, hlow, toNat_and_mask _ (by omega), UInt64.toNat_shiftRight, hshift,
    toNat_word64At, Nat.shiftRight_eq_div_pow, hcut, ← Nat.mod_mul_right_div_self,
    ← Nat.mod_mul_right_div_self, ← Nat.pow_add,
    littleEndian_mod 8 (r.stop - r.start - low / 8) (by omega) (by omega)]

theorem read_eq {r : Backward} {n left : Nat} (hleft : r.left = left) (hn : n ≤ left)
    (hroom : left ≤ 8 * (r.stop - r.start)) (hword : n ≤ 57) :
    r.read n = (r.number / 2 ^ (left - n) % 2 ^ n, r.skip n) := by
  rw [read, peek, if_pos (by omega), within_eq hleft hn hroom hword]

theorem readLate_eq {r : Backward} {n left : Nat} (hleft : r.left = left) (hn : n ≤ left)
    (hroom : left ≤ 8 * (r.stop - r.start)) (hword : n ≤ 57) :
    r.readLate n = (r.number / 2 ^ (left - n) % 2 ^ n, r.skip n) := by
  rw [readLate, if_pos (by omega), within_eq hleft hn hroom hword]

@[simp] theorem number_skip (r : Backward) (n : Nat) : (r.skip n).number = r.number := rfl

@[simp] theorem skip_zero (r : Backward) : r.skip 0 = r := by
  rw [skip, Int.natCast_zero, Int.sub_zero]

theorem within_zero (r : Backward) : r.within 0 = 0 := by
  rw [within, toNat_and_mask _ (by decide), Nat.pow_zero, Nat.mod_one]

/-- No bits are read without a change. -/
@[simp] theorem read_zero (r : Backward) : r.read 0 = (0, r) := by
  rw [read, peek, within_zero, if_pos rfl, ite_self, skip_zero]

theorem readLate_zero {r : Backward} (hleft : 0 ≤ r.left) : r.readLate 0 = (0, r) := by
  rw [readLate, Int.natCast_zero, if_pos hleft, within_zero, skip_zero]

/-! ### Opening what was written -/

/-- The highest byte of a number that was written in as many bytes as it needs. -/
private theorem log2_top_byte {value : Nat} (hvalue : value ≠ 0) :
    value / 256 ^ (highBit value / 8) ≠ 0 ∧ value / 256 ^ (highBit value / 8) < 256
      ∧ highBit (value / 256 ^ (highBit value / 8)) = highBit value % 8 := by
  have hlow := Nat.log2_self_le hvalue
  have hhigh := @Nat.lt_log2_self value
  have hpow : (256 : Nat) ^ (highBit value / 8) = 2 ^ (8 * (highBit value / 8)) := by
    rw [Nat.pow_mul]
  have hsplit : highBit value = 8 * (highBit value / 8) + highBit value % 8 :=
    (Nat.div_add_mod _ 8).symm
  have hge : 2 ^ (highBit value % 8) ≤ value / 256 ^ (highBit value / 8) := by
    rw [Nat.le_div_iff_mul_le (by positivity), hpow, ← Nat.pow_add, Nat.add_comm, ← hsplit]
    exact hlow
  have hlt : value / 256 ^ (highBit value / 8) < 2 ^ (highBit value % 8 + 1) := by
    rw [Nat.div_lt_iff_lt_mul (by positivity), hpow, ← Nat.pow_add,
      show highBit value % 8 + 1 + 8 * (highBit value / 8) = highBit value + 1 by omega]
    exact hhigh
  have hpos : value / 256 ^ (highBit value / 8) ≠ 0 := by
    have := Nat.two_pow_pos (highBit value % 8)
    omega
  refine ⟨hpos, ?_, (Nat.log2_eq_iff hpos).mpr ⟨hge, hlt⟩⟩
  calc value / 256 ^ (highBit value / 8) < 2 ^ (highBit value % 8 + 1) := hlt
    _ ≤ 2 ^ 8 := Nat.pow_le_pow_right (by decide) (by omega)
    _ = 256 := by decide

/-- A number above zero, written in as many bytes as it needs, opens with its highest bit as the
marker. -/
theorem open?_number {bytes : ByteArray} {i value : Nat} (hvalue : value ≠ 0)
    (h : StandsAt bytes i
      (pushLittleEndian ByteArray.empty value (highBit value / 8 + 1))) :
    open? bytes i (i + (highBit value / 8 + 1))
        = some ⟨bytes, i, i + (highBit value / 8 + 1), (highBit value : Nat)⟩
      ∧ littleEndian bytes i (highBit value / 8 + 1) = value := by
  obtain ⟨hpos, hlt, htop⟩ := log2_top_byte hvalue
  have hfits : value < 256 ^ (highBit value / 8 + 1) := by
    rw [Nat.pow_succ, Nat.mul_comm, ← Nat.div_lt_iff_lt_mul (by positivity)]
    exact hlt
  have hnumber : littleEndian bytes i (highBit value / 8 + 1) = value := by
    rw [h.littleEndian_number, Nat.mod_eq_of_lt hfits]
  have hlast : byteAt bytes (i + highBit value / 8) = value / 256 ^ (highBit value / 8) := by
    have hcut := littleEndian_div bytes i (highBit value / 8) 1
    rw [hnumber, littleEndian_succ, littleEndian_zero] at hcut
    omega
  refine ⟨?_, hnumber⟩
  have hstop : i + (highBit value / 8 + 1) - 1 = i + highBit value / 8 := by omega
  rw [open?, if_pos (by omega)]
  simp only [hstop, hlast, if_neg hpos, htop, Option.some.injEq, mk.injEq, true_and]
  congr 1
  omega

end Bits.Backward

end SharedDictionary
