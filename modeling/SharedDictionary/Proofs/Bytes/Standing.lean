import SharedDictionary.Bytes

/-!
# Byte strings inside byte strings

A writer appends parts behind each other and a reader looks at positions.  The two meet in
`StandsAt`: a part stands in a byte string at a position.  What was appended in order stands in
order (`standsAt_append`), and a read inside a part is a read of the part alone
(`StandsAt.octetAt`, `StandsAt.littleEndian`).

Every appending function of the library only appends, and what it appends does not depend on what
is there (`pushLittleEndian_eq`); a number that was appended is read back
(`littleEndian_pushLittleEndian`).
-/

namespace SharedDictionary

/-! ### Single octets -/

theorem octetAt_of_lt {bytes : ByteArray} {i : Nat} (h : i < bytes.size) :
    octetAt bytes i = bytes[i] := by
  rw [octetAt, dif_pos h]

theorem octetAt_append_left {a b : ByteArray} {i : Nat} (h : i < a.size) :
    octetAt (a ++ b) i = octetAt a i := by
  rw [octetAt_of_lt h, octetAt_of_lt (by rw [ByteArray.size_append]; omega),
    ByteArray.getElem_append_left h]

theorem octetAt_append_right (a b : ByteArray) (i : Nat) :
    octetAt (a ++ b) (a.size + i) = octetAt b i := by
  by_cases h : i < b.size
  · rw [octetAt_of_lt h, octetAt_of_lt (by rw [ByteArray.size_append]; omega),
      ByteArray.getElem_append_right (by omega)]
    simp
  · rw [octetAt, octetAt, dif_neg h, dif_neg (by rw [ByteArray.size_append]; omega)]

theorem octetAt_extract {bytes : ByteArray} {i j k : Nat} (h : i + k < j)
    (hj : j ≤ bytes.size) : octetAt (bytes.extract i j) k = octetAt bytes (i + k) := by
  rw [octetAt_of_lt (by rw [ByteArray.size_extract]; omega), octetAt_of_lt (by omega),
    ByteArray.getElem_extract]

/-- A range ends where its byte string does. -/
theorem extract_min_size (bytes : ByteArray) (i j : Nat) :
    bytes.extract i (min j bytes.size) = bytes.extract i j := by
  refine ByteArray.ext_getElem ?_ fun k hk hk' => ?_
  · rw [ByteArray.size_extract, ByteArray.size_extract]
    omega
  · rw [ByteArray.getElem_extract, ByteArray.getElem_extract]

/-- A range and the bytes behind it are the bytes from the range on. -/
theorem extract_append_rest (bytes : ByteArray) {i j : Nat} (h : i ≤ j) :
    bytes.extract i j ++ bytes.extract j bytes.size = bytes.extract i bytes.size := by
  rcases Nat.le_total j bytes.size with hinside | hbehind
  · exact (ByteArray.extract_eq_extract_append_extract j h hinside).symm
  · have hnothing : bytes.extract j bytes.size = ByteArray.empty :=
      ByteArray.extract_eq_empty_iff.mpr (by omega)
    rw [hnothing, ByteArray.append_empty, ← extract_min_size, Nat.min_eq_right hbehind]

theorem isEmpty_iff {bytes : ByteArray} : bytes.isEmpty = true ↔ bytes = ByteArray.empty := by
  rw [ByteArray.isEmpty, beq_iff_eq, ByteArray.size_eq_zero_iff]

/-- A byte string up to a position, with the octet there behind it, is the byte string up to the
next position. -/
theorem push_octetAt_extract {bytes : ByteArray} {i : Nat} (h : i < bytes.size) :
    (bytes.extract 0 i).push (octetAt bytes i) = bytes.extract 0 (i + 1) := by
  rw [ByteArray.extract_eq_extract_append_extract i (Nat.zero_le i) (Nat.le_succ i),
    ByteArray.extract_add_one h, ByteArray.append_toByteArray_singleton, octetAt_of_lt h]

/-! ### Parts -/

/-- A part stands in a byte string from a position on. -/
structure StandsAt (bytes : ByteArray) (i : Nat) (part : ByteArray) : Prop where
  /-- The part ends inside the byte string. -/
  le : i + part.size ≤ bytes.size
  extract_eq : bytes.extract i (i + part.size) = part

theorem standsAt_self (bytes : ByteArray) : StandsAt bytes 0 bytes :=
  ⟨by simp, by rw [Nat.zero_add, ByteArray.extract_zero_size]⟩

/-- Parts behind each other stand behind each other. -/
theorem standsAt_append {bytes a b : ByteArray} {i : Nat} :
    StandsAt bytes i (a ++ b) ↔ StandsAt bytes i a ∧ StandsAt bytes (i + a.size) b := by
  constructor
  · rintro ⟨hle, heq⟩
    rw [ByteArray.size_append] at hle heq
    have hsplit : bytes.extract i (i + a.size)
        ++ bytes.extract (i + a.size) (i + (a.size + b.size)) = a ++ b := by
      rw [← heq, ← ByteArray.extract_eq_extract_append_extract _ (by omega) (by omega)]
    have hleft : bytes.extract i (i + a.size) = a :=
      ByteArray.append_inj_left hsplit (by rw [ByteArray.size_extract]; omega)
    rw [hleft, ByteArray.append_right_inj, ← Nat.add_assoc] at hsplit
    exact ⟨⟨by omega, hleft⟩, ⟨by omega, hsplit⟩⟩
  · rintro ⟨⟨hlea, ha⟩, hleb, hb⟩
    refine ⟨by rw [ByteArray.size_append]; omega, ?_⟩
    rw [ByteArray.size_append, ← Nat.add_assoc,
      ByteArray.extract_eq_extract_append_extract (i + a.size) (by omega) (by omega), ha, hb]

theorem standsAt_append_right (a b : ByteArray) : StandsAt (a ++ b) a.size b := by
  simpa using (standsAt_append.mp (standsAt_self (a ++ b))).2

namespace StandsAt

variable {bytes part inner : ByteArray} {i j k : Nat}

/-- A part of a part. -/
theorem trans (h : StandsAt bytes i part) (hinner : StandsAt part j inner) :
    StandsAt bytes (i + j) inner := by
  have hle := h.le
  have hlinner := hinner.le
  refine ⟨by omega, ?_⟩
  have heq := hinner.extract_eq
  rw [← h.extract_eq, ByteArray.extract_extract, Nat.min_eq_left (by omega),
    ← Nat.add_assoc] at heq
  exact heq

/-- An octet of a part is read off the part. -/
theorem octetAt_eq (h : StandsAt bytes i part) (hj : j < part.size) :
    octetAt bytes (i + j) = octetAt part j := by
  rw [← octetAt_extract (Nat.add_lt_add_left hj i) h.le, h.extract_eq]

theorem byteAt_eq (h : StandsAt bytes i part) (hj : j < part.size) :
    byteAt bytes (i + j) = byteAt part j := by
  rw [byteAt, byteAt, h.octetAt_eq hj]

/-- A number inside a part is read off the part. -/
theorem littleEndian_eq (h : StandsAt bytes i part) (hj : j + k ≤ part.size) :
    littleEndian bytes (i + j) k = littleEndian part j k := by
  induction k generalizing j with
  | zero => rfl
  | succ k ih =>
      rw [littleEndian_succ, littleEndian_succ, h.byteAt_eq (by omega), Nat.add_assoc,
        ih (by omega)]

end StandsAt

/-! ### Appending -/

theorem push_eq_append (out : ByteArray) (octet : UInt8) :
    out.push octet = out ++ ByteArray.empty.push octet := by
  rw [← ByteArray.append_toByteArray_singleton, ← ByteArray.append_toByteArray_singleton,
    ByteArray.empty_append]

/-- Appending a number appends its own bytes. -/
theorem pushLittleEndian_eq (out : ByteArray) (value count : Nat) :
    pushLittleEndian out value count = out ++ pushLittleEndian ByteArray.empty value count := by
  induction count generalizing out value with
  | zero => simp
  | succ count ih =>
      rw [pushLittleEndian_succ, pushLittleEndian_succ, ih (out.push _),
        ih (ByteArray.empty.push _), push_eq_append, ByteArray.append_assoc]

/-- A number that was appended is read back, as far as its bytes reach. -/
theorem littleEndian_pushLittleEndian (out : ByteArray) (value count : Nat) :
    littleEndian (pushLittleEndian out value count) out.size count = value % 256 ^ count := by
  induction count generalizing out value with
  | zero => simp [Nat.mod_one]
  | succ count ih =>
      have hrest := ih (out.push (UInt8.ofNat value)) (value / 256)
      rw [ByteArray.size_push] at hrest
      have hfirst : byteAt (pushLittleEndian (out.push (UInt8.ofNat value)) (value / 256) count)
          out.size = value % 256 := by
        rw [pushLittleEndian_eq, byteAt, octetAt_append_left (by rw [ByteArray.size_push]; omega),
          push_eq_append]
        have hoctet := octetAt_append_right out (ByteArray.empty.push (UInt8.ofNat value)) 0
        rw [Nat.add_zero] at hoctet
        rw [hoctet]
        exact UInt8.toNat_ofNat'
      rw [pushLittleEndian_succ, littleEndian_succ, hrest, hfirst, Nat.pow_succ,
        Nat.mul_comm (256 ^ count) 256, Nat.mod_mul]

/-- The number that stands at a position is read there. -/
theorem StandsAt.littleEndian_number {bytes : ByteArray} {i value count : Nat}
    (h : StandsAt bytes i (pushLittleEndian ByteArray.empty value count)) :
    littleEndian bytes i count = value % 256 ^ count := by
  have hread := h.littleEndian_eq (j := 0) (k := count) (by simp)
  have hback := littleEndian_pushLittleEndian ByteArray.empty value count
  rw [ByteArray.size_empty] at hback
  rwa [Nat.add_zero, hback] at hread

end SharedDictionary
