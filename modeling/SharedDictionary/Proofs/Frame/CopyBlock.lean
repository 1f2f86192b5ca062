import Mathlib.Tactic.Ring
import SharedDictionary.Frame.Block
import SharedDictionary.Frame.Encode
import SharedDictionary.Proofs.Bits.Denotation

/-!
# The block of a copy

A copy is written as a compressed block without literals and with one sequence.  The three tables of
the block have a single symbol each, so that its bit string is read as two numbers: the distance,
without its highest bit, and how far the length exceeds the base of its code.
`decodeCompressed_copyBlock` puts the parts together: decoding such a block copies back, in any
state of the decoder.
-/

namespace SharedDictionary

open SharedDictionary.Bits
open SharedDictionary.Entropy

/-! ### The code of a length -/

/-- Among adjoining codes, the last one whose base is not above a number has the number in its
range. -/
theorem LengthCode.exists_of_adjoining {base n : Nat} (extras : List Nat) (hbase : base ≤ n)
    (hn : n < base + (extras.map (2 ^ ·)).sum) :
    ∃ code : LengthCode,
      1 ≤ ((adjoining base extras).takeWhile (·.base ≤ n)).length
        ∧ (adjoining base extras)[((adjoining base extras).takeWhile (·.base ≤ n)).length - 1]?
          = some code
        ∧ code.base ≤ n ∧ n < code.base + 2 ^ code.extra := by
  induction extras generalizing base with
  | nil =>
      simp at hn
      omega
  | cons extra extras ih =>
      rw [adjoining, List.takeWhile_cons_of_pos (by simpa using hbase)]
      by_cases hnext : base + 2 ^ extra ≤ n
      · obtain ⟨code, hlength, hcode, hrange⟩ := ih hnext (by simpa [Nat.add_assoc] using hn)
        refine ⟨code, by simp, ?_, hrange⟩
        rw [List.length_cons, Nat.add_sub_cancel]
        obtain ⟨m, hm⟩ := Nat.exists_eq_add_of_le hlength
        rw [hm, Nat.add_sub_cancel_left] at hcode
        rw [hm, Nat.add_comm 1 m, List.getElem?_cons_succ]
        exact hcode
      · refine ⟨⟨base, extra⟩, by simp, ?_, hbase, Nat.lt_of_not_le hnext⟩
        have hnone : (adjoining (base + 2 ^ extra) extras).takeWhile (·.base ≤ n) = [] := by
          cases extras with
          | nil => rfl
          | cons extra' extras => simp [adjoining, hnext]
        rw [hnone]
        rfl

/-- The numbers of extra bits of the codes of match lengths. -/
private def matchExtras : List Nat :=
  List.replicate 32 0 ++ [1, 1, 1, 1, 2, 2, 3, 3, 4, 4, 5, 7, 8, 9, 10, 11, 12, 13, 14, 15, 16]

private theorem matchLengthCodes_eq :
    matchLengthCodes.toList = LengthCode.adjoining 3 matchExtras := rfl

/-- Every length of a copy has a code whose range holds it. -/
theorem matchLengthCode_spec {length : Nat} (hmin : 3 ≤ length) (hmax : length ≤ maxBlockSize) :
    ∃ symbol code, matchLengthCode length = (symbol, code)
      ∧ matchLengthCodes.getD symbol default = code ∧ symbol ≤ 52 ∧ code.extra ≤ 16
      ∧ code.base ≤ length ∧ length < code.base + 2 ^ code.extra := by
  obtain ⟨code, hpos, hcode, hbase, hrange⟩ :=
    LengthCode.exists_of_adjoining matchExtras hmin
      (Nat.lt_of_le_of_lt hmax (by decide))
  rw [← matchLengthCodes_eq] at hpos hcode
  set below := (matchLengthCodes.toList.takeWhile (·.base ≤ length)).length with hbelow
  have hmem : code ∈ matchLengthCodes.toList := List.mem_of_getElem? hcode
  have hgetD : matchLengthCodes.getD (below - 1) default = code := by
    rw [Array.getD_eq_getD_getElem?, ← Array.getElem?_toList, hcode]
    rfl
  have hextra : ∀ c ∈ matchLengthCodes.toList, c.extra ≤ 16 := by decide
  have hsymbol : below - 1 < matchLengthCodes.toList.length :=
    (List.getElem?_eq_some_iff.mp hcode).1
  refine ⟨below - 1, code, ?_, hgetD, ?_, hextra code hmem, hbase, hrange⟩
  · rw [matchLengthCode, hgetD]
  · have hcount : matchLengthCodes.toList.length = 53 := rfl
    omega

/-! ### The bits of a copy -/

/-- The code of a distance that may be written. -/
theorem distanceCode_spec {distance : Nat} (hpos : 1 ≤ distance)
    (hfar : distance ≤ greatestDistance) :
    2 ≤ highBit (distance + 3) ∧ highBit (distance + 3) ≤ 31
      ∧ 2 ^ highBit (distance + 3) ≤ distance + 3
      ∧ distance + 3 < 2 ^ (highBit (distance + 3) + 1) := by
  have hne : distance + 3 ≠ 0 := by omega
  refine ⟨(Nat.le_log2 hne).mpr (by omega), ?_, Nat.log2_self_le hne, Nat.lt_log2_self⟩
  refine Nat.lt_succ_iff.mp ((Nat.log2_lt hne).mpr ?_)
  simp only [greatestDistance] at hfar
  omega

section Bits

variable {distance length : Nat} {code : LengthCode}

/-- The marker of the bits of a copy stands above all of them. -/
theorem highBit_copyBits (hrange : length < code.base + 2 ^ code.extra)
    (hbase : code.base ≤ length) :
    highBit (copyBits distance length code) = highBit (distance + 3) + code.extra := by
  have hlow := Nat.log2_self_le (n := distance + 3) (by omega)
  have hhigh := @Nat.lt_log2_self (distance + 3)
  have hpow := Nat.two_pow_pos code.extra
  have hne : copyBits distance length code ≠ 0 := by
    have := Nat.mul_pos (show 0 < distance + 3 by omega) hpow
    simp only [copyBits]
    omega
  refine (Nat.log2_eq_iff hne).mpr ⟨?_, ?_⟩
  · rw [Nat.pow_add]
    exact Nat.le_trans (Nat.mul_le_mul_right _ hlow) (Nat.le_add_right _ _)
  · calc copyBits distance length code < (distance + 3 + 1) * 2 ^ code.extra := by
          rw [copyBits, Nat.succ_mul (distance + 3)]
          omega
      _ ≤ 2 ^ (highBit (distance + 3) + 1) * 2 ^ code.extra := Nat.mul_le_mul_right _ hhigh
      _ = 2 ^ (highBit (distance + 3) + code.extra + 1) := by
          rw [← Nat.pow_add, Nat.add_right_comm]

/-- The distance stands above the extra bits of the length. -/
theorem copyBits_div (hrange : length < code.base + 2 ^ code.extra)
    (hbase : code.base ≤ length) :
    copyBits distance length code / 2 ^ code.extra = distance + 3 := by
  rw [copyBits, Nat.mul_comm, Nat.mul_add_div (Nat.two_pow_pos _), Nat.div_eq_of_lt (by omega),
    Nat.add_zero]

theorem copyBits_mod (hrange : length < code.base + 2 ^ code.extra)
    (hbase : code.base ≤ length) :
    copyBits distance length code % 2 ^ code.extra = length - code.base := by
  rw [copyBits, Nat.mul_comm, Nat.mul_add_mod, Nat.mod_eq_of_lt (by omega)]

end Bits

/-! ### The parts of the block -/

section Parts

variable {bytes : ByteArray} {start distance length symbol : Nat} {code : LengthCode}

/-- The bytes of a copy's block in front of its bits. -/
private def copyOpening (distance symbol : Nat) : ByteArray :=
  ⟨#[0, 1, UInt8.ofNat singleSymbolModes, 0, UInt8.ofNat (highBit (distance + 3)),
    UInt8.ofNat symbol]⟩

private theorem copyBlock_eq (hcode : matchLengthCode length = (symbol, code)) :
    copyBlock distance length
      = copyOpening distance symbol
        ++ pushLittleEndian ByteArray.empty (copyBits distance length code)
          (highBit (copyBits distance length code) / 8 + 1) := by
  rw [copyBlock, hcode]
  exact pushLittleEndian_eq _ _ _

/-- The block of a copy is short. -/
theorem size_copyBlock (hmin : shortestGain ≤ length) (hmax : length ≤ maxBlockSize)
    (hpos : 1 ≤ distance) (hfar : distance ≤ greatestDistance) :
    6 < (copyBlock distance length).size ∧ (copyBlock distance length).size ≤ 12 := by
  simp only [shortestGain] at hmin
  obtain ⟨symbol, code, hcode, -, -, hextra, hbase, hrange⟩ :=
    matchLengthCode_spec (by omega) hmax
  obtain ⟨-, hbits, -, -⟩ := distanceCode_spec hpos hfar
  have hopening : (copyOpening distance symbol).size = 6 := rfl
  rw [copyBlock_eq hcode, ByteArray.size_append, hopening, size_pushLittleEndian,
    ByteArray.size_empty, highBit_copyBits hrange hbase]
  omega

/-- The literals of a copy's block are none, and the block may still write what fits a block. -/
private theorem Literals.read_none (space : BlockSpace) (state : CodingState) {stop : Nat}
    (hfirst : byteAt bytes start = 0) (hstop : start + 2 ≤ stop) :
    ∃ room, min space.blockLimit space.room ≤ room
      ∧ Literals.read space state bytes start stop = .ok (⟨ByteArray.empty, 1, room⟩, state) := by
  have hheader : Literals.plainHeader 0 = 1 := rfl
  have hcount : Literals.plainCount bytes start 1 = 0 := by
    rw [Literals.plainCount, if_pos rfl, hfirst]
  have hcheck : Literals.checkCount space 0 = .ok () := by
    rw [Literals.checkCount, if_neg (Nat.not_lt_zero _), if_neg (Nat.not_lt_zero _)]
  have hempty : bytes.extract (start + 1) (start + 1 + 0) = ByteArray.empty := by
    rw [Nat.add_zero, ByteArray.extract_same]
  have hraw : Literals.readRaw space bytes start stop
      = .ok ⟨ByteArray.empty, 1,
          if stop < start + 1 + 32 then space.roomBeside 0 else space.room⟩ := by
    rw [Literals.readRaw]
    simp only [hfirst, hheader, hcount, hcheck, hempty, if_neg (show ¬stop < start + 1 by omega),
      Nat.add_zero]
    rfl
  refine ⟨_, ?_, by rw [Literals.read, if_neg (by omega), hfirst, hraw]; rfl⟩
  split
  · rw [BlockSpace.roomBeside, BlockSpace.beside]
    split <;> omega
  · exact Nat.min_le_right _ _

/-- The tables of a copy's block. -/
private def copyTables (distance symbol : Nat) : SequenceTables :=
  ⟨.single 0, .single (highBit (distance + 3)), .single symbol⟩

/-- The bytes of a copy's block in front of its bits open a single sequence with three tables of one
symbol. -/
private theorem SequenceHeader.read_copyOpening (previous : Option SequenceTables) {stop : Nat}
    (h : StandsAt bytes start (copyOpening distance symbol))
    (hdistance : highBit (distance + 3) ≤ 31) (hsymbol : symbol ≤ 52) (hstop : start + 6 < stop) :
    SequenceHeader.read previous bytes (start + 1) stop
      = .ok ⟨1, some (copyTables distance symbol), 5⟩ := by
  have hsize : (copyOpening distance symbol).size = 6 := rfl
  have hcount : byteAt bytes (start + 1) = 1 := h.byteAt_eq (by omega)
  have hmodes : byteAt bytes (start + 1 + 1) = 84 := h.byteAt_eq (j := 2) (by omega)
  have hfirst : byteAt bytes (start + 3) = 0 := h.byteAt_eq (by omega)
  have hsecond : byteAt bytes (start + 4) = highBit (distance + 3) := by
    rw [h.byteAt_eq (by omega)]
    exact Nat.mod_eq_of_lt (by omega)
  have hthird : byteAt bytes (start + 5) = symbol := by
    rw [h.byteAt_eq (by omega)]
    exact Nat.mod_eq_of_lt (by omega)
  have htables : SequenceHeader.readTables? previous 84 bytes (start + 3) stop
      = some (copyTables distance symbol, 3) := by
    rw [SequenceHeader.readTables?]
    simp only [SequenceHeader.readTable?, hfirst, Dictionary.literalLengthLimits,
      Dictionary.offsetLimits, Dictionary.matchLengthLimits]
    rw [if_pos ⟨by omega, by omega⟩]
    simp only [Option.bind_eq_bind, Option.bind_some, hsecond]
    rw [if_pos ⟨by omega, hdistance⟩]
    simp only [Option.bind_some, hthird]
    rw [if_pos ⟨by omega, hsymbol⟩]
    rfl
  have hread : SequenceHeader.readCount bytes (start + 1) stop = .ok (1, 1) := by
    simp only [SequenceHeader.readCount, hcount]
    rw [if_neg (by omega), if_pos (by decide)]
  rw [SequenceHeader.read, hread]
  simp only [Except.bind, bind, hmodes, if_neg Nat.one_ne_zero,
    if_neg (show ¬stop < start + 1 + 1 + 1 by omega), htables]
  rfl

/-- The bits of a copy's block are read as its only sequence, up to their end. -/
private theorem Sequence.readAll_copyBits (recent : RecentOffsets) {r : Backward}
    (hsymbol : matchLengthCodes.getD symbol default = code) (hextra : code.extra ≤ 16)
    (hbase : code.base ≤ length) (hrange : length < code.base + 2 ^ code.extra)
    (hpos : 1 ≤ distance) (hfar : distance ≤ greatestDistance)
    (hnumber : r.number = copyBits distance length code)
    (hleft : r.left = (highBit (copyBits distance length code) : Nat))
    (hroom : highBit (copyBits distance length code) ≤ 8 * (r.stop - r.start)) :
    ∃ recent', Sequence.readAll (copyTables distance symbol) recent r 1
      = ([⟨0, length, distance⟩], recent', true) := by
  obtain ⟨hcode, hcode', hlow, hhigh⟩ := distanceCode_spec hpos hfar
  rw [highBit_copyBits hrange hbase] at hleft hroom
  have hstart : Reader.start (copyTables distance symbol) recent r = ⟨0, 0, 0, recent, r⟩ := by
    simp only [Reader.start, copyTables, StateTable.start, StateTable.single,
      Backward.readLate_zero (show 0 ≤ r.left by omega)]
  -- The distance stands on top, and its marker has already told how many bits it has.
  have hmark : (distance + 3) % 2 ^ highBit (distance + 3)
      = distance + 3 - 2 ^ highBit (distance + 3) := by
    rw [Nat.mod_eq_sub_mod hlow, Nat.mod_eq_of_lt (by rw [Nat.pow_succ] at hhigh; omega)]
  have hdistance : r.read (highBit (distance + 3))
      = (distance + 3 - 2 ^ highBit (distance + 3), r.skip (highBit (distance + 3))) := by
    rw [Backward.read_eq hleft (Nat.le_add_right _ _) hroom (by omega), Nat.add_sub_cancel_left,
      hnumber, copyBits_div hrange hbase, hmark]
  generalize hrest : r.skip (highBit (distance + 3)) = rest at hdistance
  have hrestLeft : rest.left = code.extra := by
    rw [← hrest, Backward.left_skip]
    omega
  have hrestRoom : code.extra ≤ 8 * (rest.stop - rest.start) := by
    rw [← hrest]
    exact Nat.le_trans (Nat.le_add_left _ _) hroom
  have hlength : rest.read code.extra = (length - code.base, rest.skip code.extra) := by
    rw [Backward.read_eq hrestLeft (Nat.le_refl _) hrestRoom (by omega), Nat.sub_self, ← hrest,
      Backward.number_skip, hnumber, Nat.pow_zero, Nat.div_one, copyBits_mod hrange hbase]
  have hpow : 2 ^ 2 ≤ 2 ^ highBit (distance + 3) := Nat.pow_le_pow_right (by decide) hcode
  have hcurrent : Reader.current (copyTables distance symbol) ⟨0, 0, 0, recent, r⟩
      = (⟨0, length, distance⟩, ⟨0, 0, 0, RecentOffsets.push recent distance, rest.skip code.extra⟩) := by
    have hliteral : literalLengthCodes.getD 0 default = ⟨0, 0⟩ := rfl
    have hsingle : ∀ s, (StateTable.single s).entry 0 = ⟨s, 0, 0⟩ := fun _ => rfl
    have htotal : 2 ^ highBit (distance + 3) - 3
        + (distance + 3 - 2 ^ highBit (distance + 3)) = distance := by
      omega
    simp only [Reader.current, copyTables, hsingle, hliteral, hsymbol, readDistance, if_pos hcode,
      hdistance, hlength, htotal, Backward.read_zero, Nat.add_sub_cancel' hbase, Nat.add_zero]
  have hended : (rest.skip code.extra).ended = true := by
    rw [Backward.ended, Backward.left_skip, hrestLeft, Int.sub_self]
    rfl
  refine ⟨RecentOffsets.push recent distance, ?_⟩
  rw [Sequence.readAll, hstart]
  simp only [Reader.run, hcurrent, hended]
  rfl

end Parts

/-! ### Decoding -/

/-- A single sequence without literals copies back, whenever the end of the bits is looked at. -/
private theorem executeChecked_copy {distance length : Nat} {window : ByteArray} (limit : Nat)
    (cold : Bool)
    (hlimit : window.size + length ≤ limit) (hdistance : distance ≤ window.size) :
    executeChecked ByteArray.empty limit cold [⟨0, length, distance⟩] true ⟨window, 0⟩
      = .ok ⟨copyBack window distance length, 0⟩ := by
  have hnothing : pushRange window ByteArray.empty 0 0 = window := by
    rw [pushRange, ByteArray.extract_same, ByteArray.append_empty]
  have hexecute : Sequence.execute ByteArray.empty limit ⟨0, length, distance⟩ ⟨window, 0⟩
      = .ok ⟨copyBack window distance length, 0⟩ := by
    rw [Sequence.execute]
    simp only [Nat.add_zero, hnothing, if_neg (show ¬limit < window.size + length by omega),
      if_neg (show ¬window.size < distance by omega), ByteArray.size_empty, Nat.lt_irrefl, if_false]
  have hall : executeAll ByteArray.empty limit [⟨0, length, distance⟩] ⟨window, 0⟩
      = .ok ⟨copyBack window distance length, 0⟩ := by
    simp only [executeAll, hexecute]
  cases cold
  · show (executeAll ByteArray.empty limit [⟨0, length, distance⟩] ⟨window, 0⟩ >>= fun x =>
      executeAll ByteArray.empty limit [] x) = _
    rw [hall]
    rfl
  · exact hall

/-- **The block of a copy copies back**, whatever the decoder holds.  It leaves some tables for the
next block. -/
theorem decodeCompressed_copyBlock {space : BlockSpace} (d : BlockDecoder) {window bytes : ByteArray}
    {start distance length : Nat} (h : StandsAt bytes start (copyBlock distance length))
    (hmin : shortestGain ≤ length) (hmax : length ≤ maxBlockSize)
    (hlimit : length ≤ space.blockLimit) (hroom : length ≤ space.room)
    (hpos : 1 ≤ distance) (hfar : distance ≤ greatestDistance) (hreach : distance ≤ window.size) :
    ∃ d', decodeCompressed space d window bytes start (start + (copyBlock distance length).size)
      = .ok (d', copyBack window distance length) := by
  obtain ⟨hsize, hsize'⟩ := size_copyBlock hmin hmax hpos hfar
  simp only [shortestGain] at hmin
  obtain ⟨symbol, code, hcode, hsymbol, hle, hextra, hbase, hrange⟩ :=
    matchLengthCode_spec (by omega) hmax
  obtain ⟨-, hbits, -, -⟩ := distanceCode_spec hpos hfar
  generalize hblock : (copyBlock distance length).size = size at hsize hsize' ⊢
  have hopening : (copyOpening distance symbol).size = 6 := rfl
  have hstop : start + size = start + 6 + (highBit (copyBits distance length code) / 8 + 1) := by
    rw [← hblock, copyBlock_eq hcode, ByteArray.size_append, hopening, size_pushLittleEndian,
      ByteArray.size_empty, Nat.zero_add, Nat.add_assoc]
  rw [copyBlock_eq hcode, standsAt_append, hopening] at h
  obtain ⟨hopen, hcopy⟩ := h
  have hnonzero : copyBits distance length code ≠ 0 := by
    have := Nat.mul_pos (show 0 < distance + 3 by omega) (Nat.two_pow_pos code.extra)
    rw [copyBits]
    omega
  obtain ⟨hreader, hnumber⟩ := Backward.open?_number hnonzero hcopy
  rw [← hstop] at hreader
  have hfirst : byteAt bytes start = 0 := hopen.byteAt_eq (j := 0) (by omega)
  obtain ⟨room, hfits, hliterals⟩ :=
    Literals.read_none space d.state hfirst
      (show start + 2 ≤ start + size by omega)
  have hheader := SequenceHeader.read_copyOpening d.state.sequences hopen hbits hle
    (show start + 6 < start + size by omega)
  obtain ⟨recent, hsequences⟩ := Sequence.readAll_copyBits d.state.recent
    (r := ⟨bytes, start + 6, start + size, (highBit (copyBits distance length code) : Nat)⟩)
    hsymbol hextra hbase hrange hpos hfar
    (by rw [Backward.number, hstop, Nat.add_sub_cancel_left, hnumber]) rfl (by simp only; omega)
  have hexecute := executeChecked_copy (window.size + room) d.cold
    (show window.size + length ≤ window.size + room by omega) hreach
  have hfinish : Execution.finish ByteArray.empty (window.size + room)
      ⟨copyBack window distance length, 0⟩ = .ok (copyBack window distance length) := by
    rw [Execution.finish]
    simp only [ByteArray.size_empty, Nat.sub_self, Nat.add_zero, size_copyBack, pushRange,
      ByteArray.extract_same, ByteArray.append_empty]
    rw [if_neg (by omega)]
  refine ⟨⟨{ d.state with sequences := some (copyTables distance symbol), recent := recent },
    false⟩, ?_⟩
  rw [decodeCompressed]
  simp only [Nat.add_sub_cancel_left, if_neg (show ¬space.blockLimit < size by omega),
    if_neg (show ¬space.room = 0 by omega), hliterals, hheader, hreader, hsequences, hexecute,
    hfinish, Except.bind, bind]
  rfl

end SharedDictionary
