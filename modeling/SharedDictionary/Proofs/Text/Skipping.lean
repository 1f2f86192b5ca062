import SharedDictionary.Proofs.Text.Grammar
import Mathlib.Data.List.DropRight

/-!
# Skipping values

Whatever is well formed can be skipped, and nothing of the rest is touched.
-/

namespace SharedDictionary.Json

/-! ### What follows a value -/

/-- A character that ends a value. -/
def isEnd (c : Char) : Bool := isSpace c || c == ',' || c == ']' || c == '\x7d'

/-- A text where a value has ended. -/
def Ended (rest : List Char) : Prop := ∀ c ∈ rest.head?, isEnd c = true

theorem ended_cons {c : Char} (hc : isEnd c = true) (rest : List Char) : Ended (c :: rest) :=
  fun _ h => Option.some.inj h ▸ hc

/-- Space ends a value. -/
theorem Gap.ended (gap : Gap) {rest : List Char} (hrest : Ended rest) : Ended (gap.chars ++ rest) := by
  obtain ⟨_ | ⟨c, chars⟩, hspace⟩ := gap
  · exact hrest
  · refine ended_cons ?_ _
    rw [isEnd, hspace c List.mem_cons_self]
    rfl

theorem isDigit_of_isEnd {c : Char} (hc : isEnd c = true) : isDigit c = false := by
  simp only [isEnd, isSpace, Bool.or_eq_true, beq_iff_eq] at hc
  rcases hc with (((((rfl | rfl) | rfl) | rfl) | rfl) | rfl) | rfl <;> rfl

/-- What has ended is nothing, or starts with one of seven characters. -/
theorem Ended.cases {rest : List Char} (h : Ended rest) :
    rest = [] ∨ ∃ c tail, rest = c :: tail ∧ c ∈ [' ', '\n', '\t', '\r', ',', ']', '\x7d'] := by
  cases rest with
  | nil => exact .inl rfl
  | cons c tail =>
      have hc : isEnd c = true := h c rfl
      refine .inr ⟨c, tail, rfl, ?_⟩
      simp only [isEnd, isSpace, Bool.or_eq_true, beq_iff_eq, or_assoc] at hc
      simpa only [List.mem_cons, List.not_mem_nil, or_false] using hc

/-! ### Space -/

theorem skipSpace_gap (gap : Gap) (rest : List Char) : skipSpace (gap.chars ++ rest) = skipSpace rest :=
  List.dropWhile_append_of_pos gap.isSpace_of_mem

theorem skipSpace_cons {c : Char} (hc : isSpace c = false) (rest : List Char) :
    skipSpace (c :: rest) = c :: rest := by
  rw [skipSpace, List.dropWhile_cons_of_neg (by rw [hc]; exact Bool.false_ne_true)]

theorem skipSpace_skipSpace (cs : List Char) : skipSpace (skipSpace cs) = skipSpace cs :=
  List.dropWhile_idempotent isSpace cs

/-! ### Numbers -/

/-- A digit is none of the marks of a number. -/
theorem isDigit_ne {c d : Char} (hc : isDigit c = true) (hd : isDigit d = false) : c ≠ d := by
  rintro rfl
  rw [hc] at hd
  cases hd

/-- A text that does not go on with digits. -/
def NoDigit (rest : List Char) : Prop := rest.head?.any isDigit = false

theorem Ended.noDigit {rest : List Char} (h : Ended rest) : NoDigit rest := by
  cases rest with
  | nil => rfl
  | cons c tail => exact isDigit_of_isEnd (h c rfl)

namespace Digits

variable (d : Digits) {rest : List Char}

theorem takeWhile_append (hrest : NoDigit rest) : (d.chars ++ rest).takeWhile isDigit = d.chars := by
  refine (List.takeWhile_append_of_pos d.isDigit_of_mem).trans ?_
  cases rest with
  | nil => exact List.append_nil _
  | cons c tail =>
      have hc : isDigit c = false := hrest
      rw [List.takeWhile_cons_of_neg (Bool.eq_false_iff.mp hc)]
      exact List.append_nil _

theorem dropWhile_append (hrest : NoDigit rest) : (d.chars ++ rest).dropWhile isDigit = rest := by
  refine (List.dropWhile_append_of_pos d.isDigit_of_mem).trans ?_
  cases rest with
  | nil => rfl
  | cons c tail => exact List.dropWhile_cons_of_neg (Bool.eq_false_iff.mp hrest)

theorem isDigit_head : isDigit d.head = true := d.isDigit_of_mem _ List.mem_cons_self

theorem head?_append (rest : List Char) : (d.chars ++ rest).head?.any isDigit = true :=
  d.isDigit_head

end Digits

/-- A numeral starts with a minus or a digit. -/
theorem Numeral.write_ne (n : Numeral) {c : Char} (hdigit : isDigit c = false) (hminus : c ≠ '-')
    (rest tail : List Char) : n.write rest ≠ c :: tail := by
  intro h
  rw [write] at h
  split at h
  · exact hminus (List.cons.inj h).1.symm
  · exact isDigit_ne n.digits.isDigit_head hdigit (List.cons.inj h).1

theorem Exponent.noDigit (e : Exponent) (rest : List Char) : NoDigit (e.write rest) := by
  obtain ⟨letter, sign, digits, rfl | rfl, -⟩ := e <;> rfl

theorem Numeral.noDigit_writeExponent (exponent : Option Exponent) {rest : List Char} (hrest : Ended rest) :
    NoDigit (writeExponent exponent rest) := by
  rcases exponent with _ | e
  · exact hrest.noDigit
  · exact e.noDigit rest

theorem Numeral.noDigit_writeTail (n : Numeral) {rest : List Char} (hrest : Ended rest) :
    NoDigit (n.writeTail rest) := by
  rw [writeTail]
  rcases n.fraction with _ | digits
  · exact noDigit_writeExponent n.exponent hrest
  · rfl

/-- An exponent without a sign is skipped. -/
theorem Digits.skipExponent_eq (d : Digits) {rest : List Char} (hrest : NoDigit rest) :
    skipExponent (d.chars ++ rest) = .ok rest := by
  have hplus : d.head ≠ '+' := isDigit_ne d.isDigit_head rfl
  have hminus : d.head ≠ '-' := isDigit_ne d.isDigit_head rfl
  unfold skipExponent
  split
  · exact absurd (List.cons.inj ‹_›).1 hplus
  · exact absurd (List.cons.inj ‹_›).1 hminus
  · rw [if_pos (d.head?_append rest), d.dropWhile_append hrest]

theorem Exponent.skipExponent_eq (e : Exponent) {rest : List Char} (hrest : NoDigit rest) :
    skipExponent (e.sign.toList ++ (e.digits.chars ++ rest)) = .ok rest := by
  obtain ⟨letter, _ | sign, digits, -, hsign⟩ := e
  · exact digits.skipExponent_eq hrest
  · have hskip : ∀ sign, sign = '+' ∨ sign = '-' →
        skipExponent (sign :: (digits.chars ++ rest)) = .ok rest := by
      rintro sign (rfl | rfl) <;>
        exact (if_pos (digits.head?_append rest)).trans
          (congrArg Except.ok (digits.dropWhile_append hrest))
    exact hskip sign (hsign sign rfl)

namespace Numeral

variable (n : Numeral) {rest : List Char}

/-- A numeral does not start with a needless zero, whatever follows it. -/
theorem not_needlessZero (hrest : Ended rest) :
    ¬(n.digits.head = '0' ∧ (n.digits.tail ++ n.writeTail rest).head?.any isDigit = true) := by
  rintro ⟨hzero, hdigit⟩
  rw [n.noNeedlessZero hzero, List.nil_append, n.noDigit_writeTail hrest] at hdigit
  cases hdigit

/-- Where an exponent may stand, the numeral has ended, or an exponent is skipped after its letter. -/
theorem writeExponent_cases (exponent : Option Exponent) (hrest : Ended rest) :
    writeExponent exponent rest = rest ∨ ∃ letter tail, (letter = 'e' ∨ letter = 'E')
      ∧ writeExponent exponent rest = letter :: tail ∧ skipExponent tail = .ok rest := by
  rcases exponent with _ | e
  · exact .inl rfl
  · exact .inr ⟨e.letter, _, e.isLetter, rfl, e.skipExponent_eq hrest.noDigit⟩

theorem skipDigits_writeUnsigned (hrest : Ended rest) : skipDigits (n.writeUnsigned rest) = .ok rest := by
  have hneedless := n.not_needlessZero hrest
  have hdrop := n.digits.dropWhile_append (n.noDigit_writeTail hrest)
  rw [Digits.chars, List.cons_append] at hdrop
  rw [writeUnsigned, Digits.chars, List.cons_append, skipDigits, n.digits.isDigit_head]
  simp only [Bool.not_true, Bool.false_eq_true, if_false]
  rw [if_neg hneedless, hdrop, writeTail]
  have hexponent := writeExponent_cases n.exponent hrest
  rcases n.fraction with _ | digits
  · rcases hexponent with hended | ⟨letter, tail, rfl | rfl, hletter, hskip⟩
    · rw [hended]
      rcases hrest.cases with rfl | ⟨c, tail, rfl, hc⟩
      · rfl
      · simp only [List.mem_cons, List.not_mem_nil, or_false] at hc
        rcases hc with rfl | rfl | rfl | rfl | rfl | rfl | rfl <;> rfl
    · rw [hletter]
      exact hskip
    · rw [hletter]
      exact hskip
  · simp only [digits.head?_append, if_true]
    rw [digits.dropWhile_append (noDigit_writeExponent n.exponent hrest)]
    rcases hexponent with hended | ⟨letter, tail, rfl | rfl, hletter, hskip⟩
    · rw [hended]
      rcases hrest.cases with rfl | ⟨c, tail, rfl, hc⟩
      · rfl
      · simp only [List.mem_cons, List.not_mem_nil, or_false] at hc
        rcases hc with rfl | rfl | rfl | rfl | rfl | rfl | rfl <;> rfl
    · rw [hletter]
      exact hskip
    · rw [hletter]
      exact hskip

end Numeral

/-! ### Strings -/

theorem HexDigit.hexValue?_char (d : HexDigit) : hexValue? d.char = some d.value :=
  (Option.some_get d.isHex).symm

theorem readHex4_digits (a b c d : HexDigit) (rest : List Char) :
    readHex4 (a.char :: b.char :: c.char :: d.char :: rest) = .ok (unitValue a b c d, rest) := by
  simp only [readHex4, HexDigit.hexValue?_char, unitValue]

/-- The letter of an escape with digits is no letter that stands alone. -/
theorem escaped_ne {letter : Char} (h : (escaped? letter).isSome = true) : letter ≠ 'u' := by
  rintro rfl
  cases h

theorem skipEscape_short {letter : Char} (h : (escaped? letter).isSome = true) (rest : List Char) :
    skipEscape (letter :: rest) = .ok rest := by
  unfold skipEscape
  split
  · cases ‹_›
  · exact absurd (List.cons.inj ‹_›).1 (escaped_ne h)
  · cases ‹_›
    exact if_pos h

theorem skipStringFrom_writeString (rest : List Char) (pieces : List Piece) {fuel : Nat}
    (hfuel : pieces.length < fuel) : skipStringFrom (writeString rest pieces) fuel = .ok rest := by
  induction pieces generalizing fuel with
  | nil =>
      obtain ⟨fuel, rfl⟩ := Nat.exists_eq_add_one_of_ne_zero (Nat.ne_zero_of_lt hfuel)
      rfl
  | cons piece pieces ih =>
      obtain ⟨fuel, rfl⟩ := Nat.exists_eq_add_one_of_ne_zero (Nat.ne_zero_of_lt hfuel)
      have hlength : pieces.length < fuel := Nat.lt_of_succ_lt_succ hfuel
      cases piece with
      | plain c hprintable hquote hbackslash =>
          simp only [writeString, Piece.write, skipStringFrom]
          rw [if_neg hprintable, ih hlength]
      | short letter h =>
          simp only [writeString, Piece.write, skipStringFrom, skipEscape_short h, ih hlength]
      | unit a b c d =>
          simp only [writeString, Piece.write, skipStringFrom, skipEscape, readHex4_digits, Except.map,
            ih hlength]

theorem pieces_lt_writeString (rest : List Char) (pieces : List Piece) :
    pieces.length < (writeString rest pieces).length := by
  induction pieces with
  | nil => exact Nat.succ_pos _
  | cons piece pieces ih =>
      cases piece <;> simp only [writeString, Piece.write, List.length_cons] <;> omega

theorem skipString_writeString (rest : List Char) (pieces : List Piece) :
    skipString (writeString rest pieces) = .ok rest :=
  skipStringFrom_writeString rest pieces (Nat.lt_succ_of_lt (pieces_lt_writeString rest pieces))

theorem readColon_gap (gap : Gap) (rest : List Char) : readColon (gap.chars ++ ':' :: rest) = .ok rest := by
  rw [readColon, skipSpace_gap]
  rfl

theorem Key.skipKey_write (key : Key) (rest : List Char) : skipKey (key.write rest) = .ok rest := by
  rw [skipKey, write, skipSpace_gap, skipSpace_cons rfl]
  simp only [writeOpened, skipString_writeString, readColon_gap]

/-! ### Values -/

/-- A value starts with a character that ends none. -/
theorem Value.exists_write_eq_cons (v : Value) (rest : List Char) :
    ∃ c tail, v.write rest = c :: tail ∧ isEnd c = false := by
  cases v with
  | bool b => cases b <;> exact ⟨_, _, rfl, rfl⟩
  | number n =>
      rw [write, Numeral.write]
      split
      · exact ⟨_, _, rfl, rfl⟩
      · refine ⟨_, _, rfl, Bool.eq_false_iff.mpr fun hend => ?_⟩
        have hdigit := isDigit_of_isEnd hend
        rw [n.digits.isDigit_head] at hdigit
        cases hdigit
  | _ => exact ⟨_, _, rfl, rfl⟩

theorem Value.skipSpace_write (v : Value) (rest : List Char) : skipSpace (v.write rest) = v.write rest := by
  obtain ⟨c, tail, hwrite, hend⟩ := v.exists_write_eq_cons rest
  rw [isEnd, Bool.or_eq_false_iff, Bool.or_eq_false_iff, Bool.or_eq_false_iff] at hend
  rw [hwrite, skipSpace_cons hend.1.1.1]

/-- After some space, elements start with a character that ends no value. -/
theorem Elements.exists_skipSpace_write (es : Elements) (rest : List Char) :
    ∃ c tail, skipSpace (es.write rest) = c :: tail ∧ isEnd c = false := by
  have hvalue : ∀ (gap : Gap) (v : Value) (rest : List Char),
      ∃ c tail, skipSpace (gap.chars ++ v.write rest) = c :: tail ∧ isEnd c = false := by
    intro gap v rest
    rw [skipSpace_gap, v.skipSpace_write]
    exact v.exists_write_eq_cons rest
  cases es with
  | last before value after => exact hvalue before value _
  | cons before value after es => exact hvalue before value _

mutual

/-- The steps in which a value is skipped. -/
def Value.steps : Value → Nat
  | .null | .bool _ | .number _ | .string _ => 1
  | .emptyArray _ => 2
  | .array elements => elements.steps + 2
  | .emptyObject _ => 2
  | .object members => members.steps + 2

/-- The steps in which elements are skipped, the bracket after them included. -/
def Elements.steps : Elements → Nat
  | .last _ value _ => value.steps + 1
  | .cons _ value _ elements => value.steps + 1 + elements.steps

/-- The steps in which members are skipped, the first key apart and the brace after them included. -/
def Members.steps : Members → Nat
  | .last _ _ value _ => value.steps + 1
  | .cons _ _ value _ members => value.steps + 1 + members.steps

end

theorem skipScalar_number (n : Numeral) {rest : List Char} (hrest : Ended rest) :
    skipScalar (n.write rest) = .ok rest := by
  have hskip := n.skipDigits_writeUnsigned hrest
  rw [Numeral.write]
  split
  · exact hskip
  · have hhead := n.digits.isDigit_head
    rw [Numeral.writeUnsigned, Digits.chars, List.cons_append] at hskip ⊢
    unfold skipScalar
    split
    · cases ‹_›
    all_goals first
      | exact absurd (List.cons.inj ‹_›).1 (isDigit_ne hhead rfl)
      | skip
    cases ‹_›
    rw [if_pos hhead, hskip]

/-- How a value is skipped depends on its first character. -/
theorem skipFrom_value (enclosing : List Enclosing) (cs : List Char) (fuel : Nat) :
    skipFrom enclosing .value cs (fuel + 1) = match skipSpace cs with
      | [] => .error .unfinished
      | '[' :: rest => skipFrom (.array :: enclosing) .first rest fuel
      | '\x7b' :: rest => skipFrom (.object :: enclosing) .first rest fuel
      | cs =>
        match skipScalar cs with
        | .error e => .error e
        | .ok rest => skipFrom enclosing .comma rest fuel := rfl

/-- An array goes on, or ends. -/
theorem skipFrom_inArray (expected : Expected) (hexpected : expected ≠ .value) (enclosing : List Enclosing)
    (cs : List Char) (fuel : Nat) :
    skipFrom (.array :: enclosing) expected cs (fuel + 1) = match skipSpace cs with
      | [] => .error .unfinished
      | c :: rest =>
        if c = ']' then skipFrom enclosing .comma rest fuel
        else if expected = .comma ∧ c ≠ ',' then .error .malformed
        else skipFrom (.array :: enclosing) .value (if expected = .comma then rest else c :: rest) fuel := by
  cases expected with
  | value => exact absurd rfl hexpected
  | _ => rfl

/-- An object goes on, or ends. -/
theorem skipFrom_inObject (expected : Expected) (hexpected : expected ≠ .value) (enclosing : List Enclosing)
    (cs : List Char) (fuel : Nat) :
    skipFrom (.object :: enclosing) expected cs (fuel + 1) = match skipSpace cs with
      | [] => .error .unfinished
      | c :: rest =>
        if c = '\x7d' then skipFrom enclosing .comma rest fuel
        else if expected = .comma ∧ c ≠ ',' then .error .malformed
        else
          match skipKey (if expected = .comma then rest else c :: rest) with
          | .error e => .error e
          | .ok rest => skipFrom (.object :: enclosing) .value rest fuel := by
  cases expected with
  | value => exact absurd rfl hexpected
  | _ => rfl

/-- A value that is no array or object is skipped at once. -/
theorem skipFrom_scalar {enclosing : List Enclosing} {cs rest : List Char} (gap : Gap)
    (hspace : skipSpace cs = cs) (hscalar : skipScalar cs = .ok rest)
    (harray : ∀ tail, cs ≠ '[' :: tail) (hobject : ∀ tail, cs ≠ '\x7b' :: tail) (fuel : Nat) :
    skipFrom enclosing .value (gap.chars ++ cs) (fuel + 1) = skipFrom enclosing .comma rest fuel := by
  rw [skipFrom_value, skipSpace_gap, hspace]
  split
  · cases hscalar
  · exact absurd rfl (harray _)
  · exact absurd rfl (hobject _)
  · rw [hscalar]

/-- Space in front of a value makes no difference. -/
theorem skipFrom_skipSpace (enclosing : List Enclosing) (cs : List Char) (fuel : Nat) :
    skipFrom enclosing .value (skipSpace cs) fuel = skipFrom enclosing .value cs fuel := by
  cases fuel with
  | zero => rfl
  | succ fuel => rw [skipFrom_value, skipFrom_value, skipSpace_skipSpace]

section

variable {enclosing : List Enclosing} {rest : List Char} (gap : Gap) (fuel : Nat)

/-- An array is entered. -/
theorem skipFrom_openArray :
    skipFrom enclosing .value (gap.chars ++ '[' :: rest) (fuel + 1)
      = skipFrom (.array :: enclosing) .first rest fuel := by
  rw [skipFrom_value, skipSpace_gap]
  rfl

/-- An object is entered. -/
theorem skipFrom_openObject :
    skipFrom enclosing .value (gap.chars ++ '\x7b' :: rest) (fuel + 1)
      = skipFrom (.object :: enclosing) .first rest fuel := by
  rw [skipFrom_value, skipSpace_gap]
  rfl

/-- An array ends after its last element. -/
theorem skipFrom_endArray :
    skipFrom (.array :: enclosing) .comma (gap.chars ++ ']' :: rest) (fuel + 1)
      = skipFrom enclosing .comma rest fuel := by
  rw [skipFrom_inArray .comma nofun, skipSpace_gap]
  rfl

/-- An array goes on after a comma. -/
theorem skipFrom_nextElement :
    skipFrom (.array :: enclosing) .comma (gap.chars ++ ',' :: rest) (fuel + 1)
      = skipFrom (.array :: enclosing) .value rest fuel := by
  rw [skipFrom_inArray .comma nofun, skipSpace_gap]
  rfl

/-- An object ends after its last member. -/
theorem skipFrom_endObject :
    skipFrom (.object :: enclosing) .comma (gap.chars ++ '\x7d' :: rest) (fuel + 1)
      = skipFrom enclosing .comma rest fuel := by
  rw [skipFrom_inObject .comma nofun, skipSpace_gap]
  rfl

/-- An array may end at once. -/
theorem skipFrom_emptyArray :
    skipFrom (.array :: enclosing) .first (gap.chars ++ ']' :: rest) (fuel + 1)
      = skipFrom enclosing .comma rest fuel := by
  rw [skipFrom_inArray .first nofun, skipSpace_gap]
  rfl

/-- An object may end at once. -/
theorem skipFrom_emptyObject :
    skipFrom (.object :: enclosing) .first (gap.chars ++ '\x7d' :: rest) (fuel + 1)
      = skipFrom enclosing .comma rest fuel := by
  rw [skipFrom_inObject .first nofun, skipSpace_gap]
  rfl

/-- An object goes on after a comma, with the value behind the next key. -/
theorem skipFrom_nextMember {tail : List Char} (hkey : skipKey rest = .ok tail) :
    skipFrom (.object :: enclosing) .comma (gap.chars ++ ',' :: rest) (fuel + 1)
      = skipFrom (.object :: enclosing) .value tail fuel := by
  rw [skipFrom_inObject .comma nofun, skipSpace_gap]
  show (match skipKey rest with
    | .error e => _
    | .ok rest => _) = _
  rw [hkey]

omit gap in
/-- An array starts with a value. -/
theorem skipFrom_firstElement {cs : List Char} {c : Char} {tail : List Char}
    (hcs : skipSpace cs = c :: tail) (hend : isEnd c = false) :
    skipFrom (.array :: enclosing) .first cs (fuel + 1)
      = skipFrom (.array :: enclosing) .value cs fuel := by
  have hclose : c ≠ ']' := by
    rintro rfl
    cases hend
  rw [← skipFrom_skipSpace _ cs fuel, hcs, skipFrom_inArray .first nofun, hcs]
  show (if c = ']' then _ else if Expected.first = .comma ∧ c ≠ ',' then _ else _) = _
  rw [if_neg hclose, if_neg nofun]
  rfl

omit gap in
/-- An object starts with a key. -/
theorem skipFrom_firstMember (key : Key) :
    skipFrom (.object :: enclosing) .first (key.write rest) (fuel + 1)
      = skipFrom (.object :: enclosing) .value rest fuel := by
  have hkey : skipKey ('"' :: key.writeOpened rest) = .ok rest :=
    Key.skipKey_write ⟨.none, key.pieces, key.after⟩ rest
  rw [skipFrom_inObject .first nofun, Key.write, skipSpace_gap, skipSpace_cons rfl]
  show (match skipKey ('"' :: key.writeOpened rest) with
    | .error e => _
    | .ok rest => _) = _
  rw [hkey]

end

mutual

/-- **Every value is skipped**, wherever it stands. -/
theorem Value.skipFrom_write (v : Value) (enclosing : List Enclosing) (gap : Gap) {rest : List Char}
    (hrest : Ended rest) (fuel : Nat) :
    skipFrom enclosing .value (gap.chars ++ v.write rest) (v.steps + fuel)
      = skipFrom enclosing .comma rest fuel := by
  have hspace := v.skipSpace_write rest
  cases v with
  | null =>
      rw [Value.steps, Nat.add_comm 1 fuel]
      exact skipFrom_scalar gap hspace rfl nofun nofun fuel
  | bool b =>
      rw [Value.steps, Nat.add_comm 1 fuel]
      cases b <;> exact skipFrom_scalar gap hspace rfl nofun nofun fuel
  | number n =>
      rw [Value.steps, Nat.add_comm 1 fuel]
      rw [Value.write] at hspace ⊢
      exact skipFrom_scalar gap hspace (skipScalar_number n hrest) (n.write_ne rfl (by decide) rest)
        (n.write_ne rfl (by decide) rest) fuel
  | string pieces =>
      rw [Value.steps, Nat.add_comm 1 fuel]
      exact skipFrom_scalar gap hspace (skipString_writeString rest pieces) nofun nofun fuel
  | emptyArray inner =>
      rw [Value.steps, Nat.add_comm 2 fuel, Value.write, skipFrom_openArray, skipFrom_emptyArray]
  | array es =>
      obtain ⟨c, tail, hcs, hend⟩ := es.exists_skipSpace_write (']' :: rest)
      rw [Value.steps, Nat.add_right_comm, Value.write, skipFrom_openArray,
        skipFrom_firstElement _ hcs hend, es.skipFrom_write]
  | emptyObject inner =>
      rw [Value.steps, Nat.add_comm 2 fuel, Value.write, skipFrom_openObject, skipFrom_emptyObject]
  | object ms =>
      obtain ⟨key, tail, hwrite, hskip⟩ := ms.skipFrom_write enclosing rest fuel
      rw [Value.steps, Nat.add_right_comm, Value.write, skipFrom_openObject, hwrite,
        skipFrom_firstMember, hskip]

/-- Elements are skipped up to the end of their array. -/
theorem Elements.skipFrom_write (es : Elements) (enclosing : List Enclosing) (rest : List Char)
    (fuel : Nat) :
    skipFrom (.array :: enclosing) .value (es.write (']' :: rest)) (es.steps + fuel)
      = skipFrom enclosing .comma rest fuel := by
  cases es with
  | last before value after =>
      rw [Elements.write, Elements.steps, Nat.add_assoc, Nat.add_comm 1 fuel,
        value.skipFrom_write _ before (after.ended (ended_cons rfl _)), skipFrom_endArray]
  | cons before value after es =>
      rw [Elements.write, Elements.steps, Nat.add_assoc, Nat.add_assoc, Nat.add_comm 1,
        value.skipFrom_write _ before (after.ended (ended_cons rfl _)), skipFrom_nextElement,
        es.skipFrom_write]

/-- Members are skipped up to the end of their object. -/
theorem Members.skipFrom_write (ms : Members) (enclosing : List Enclosing) (rest : List Char)
    (fuel : Nat) :
    ∃ key tail, ms.write ('\x7d' :: rest) = Key.write key tail
      ∧ skipFrom (.object :: enclosing) .value tail (ms.steps + fuel)
        = skipFrom enclosing .comma rest fuel := by
  cases ms with
  | last key before value after =>
      refine ⟨key, _, rfl, ?_⟩
      rw [Members.steps, Nat.add_assoc, Nat.add_comm 1 fuel,
        value.skipFrom_write _ before (after.ended (ended_cons rfl _)), skipFrom_endObject]
  | cons key before value after ms =>
      obtain ⟨key', tail, hwrite, hskip⟩ := ms.skipFrom_write enclosing rest fuel
      refine ⟨key, _, rfl, ?_⟩
      rw [Members.steps, Nat.add_assoc, Nat.add_assoc, Nat.add_comm 1,
        value.skipFrom_write _ before (after.ended (ended_cons rfl _)), hwrite,
        skipFrom_nextMember _ _ (key'.skipKey_write tail), hskip]

end

/-! ### Steps and characters -/

theorem length_lt_writeString (rest : List Char) (pieces : List Piece) :
    rest.length < (writeString rest pieces).length := by
  induction pieces with
  | nil => exact Nat.lt_succ_self _
  | cons piece pieces ih =>
      cases piece <;> simp only [writeString, Piece.write, List.length_cons] <;> omega

theorem Exponent.length_lt_write (e : Exponent) (rest : List Char) :
    rest.length < (e.write rest).length := by
  simp only [write, List.length_cons, List.length_append]
  omega

theorem Numeral.length_le_writeTail (n : Numeral) (rest : List Char) :
    rest.length ≤ (n.writeTail rest).length := by
  have hexponent : rest.length ≤ (writeExponent n.exponent rest).length := by
    cases n.exponent with
    | none => exact Nat.le_refl _
    | some e => exact Nat.le_of_lt (e.length_lt_write rest)
  rw [writeTail]
  split
  · exact hexponent
  · rw [List.length_cons, List.length_append]
    omega

theorem Numeral.length_lt_write (n : Numeral) (rest : List Char) :
    rest.length < (n.write rest).length := by
  have htail := n.length_le_writeTail rest
  rw [write]
  split <;> simp only [writeUnsigned, Digits.chars, List.length_cons, List.length_append] <;> omega

theorem Key.length_lt_write (key : Key) (rest : List Char) :
    rest.length < (key.write rest).length := by
  have hopened := length_lt_writeString (key.after.chars ++ ':' :: rest) key.pieces
  simp only [write, writeOpened, List.length_append, List.length_cons] at hopened ⊢
  omega

mutual

/-- Every two steps take a character. -/
theorem Value.steps_lt (v : Value) (rest : List Char) :
    v.steps + 2 * rest.length < 2 * (v.write rest).length := by
  cases v with
  | null => simp only [Value.steps, Value.write, List.length_cons]; omega
  | bool b => cases b <;> simp only [Value.steps, Value.write, List.length_cons] <;> omega
  | number n =>
      have hlength := n.length_lt_write rest
      rw [Value.steps, Value.write]
      omega
  | string pieces =>
      have hlength := length_lt_writeString rest pieces
      rw [Value.steps, Value.write, List.length_cons]
      omega
  | emptyArray gap =>
      simp only [Value.steps, Value.write, List.length_cons, List.length_append]
      omega
  | array es =>
      have hsteps := es.steps_le (']' :: rest)
      rw [List.length_cons] at hsteps
      rw [Value.steps, Value.write, List.length_cons]
      omega
  | emptyObject gap =>
      simp only [Value.steps, Value.write, List.length_cons, List.length_append]
      omega
  | object ms =>
      have hsteps := ms.steps_le ('\x7d' :: rest)
      rw [List.length_cons] at hsteps
      rw [Value.steps, Value.write, List.length_cons]
      omega

theorem Elements.steps_le (es : Elements) (rest : List Char) :
    es.steps + 2 * rest.length ≤ 2 * (es.write rest).length := by
  cases es with
  | last before value after =>
      have hsteps := value.steps_lt (after.chars ++ rest)
      rw [List.length_append] at hsteps
      rw [Elements.steps, Elements.write, List.length_append]
      omega
  | cons before value after es =>
      have hfirst := value.steps_lt (after.chars ++ ',' :: es.write rest)
      have hsteps := es.steps_le rest
      rw [List.length_append, List.length_cons] at hfirst
      rw [Elements.steps, Elements.write, List.length_append]
      omega

theorem Members.steps_le (ms : Members) (rest : List Char) :
    ms.steps + 2 * rest.length ≤ 2 * (ms.write rest).length := by
  cases ms with
  | last key before value after =>
      have hsteps := value.steps_lt (after.chars ++ rest)
      have hkey := key.length_lt_write (before.chars ++ value.write (after.chars ++ rest))
      rw [List.length_append] at hsteps hkey
      rw [Members.steps, Members.write]
      omega
  | cons key before value after ms =>
      have hfirst := value.steps_lt (after.chars ++ ',' :: ms.write rest)
      have hsteps := ms.steps_le rest
      have hkey := key.length_lt_write (before.chars ++ value.write (after.chars ++ ',' :: ms.write rest))
      rw [List.length_append, List.length_cons] at hfirst
      rw [List.length_append] at hkey
      rw [Members.steps, Members.write]
      omega

end

/-- **Any value is skipped**, and nothing of the rest. -/
theorem Value.skipValue_write (v : Value) (gap : Gap) {rest : List Char} (hrest : Ended rest) :
    skipValue (gap.chars ++ v.write rest) = .ok rest := by
  have hsteps := v.steps_lt rest
  have hfuel : 2 * (gap.chars ++ v.write rest).length + 2
      = v.steps + (2 * (gap.chars ++ v.write rest).length + 1 - v.steps + 1) := by
    rw [List.length_append]
    omega
  rw [skipValue, hfuel, v.skipFrom_write [] gap hrest]
  rfl

end SharedDictionary.Json
