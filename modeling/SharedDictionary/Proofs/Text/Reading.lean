import SharedDictionary.Proofs.Text.Skipping

/-!
# Reading values of a wanted kind

A reader that wants a whole number, a truth value or an array takes the value that stands in front of the
rest of a text, if it is of that kind, and fails otherwise (`Json.Reads`).  Numbers that are written with a
fraction or an exponent are no whole numbers, and neither are those that 64 bits do not hold.
-/

namespace SharedDictionary.Json

/-- What is read is a value in front of the rest of a text; if there is none, reading fails. -/
def Reads {α : Type} (outcome : Reading α) (value? : Option α) (rest : List Char) : Prop :=
  match value? with
  | some value => outcome = .ok (value, rest)
  | none => ∃ e, outcome = .error e

namespace Reads

variable {α β : Type} {outcome : Reading α} {value? : Option α} {rest : List Char}

theorem map (f : α → β) (h : Reads outcome value? rest) :
    Reads (outcome.map fun (value, rest) => (f value, rest)) (value?.map f) rest := by
  cases value? with
  | some value => exact congrArg (Except.map _) h
  | none =>
      obtain ⟨e, h⟩ := h
      exact ⟨e, congrArg (Except.map _) h⟩

theorem fails (e : Failure) : Reads (.error e : Reading α) none rest := ⟨e, rfl⟩

end Reads

/-! ### Strings -/

theorem readEscape_short {letter : Char} (h : (escaped? letter).isSome = true) (rest : List Char) :
    readEscape (letter :: rest) = .ok ((escaped? letter).get h, rest) := by
  unfold readEscape
  split
  · cases ‹_›
  · exact absurd (List.cons.inj ‹_›).1 (escaped_ne h)
  · cases ‹_›
    obtain ⟨c, hc⟩ := Option.isSome_iff_exists.mp h
    simp only [hc, Option.get_some]

/-- A second half of a pair is wanted, and there is none. -/
theorem readTrailing_fails (lead : Nat) (rest : List Char) (pieces : List Piece)
    (hpieces : ∀ a b c d tail, pieces = .unit a b c d :: tail → isTrailing (unitValue a b c d) = false) :
    ∃ e, readTrailing lead (writeString rest pieces) = .error e := by
  rcases pieces with _ | ⟨piece, pieces⟩
  · exact ⟨_, rfl⟩
  · cases piece with
    | plain c hprintable hquote hbackslash =>
        refine ⟨.malformed, ?_⟩
        simp only [writeString, Piece.write, readTrailing]
    | short letter h =>
        refine ⟨.malformed, ?_⟩
        have hne := escaped_ne h
        simp only [writeString, Piece.write, readTrailing]
    | unit a b c d =>
        refine ⟨.malformed, ?_⟩
        have htrail := hpieces a b c d pieces rfl
        simp only [writeString, Piece.write, readTrailing, readHex4_digits, htrail, Bool.false_eq_true,
          if_false]

/-- Characters that are known are put in front of those that follow. -/
theorem map_cons_known (known : List Char) (c : Char) (value? : Option (List Char)) :
    (value?.map (c :: ·)).map (fun cs => String.ofList (known.reverse ++ cs))
      = value?.map fun cs => String.ofList ((c :: known).reverse ++ cs) := by
  rw [Option.map_map]
  refine congrFun (congrArg Option.map (funext fun cs => ?_)) value?
  rw [List.reverse_cons, List.append_assoc]
  rfl

/-- **A string is read as the characters that it stands for**, if there are any. -/
theorem readStringFrom_writeString (rest : List Char) (pieces : List Piece) (known : List Char)
    {fuel : Nat} (hfuel : pieces.length < fuel) :
    Reads (readStringFrom known (writeString rest pieces) fuel)
      ((decode? pieces).map fun cs => String.ofList (known.reverse ++ cs)) rest := by
  -- A pair of surrogates takes two parts of the string at once, as `decode?` does.
  fun_induction decode? pieces generalizing known fuel
  all_goals obtain ⟨fuel, rfl⟩ := Nat.exists_eq_add_one_of_ne_zero (Nat.ne_zero_of_lt hfuel)
  case case1 =>
    rw [Option.map_some, List.append_nil]
    exact rfl
  case case2 c hprintable hquote hbackslash pieces ih =>
    rw [map_cons_known]
    simp only [writeString, Piece.write, readStringFrom, if_neg hprintable]
    exact ih (c :: known) (Nat.lt_of_succ_lt_succ hfuel)
  case case3 letter h pieces ih =>
    rw [map_cons_known]
    simp only [writeString, Piece.write, readStringFrom, readEscape_short h]
    exact ih _ (Nat.lt_of_succ_lt_succ hfuel)
  case case4 a b c d pieces htrailing =>
    refine ⟨.malformed, ?_⟩
    simp only [writeString, Piece.write, readStringFrom, readEscape, readUnicode, readHex4_digits,
      if_pos htrailing]
  case case5 a b c d htrailing hleading a' b' c' d' pieces htrail ih =>
    rw [map_cons_known]
    simp only [writeString, Piece.write, readStringFrom, readEscape, readUnicode, readHex4_digits,
      if_neg htrailing, if_pos hleading, readTrailing, if_pos htrail]
    refine ih _ ?_
    simp only [List.length_cons] at hfuel
    omega
  case case6 a b c d htrailing hleading a' b' c' d' pieces htrail =>
    obtain ⟨e, he⟩ := readTrailing_fails (unitValue a b c d) rest (.unit a' b' c' d' :: pieces)
      fun _ _ _ _ _ heq => by
        cases heq
        exact Bool.eq_false_iff.mpr htrail
    refine ⟨e, ?_⟩
    rw [writeString, Piece.write]
    simp only [readStringFrom, readEscape, readUnicode, readHex4_digits, if_neg htrailing,
      if_pos hleading, he]
  case case7 a b c d pieces htrailing hleading hpieces =>
    obtain ⟨e, he⟩ := readTrailing_fails (unitValue a b c d) rest pieces fun _ _ _ _ _ heq =>
      (hpieces _ _ _ _ _ heq).elim
    refine ⟨e, ?_⟩
    rw [writeString, Piece.write]
    simp only [readStringFrom, readEscape, readUnicode, readHex4_digits, if_neg htrailing,
      if_pos hleading, he]
  case case8 a b c d pieces htrailing hleading ih =>
    rw [map_cons_known]
    simp only [writeString, Piece.write, readStringFrom, readEscape, readUnicode, readHex4_digits,
      if_neg htrailing, if_neg hleading]
    exact ih _ (Nat.lt_of_succ_lt_succ hfuel)

theorem readString_writeString (rest : List Char) (pieces : List Piece) :
    Reads (readString (writeString rest pieces)) ((decode? pieces).map String.ofList) rest :=
  readStringFrom_writeString rest pieces [] (Nat.lt_succ_of_lt (pieces_lt_writeString rest pieces))

/-! ### Numbers -/

theorem le_foldl_digits (digits : List Char) (n : Nat) :
    n ≤ digits.foldl (fun n c => n * 10 + digitValue c) n := by
  induction digits generalizing n with
  | nil => exact Nat.le_refl n
  | cons d digits ih =>
      have hgrown := ih (n * 10 + digitValue d)
      rw [List.foldl_cons]
      omega

/-- All digits are appended if 64 bits hold the number that they stand for. -/
theorem appendDigits_of_lt (digits : List Char) (n : Nat)
    (h : digits.foldl (fun n c => n * 10 + digitValue c) n < 2 ^ 64) :
    appendDigits n digits = (digits.foldl (fun n c => n * 10 + digitValue c) n, digits.length) := by
  induction digits generalizing n with
  | nil => rfl
  | cons d digits ih =>
      rw [List.foldl_cons] at h ⊢
      have hgrown := le_foldl_digits digits (n * 10 + digitValue d)
      have hlimit : ¬significandLimit ≤ n * 10 + digitValue d := by
        rw [significandLimit]
        omega
      rw [appendDigits]
      simp only [if_neg hlimit, ih _ h, List.length_cons]

/-- Not all digits are appended if 64 bits do not hold the number that they stand for. -/
theorem appendDigits_of_le (digits : List Char) (n : Nat) (hn : n < 2 ^ 64)
    (h : 2 ^ 64 ≤ digits.foldl (fun n c => n * 10 + digitValue c) n) :
    (appendDigits n digits).2 < digits.length := by
  induction digits generalizing n with
  | nil => exact absurd hn (Nat.not_lt.mpr h)
  | cons d digits ih =>
      rw [List.foldl_cons] at h
      rw [appendDigits]
      simp only
      split
      · exact Nat.succ_pos _
      · refine Nat.succ_lt_succ (ih _ ?_ h)
        rw [significandLimit] at *
        omega

/-- What is read is no whole number. -/
def NotWhole (outcome : Reading Number) : Prop := ∀ value rest, outcome ≠ .ok (.whole value, rest)

theorem notWhole_inRange (significand : Nat) (exponent : Int) (rest : List Char) :
    NotWhole (inRange significand exponent rest) := by
  intro value rest'
  rw [inRange]
  split <;> exact nofun

theorem notWhole_readExponent (significand : Nat) (before : Int) (cs : List Char) :
    NotWhole (readExponent significand before cs) := by
  intro value rest
  unfold readExponent
  simp only
  repeat' split
  all_goals first
    | exact notWhole_inRange _ _ _ value rest
    | exact nofun

theorem notWhole_readOptionalExponent (significand : Nat) (before : Int) (cs : List Char) :
    NotWhole (readOptionalExponent significand before cs) := by
  unfold readOptionalExponent
  split
  · exact notWhole_readExponent _ _ _
  · exact notWhole_readExponent _ _ _
  · exact notWhole_inRange _ _ _

theorem notWhole_readFraction (significand : Nat) (before : Int) (cs : List Char) :
    NotWhole (readFraction significand before cs) := by
  intro value rest
  rw [readFraction]
  simp only
  split
  · split <;> exact nofun
  · exact notWhole_readOptionalExponent _ _ _ value rest

/-- A number whose digits are read, and what follows them is not. -/
def afterDigits (negative : Bool) (significand dropped : Nat) (cs : List Char) : Reading Number :=
  match cs with
  | '.' :: rest => readFraction significand dropped rest
  | 'e' :: rest => readExponent significand dropped rest
  | 'E' :: rest => readExponent significand dropped rest
  | rest =>
    if dropped ≠ 0 then inRange significand dropped rest
    else if !negative then .ok (.whole significand, rest)
    else if significand = 0 ∨ 2 ^ 63 < significand then .ok (.other, rest)
    else .ok (.whole (-significand), rest)

/-- The number ends after its digits. -/
theorem afterDigits_of_ended (negative : Bool) (significand dropped : Nat) {rest : List Char}
    (hrest : Ended rest) :
    afterDigits negative significand dropped rest
      = if dropped ≠ 0 then inRange significand dropped rest
        else if !negative then .ok (.whole significand, rest)
        else if significand = 0 ∨ 2 ^ 63 < significand then .ok (.other, rest)
        else .ok (.whole (-significand), rest) := by
  rcases hrest.cases with rfl | ⟨c, tail, rfl, hc⟩
  · rfl
  · simp only [List.mem_cons, List.not_mem_nil, or_false] at hc
    rcases hc with rfl | rfl | rfl | rfl | rfl | rfl | rfl <;> rfl

namespace Numeral

variable (n : Numeral) {rest : List Char}

/-- The digits of a numeral are read first; what follows them decides on the kind of number. -/
theorem readDigits_writeUnsigned (negative : Bool) (hrest : Ended rest) :
    readDigits negative (n.writeUnsigned rest)
      = afterDigits negative (appendDigits 0 n.digits.chars).1
        (n.digits.chars.length - (appendDigits 0 n.digits.chars).2) (n.writeTail rest) := by
  have hneedless := n.not_needlessZero hrest
  have htail := n.noDigit_writeTail hrest
  have htake := n.digits.takeWhile_append htail
  have hdrop := n.digits.dropWhile_append htail
  rw [Digits.chars, List.cons_append] at htake hdrop
  rw [writeUnsigned, Digits.chars, List.cons_append, readDigits, n.digits.isDigit_head, htake, hdrop]
  simp only [Bool.not_true, Bool.false_eq_true, if_false]
  rw [if_neg hneedless]
  rfl

/-- A numeral with a fraction or an exponent is no whole number. -/
theorem notWhole_afterDigits (negative : Bool) (significand dropped : Nat)
    (hmarked : n.fraction.isSome = true ∨ n.exponent.isSome = true) :
    NotWhole (afterDigits negative significand dropped (n.writeTail rest)) := by
  rw [writeTail]
  rcases hfraction : n.fraction with _ | digits
  · rcases hexponent : n.exponent with _ | ⟨letter, sign, digits, rfl | rfl, hsign⟩
    · rw [hfraction, hexponent] at hmarked
      rcases hmarked with h | h <;> cases h
    · exact notWhole_readExponent _ _ _
    · exact notWhole_readExponent _ _ _
  · exact notWhole_readFraction _ _ _

/-- A numeral without a fraction and an exponent is read as a number if 64 bits hold it. -/
theorem readDigits_eq (negative : Bool) (hrest : Ended rest) (hfraction : n.fraction = none)
    (hexponent : n.exponent = none) (hvalue : n.digits.value < 2 ^ 64) :
    readDigits negative (n.writeUnsigned rest)
      = if !negative then .ok (.whole n.digits.value, rest)
        else if n.digits.value = 0 ∨ 2 ^ 63 < n.digits.value then .ok (.other, rest)
        else .ok (.whole (-n.digits.value), rest) := by
  rw [n.readDigits_writeUnsigned negative hrest, appendDigits_of_lt _ _ hvalue, writeTail, hfraction,
    hexponent, Nat.sub_self]
  exact afterDigits_of_ended negative _ 0 hrest

/-- A number that 64 bits do not hold is kept as no whole number. -/
theorem notWhole_readDigits (negative : Bool) (hrest : Ended rest) (hvalue : 2 ^ 64 ≤ n.digits.value) :
    NotWhole (readDigits negative (n.writeUnsigned rest)) := by
  rw [n.readDigits_writeUnsigned negative hrest]
  by_cases hmarked : n.fraction.isSome = true ∨ n.exponent.isSome = true
  · exact n.notWhole_afterDigits negative _ _ hmarked
  · rw [not_or, Option.not_isSome_iff_eq_none, Option.not_isSome_iff_eq_none] at hmarked
    have hdropped := appendDigits_of_le n.digits.chars 0 (by decide) hvalue
    rw [writeTail, hmarked.1, hmarked.2]
    simp only [writeExponent]
    rw [afterDigits_of_ended _ _ _ hrest, if_pos (Nat.sub_ne_zero_of_lt hdropped)]
    exact notWhole_inRange _ _ _

theorem readNumber_write (rest : List Char) :
    readNumber (n.write rest) = readDigits n.negative (n.writeUnsigned rest) := by
  rw [write]
  cases n.negative with
  | true => rfl
  | false =>
      have hminus : n.digits.head ≠ '-' := isDigit_ne n.digits.isDigit_head rfl
      rw [if_neg Bool.false_ne_true, writeUnsigned, Digits.chars, List.cons_append]
      unfold readNumber
      split
      · exact absurd (List.cons.inj ‹_›).1 hminus
      · rfl

theorem whole?_eq_some {n : Numeral} {value : Int} (h : n.whole? = some value) :
    n.fraction = none ∧ n.exponent = none
      ∧ (n.negative = true ∧ n.digits.value ≠ 0 ∧ value = -n.digits.value
        ∨ n.negative = false ∧ value = n.digits.value) := by
  rw [whole?] at h
  split at h
  · refine ⟨‹_›, ‹_›, ?_⟩
    split at h
    · split at h
      · cases h
      · exact .inl ⟨‹_›, ‹_›, (Option.some.inj h).symm⟩
    · exact .inr ⟨Bool.eq_false_iff.mpr ‹_›, (Option.some.inj h).symm⟩
  · cases h

/-- A whole number that 64 bits hold is read. -/
theorem readNumber_of_whole? {value : Int} (h : n.whole? = some value) (hlow : -2 ^ 63 ≤ value)
    (hhigh : value < 2 ^ 64) (hrest : Ended rest) :
    readNumber (n.write rest) = .ok (.whole value, rest) := by
  obtain ⟨hfraction, hexponent, ⟨hnegative, hne, rfl⟩ | ⟨hnegative, rfl⟩⟩ := whole?_eq_some h
  · have hvalue : ¬(n.digits.value = 0 ∨ 2 ^ 63 < n.digits.value) := by omega
    rw [readNumber_write, n.readDigits_eq _ hrest hfraction hexponent (by omega), hnegative,
      if_neg (by decide), if_neg hvalue]
  · rw [readNumber_write, n.readDigits_eq _ hrest hfraction hexponent (by omega), hnegative,
      if_pos (by decide)]

/-- What is read as a whole number stands for it. -/
theorem whole?_of_readNumber {value : Int} {tail : List Char} (hrest : Ended rest)
    (h : readNumber (n.write rest) = .ok (.whole value, tail)) : n.whole? = some value ∧ tail = rest := by
  rw [readNumber_write] at h
  by_cases hvalue : n.digits.value < 2 ^ 64
  · cases hfraction : n.fraction with
    | some digits =>
        rw [n.readDigits_writeUnsigned _ hrest] at h
        exact absurd h (n.notWhole_afterDigits _ _ _ (.inl (hfraction ▸ rfl)) _ _)
    | none =>
        cases hexponent : n.exponent with
        | some e =>
            rw [n.readDigits_writeUnsigned _ hrest] at h
            exact absurd h (n.notWhole_afterDigits _ _ _ (.inr (hexponent ▸ rfl)) _ _)
        | none =>
            rw [n.readDigits_eq _ hrest hfraction hexponent hvalue] at h
            rw [whole?, hfraction, hexponent]
            cases hnegative : n.negative with
            | false =>
                rw [hnegative] at h
                cases h
                exact ⟨rfl, rfl⟩
            | true =>
                rw [hnegative, if_neg (by decide)] at h
                by_cases hother : n.digits.value = 0 ∨ 2 ^ 63 < n.digits.value
                · rw [if_pos hother] at h
                  cases h
                · rw [if_neg hother] at h
                  cases h
                  exact ⟨(if_pos rfl).trans (if_neg (not_or.mp hother).1), rfl⟩
  · exact absurd h (n.notWhole_readDigits _ hrest (Nat.not_lt.mp hvalue) _ _)

end Numeral

/-! ### Values of a wanted kind -/

namespace Value

/-- The whole number between two bounds that a value is. -/
def wholeBetween? (low high : Int) : Value → Option Int
  | .number n => n.whole?.filter fun value => low ≤ value ∧ value ≤ high
  | _ => none

/-- The truth value that a value is. -/
def bool? : Value → Option Bool
  | .bool b => some b
  | _ => none

/-- The values in an array. -/
def elements? : Value → Option (List Value)
  | .emptyArray _ => some []
  | .array es => some es.toList
  | _ => none

end Value

/-- A value that is no number does not start as one. -/
theorem Value.exists_write_of_not_number (v : Value) (hv : ∀ n, v ≠ .number n) (rest : List Char) :
    ∃ c tail, v.write rest = c :: tail ∧ ¬(c = '-' ∨ isDigit c = true) := by
  cases v with
  | number n => exact absurd rfl (hv n)
  | bool b => cases b <;> exact ⟨_, _, rfl, by decide⟩
  | _ => exact ⟨_, _, rfl, by decide⟩

theorem Numeral.exists_write (n : Numeral) (rest : List Char) :
    ∃ c tail, n.write rest = c :: tail ∧ (c = '-' ∨ isDigit c = true) := by
  rw [write]
  split
  · exact ⟨_, _, rfl, .inl rfl⟩
  · exact ⟨_, _, rfl, .inr n.digits.isDigit_head⟩

/-- **A whole number is read if it lies between the bounds**; nothing else is. -/
theorem Value.readWhole_write (v : Value) {low high : Int} (hlow : -2 ^ 63 ≤ low) (hhigh : high < 2 ^ 64)
    (gap : Gap) {rest : List Char} (hrest : Ended rest) :
    Reads (readWhole low high (gap.chars ++ v.write rest)) (v.wholeBetween? low high) rest := by
  rw [readWhole, skipSpace_gap, v.skipSpace_write]
  by_cases hv : ∃ n, v = .number n
  · obtain ⟨n, rfl⟩ := hv
    obtain ⟨c, tail, hwrite, hc⟩ := n.exists_write rest
    rw [write, hwrite]
    simp only [if_pos hc]
    rw [← hwrite, wholeBetween?]
    cases hwhole : n.whole? with
    | none =>
        rcases hread : readNumber (n.write rest) with e | ⟨⟨value⟩ | _, tail⟩
        · exact ⟨e, rfl⟩
        · have hsome := (n.whole?_of_readNumber hrest hread).1
          rw [hwhole] at hsome
          cases hsome
        · exact ⟨.unfit, rfl⟩
    | some value =>
        by_cases hbetween : low ≤ value ∧ value ≤ high
        · rw [n.readNumber_of_whole? hwhole (by omega) (by omega) hrest]
          simp only [if_pos hbetween]
          rw [Option.filter_some, if_pos (decide_eq_true hbetween)]
          exact rfl
        · rw [Option.filter_some, if_neg (by simpa using hbetween)]
          rcases hread : readNumber (n.write rest) with e | ⟨⟨found⟩ | _, tail⟩
          · exact ⟨e, rfl⟩
          · have hfound := (n.whole?_of_readNumber hrest hread).1
            rw [hwhole] at hfound
            cases hfound
            exact ⟨.unfit, if_neg hbetween⟩
          · exact ⟨.unfit, rfl⟩
  · obtain ⟨c, tail, hwrite, hc⟩ := v.exists_write_of_not_number (fun n h => hv ⟨n, h⟩) rest
    rw [hwrite]
    simp only [if_neg hc]
    have hnone : v.wholeBetween? low high = none := by
      cases v with
      | number n => exact absurd ⟨n, rfl⟩ hv
      | _ => rfl
    rw [hnone]
    exact .fails _

theorem Value.readBool_write (v : Value) (gap : Gap) (rest : List Char) :
    Reads (readBool (gap.chars ++ v.write rest)) v.bool? rest := by
  rw [readBool, skipSpace_gap, v.skipSpace_write]
  cases v with
  | bool b => cases b <;> exact rfl
  | number n =>
      rw [write]
      split
      · exact absurd ‹_› (n.write_ne rfl (by decide) rest _)
      · exact absurd ‹_› (n.write_ne rfl (by decide) rest _)
      · exact .fails _
  | _ => exact .fails _

/-! ### Arrays -/

theorem nextElement_first {cs : List Char} {c : Char} {tail : List Char}
    (hcs : skipSpace cs = c :: tail) (hend : isEnd c = false) :
    nextElement true cs = .ok (some (c :: tail)) := by
  have hclose : c ≠ ']' := by
    rintro rfl
    cases hend
  simp only [nextElement, hcs, if_true]

theorem nextElement_comma (gap : Gap) {cs : List Char} {c : Char} {tail : List Char}
    (hcs : skipSpace cs = c :: tail) (hend : isEnd c = false) :
    nextElement false (gap.chars ++ ',' :: cs) = .ok (some (c :: tail)) := by
  have hclose : c ≠ ']' := by
    rintro rfl
    cases hend
  have hcomma : skipSpace (gap.chars ++ ',' :: cs) = ',' :: cs := by rw [skipSpace_gap, skipSpace_cons rfl]
  simp [nextElement, hcomma, hcs, hclose]

theorem nextElement_end (first : Bool) (gap : Gap) (rest : List Char) :
    nextElement first (gap.chars ++ ']' :: rest) = .ok none := by
  rw [nextElement, skipSpace_gap]
  rfl

theorem endArray_gap (gap : Gap) (rest : List Char) : endArray (gap.chars ++ ']' :: rest) = .ok rest := by
  rw [endArray, skipSpace_gap]
  rfl

section Arrays

variable {α : Type} {element : List Char → Reading α} {take? : Value → Option α}

/-- An element that was looked for is read, or it is none that is wanted. -/
theorem readElements_value
    (helement : ∀ (v : Value) (rest : List Char), Ended rest → Reads (element (v.write rest)) (take? v) rest)
    {v : Value} {first : Bool} {cs : List Char} {rest : List Char} (hrest : Ended rest)
    (hnext : nextElement first cs = .ok (some (v.write rest))) (known : List α) (fuel : Nat) :
    match take? v with
    | some value =>
      readElements element first known cs (fuel + 1) = readElements element false (value :: known) rest fuel
    | none => ∃ e, readElements element first known cs (fuel + 1) = .error e := by
  have hread := helement v rest hrest
  cases htake : take? v with
  | none =>
      rw [htake] at hread
      obtain ⟨e, he⟩ := hread
      exact ⟨e, by simp only [readElements, hnext, he]⟩
  | some value =>
      rw [htake] at hread
      have hvalue : element (v.write rest) = .ok (value, rest) := hread
      simp only [readElements, hnext, hvalue]

/-- Elements are read up to the end of their array, if all of them are wanted. -/
theorem readElements_write
    (helement : ∀ (v : Value) (rest : List Char), Ended rest → Reads (element (v.write rest)) (take? v) rest)
    (es : Elements) {first : Bool} {cs : List Char} {rest : List Char}
    (hnext : nextElement first cs = .ok (some (skipSpace (es.write (']' :: rest))))) (known : List α)
    {fuel : Nat} (hfuel : es.toList.length < fuel) :
    Reads (readElements element first known cs fuel) ((es.toList.mapM take?).map (known.reverse ++ ·))
      rest := by
  obtain ⟨fuel, rfl⟩ := Nat.exists_eq_add_one_of_ne_zero (Nat.ne_zero_of_lt hfuel)
  cases es with
  | last before v after =>
      obtain ⟨fuel, rfl⟩ := Nat.exists_eq_add_one_of_ne_zero
        (Nat.ne_zero_of_lt (Nat.lt_of_succ_lt_succ hfuel))
      rw [Elements.write, skipSpace_gap, v.skipSpace_write] at hnext
      have hread := readElements_value helement (after.ended (ended_cons rfl rest)) hnext known (fuel + 1)
      rw [Elements.toList, List.mapM_cons, List.mapM_nil]
      cases htake : take? v with
      | none =>
          rw [htake] at hread
          exact hread
      | some value =>
          rw [htake] at hread
          refine hread.trans ?_
          rw [readElements, nextElement_end]
          simp only [endArray_gap]
          exact congrArg (fun values => Except.ok (values, rest)) List.reverse_cons
  | cons before v after es =>
      rw [Elements.write, skipSpace_gap, v.skipSpace_write] at hnext
      have hread := readElements_value helement (after.ended (ended_cons rfl _)) hnext known fuel
      rw [Elements.toList, List.mapM_cons]
      cases htake : take? v with
      | none =>
          rw [htake] at hread
          exact hread
      | some value =>
          rw [htake] at hread
          obtain ⟨c, tail, hcs, hend⟩ := es.exists_skipSpace_write (']' :: rest)
          have hrest := readElements_write helement es
            ((nextElement_comma after hcs hend).trans (by rw [hcs])) (value :: known)
            (Nat.lt_of_succ_lt_succ hfuel)
          rw [← hread] at hrest
          cases hmap : es.toList.mapM take? with
          | none =>
              rw [hmap] at hrest
              exact hrest
          | some values =>
              rw [hmap, Option.map_some, List.reverse_cons, List.append_assoc] at hrest
              exact hrest

/-- Every element takes a character. -/
theorem Elements.length_le_write (es : Elements) (rest : List Char) :
    es.toList.length + rest.length ≤ (es.write rest).length := by
  cases es with
  | last before v after =>
      have hvalue := v.steps_lt (after.chars ++ rest)
      rw [List.length_append] at hvalue
      rw [toList, write, List.length_append, List.length_singleton]
      omega
  | cons before v after es =>
      have hvalue := v.steps_lt (after.chars ++ ',' :: es.write rest)
      have hrest := es.length_le_write rest
      rw [List.length_append, List.length_cons] at hvalue
      rw [toList, write, List.length_append, List.length_cons]
      omega

/-- **An array is read if all of its elements are wanted**; nothing else is. -/
theorem Value.readArray_write
    (helement : ∀ (v : Value) (rest : List Char), Ended rest → Reads (element (v.write rest)) (take? v) rest)
    (v : Value) (gap : Gap) (rest : List Char) :
    Reads (readArray element (gap.chars ++ v.write rest)) (v.elements?.bind (·.mapM take?)) rest := by
  rw [readArray, skipSpace_gap, v.skipSpace_write]
  cases v with
  | emptyArray inner =>
      simp only [write, readElements, nextElement_end, endArray_gap]
      exact rfl
  | array es =>
      obtain ⟨c, tail, hcs, hend⟩ := es.exists_skipSpace_write (']' :: rest)
      have hread := readElements_write helement es
        ((nextElement_first hcs hend).trans (by rw [hcs])) []
        (Nat.lt_succ_of_le (Nat.le_of_add_right_le (es.length_le_write (']' :: rest))))
      rw [elements?, Option.bind_some]
      rwa [show (fun values : List α => [].reverse ++ values) = id from rfl, Option.map_id] at hread
  | number n =>
      rw [write]
      split
      · exact absurd ‹_› (n.write_ne rfl (by decide) rest _)
      · exact .fails _
  | bool b => cases b <;> exact .fails _
  | _ => exact .fails _

end Arrays

end SharedDictionary.Json
