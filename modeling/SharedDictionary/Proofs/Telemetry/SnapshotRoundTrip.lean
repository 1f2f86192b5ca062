import SharedDictionary.Proofs.Telemetry.SnapshotReading

/-!
# Snapshots come back from their texts

The text of a snapshot is one of the documents that denote it: it has the members in their order, without any
space, and every number in its shortest decimal form.  So it is read back, and so is every other document that
denotes the snapshot; all others are refused or are those of another snapshot.  The main result is
`Snapshot.parse_json`.
-/

namespace SharedDictionary

open SharedDictionary.Json

namespace Json

/-! ### Decimal numerals -/

theorem isDigit_of_mem_toDigits {n : Nat} {c : Char} (hc : c ∈ Nat.toDigits 10 n) : isDigit c = true := by
  have hdigit := Nat.isDigit_of_mem_toDigits (by decide) (by decide) hc
  rw [Char.isDigit, Bool.and_eq_true, decide_eq_true_eq, decide_eq_true_eq] at hdigit
  rw [isDigit, Bool.and_eq_true, decide_eq_true_eq, decide_eq_true_eq]
  exact hdigit

/-- The decimal digits of a number. -/
def Digits.ofNat (n : Nat) : Digits where
  head := (Nat.toDigits 10 n).head Nat.toDigits_ne_nil
  tail := (Nat.toDigits 10 n).tail
  isDigit_of_mem c hc := by
    rw [List.cons_head_tail] at hc
    exact isDigit_of_mem_toDigits hc

theorem Digits.chars_ofNat (n : Nat) : (Digits.ofNat n).chars = Nat.toDigits 10 n :=
  List.cons_head_tail _

theorem Digits.value_ofNat (n : Nat) : (Digits.ofNat n).value = n := by
  have hvalue : ∀ (digits : List Char) (m : Nat),
      digits.foldl (fun n c => n * 10 + digitValue c) m = Nat.ofDigitChars 10 digits m := by
    intro digits
    induction digits with
    | nil => exact fun _ => rfl
    | cons c digits ih =>
        intro m
        rw [List.foldl_cons, ih, Nat.ofDigitChars_cons, Nat.mul_comm]
        rfl
  rw [value, chars_ofNat, hvalue, Nat.ofDigitChars_toDigits (by decide) (by decide)]

/-- Only zero starts with a zero. -/
theorem eq_zero_of_head_toDigits (n : Nat) (h : (Nat.toDigits 10 n).head Nat.toDigits_ne_nil = '0') :
    n = 0 := by
  induction n using Nat.strongRecOn with
  | ind n ih =>
      by_cases hn : n < 10
      · have hdigits := Nat.toDigits_of_lt_base hn
        simp only [hdigits, List.head_cons] at h
        have hzero : ∀ m < 10, Nat.digitChar m = '0' → m = 0 := by decide
        exact hzero n hn h
      · have hdigits := Nat.toDigits_of_base_le (b := 10) (by decide) (Nat.not_lt.mp hn)
        simp only [hdigits] at h
        rw [List.head_append_of_ne_nil Nat.toDigits_ne_nil] at h
        have hquotient := ih (n / 10) (Nat.div_lt_self (by omega) (by decide)) h
        omega

theorem Digits.noNeedlessZero_ofNat (n : Nat) (h : (Digits.ofNat n).head = '0') :
    (Digits.ofNat n).tail = [] := by
  obtain rfl := eq_zero_of_head_toDigits n h
  rfl

/-- The decimal numeral of a whole number. -/
def Numeral.ofInt (n : Int) : Numeral where
  negative := decide (n < 0)
  digits := .ofNat n.natAbs
  fraction := none
  exponent := none
  noNeedlessZero := Digits.noNeedlessZero_ofNat n.natAbs

theorem Numeral.write_ofInt (n : Int) (rest : List Char) :
    (Numeral.ofInt n).write rest = (toString n).toList ++ rest := by
  have hnat : ∀ m : Nat, (Digits.ofNat m).chars = (toString m).toList := fun m => by
    rw [Digits.chars_ofNat, Nat.toString_eq_repr, Nat.repr_eq_ofList_toDigits, String.toList_ofList]
  cases n with
  | ofNat m =>
      show (Digits.ofNat m).chars ++ rest = (toString m).toList ++ rest
      rw [hnat]
  | negSucc m =>
      have hnegative : (ofInt (Int.negSucc m)).negative = true := decide_eq_true (Int.negSucc_lt_zero m)
      rw [write, if_pos hnegative]
      show '-' :: ((Digits.ofNat (m + 1)).chars ++ rest) = ("-" ++ toString (m + 1)).toList ++ rest
      rw [hnat, String.toList_append]
      rfl

theorem Numeral.whole?_ofInt (n : Int) : (Numeral.ofInt n).whole? = some n := by
  have hvalue : (Numeral.ofInt n).digits.value = n.natAbs := Digits.value_ofNat _
  show (if decide (n < 0) = true then if (Numeral.ofInt n).digits.value = 0 then none
    else some (-((Numeral.ofInt n).digits.value : Int)) else some ((Numeral.ofInt n).digits.value : Int)) = _
  rw [hvalue]
  by_cases hn : n < 0
  · rw [if_pos (decide_eq_true hn), if_neg (by omega), show -(n.natAbs : Int) = n by omega]
  · rw [if_neg (by simpa using hn), show (n.natAbs : Int) = n by omega]

/-! ### Strings without escapes -/

/-- A string of characters that stand for themselves. -/
def plainPieces (cs : List Char) (h : ∀ c ∈ cs, ¬c < ' ' ∧ c ≠ '"' ∧ c ≠ '\\') : List Piece :=
  cs.pmap (fun c h => .plain c h.1 h.2.1 h.2.2) h

theorem writeString_plainPieces {cs : List Char} (h : ∀ c ∈ cs, ¬c < ' ' ∧ c ≠ '"' ∧ c ≠ '\\')
    (rest : List Char) : writeString rest (plainPieces cs h) = cs ++ '"' :: rest := by
  induction cs with
  | nil => rfl
  | cons c cs ih => exact congrArg (c :: ·) (ih fun c hc => h c (List.mem_cons_of_mem _ hc))

theorem decode?_plainPieces {cs : List Char} (h : ∀ c ∈ cs, ¬c < ' ' ∧ c ≠ '"' ∧ c ≠ '\\') :
    decode? (plainPieces cs h) = some cs := by
  induction cs with
  | nil => rfl
  | cons c cs ih =>
      exact congrArg (Option.map (c :: ·)) (ih fun c hc => h c (List.mem_cons_of_mem _ hc))

/-! ### Arrays of levels -/

/-- Levels behind each other, without any space. -/
def Elements.ofLevels (level : Int32) : List Int32 → Elements
  | [] => .last .none (.number (.ofInt level.toInt)) .none
  | next :: levels => .cons .none (.number (.ofInt level.toInt)) .none (ofLevels next levels)

theorem Elements.write_ofLevels (level : Int32) (levels : List Int32) (rest : List Char) :
    (Elements.ofLevels level levels).write rest
      = (String.intercalate "," ((level :: levels).map Snapshot.levelText)).toList ++ rest := by
  induction levels generalizing level with
  | nil => exact Numeral.write_ofInt level.toInt rest
  | cons next levels ih =>
      show (Numeral.ofInt level.toInt).write (',' :: (Elements.ofLevels next levels).write rest) = _
      rw [ih, Numeral.write_ofInt, List.map_cons, List.map_cons, List.map_cons, String.intercalate_cons_cons,
        String.toList_append, String.toList_append, List.append_assoc, List.append_assoc]
      rfl

theorem Elements.toList_ofLevels (level : Int32) (levels : List Int32) :
    (Elements.ofLevels level levels).toList
      = (level :: levels).map fun level => Value.number (.ofInt level.toInt) := by
  induction levels generalizing level with
  | nil => rfl
  | cons next levels ih => exact congrArg (_ :: ·) (ih next)

theorem Value.level?_ofInt (level : Int32) : Value.level? (.number (.ofInt level.toInt)) = some level := by
  have hlow := level.le_toInt
  have hhigh := level.toInt_lt
  rw [level?, wholeBetween?, Numeral.whole?_ofInt, Option.filter_some,
    if_pos (decide_eq_true ⟨by omega, by omega⟩), Option.map_some, Int32.ofInt_toInt]

theorem Elements.mapM_level?_ofLevels (level : Int32) (levels : List Int32) :
    (Elements.ofLevels level levels).toList.mapM Value.level? = some (level :: levels) := by
  rw [toList_ofLevels]
  generalize level :: levels = all
  induction all with
  | nil => rfl
  | cons level levels ih =>
      rw [List.map_cons, List.mapM_cons, ih, Value.level?_ofInt]
      rfl

end Json

/-! ### The document of a snapshot -/

/-- The text of what a field holds. -/
def Content.text : Content → String
  | number n => toString n
  | flag b => Text.bool b
  | levels all => "[" ++ String.intercalate "," (all.map Snapshot.levelText) ++ "]"

/-- What a field holds, as a value. -/
def Content.value : Content → Value
  | number n => .number (.ofInt n)
  | flag b => .bool b
  | levels [] => .emptyArray .none
  | levels (level :: others) => .array (.ofLevels level others)

theorem Content.write_value (c : Content) (rest : List Char) :
    c.value.write rest = c.text.toList ++ rest := by
  rcases c with n | b | _ | ⟨level, levels⟩
  · exact Numeral.write_ofInt n rest
  · cases b <;> rfl
  · rfl
  · show '[' :: (Elements.ofLevels level levels).write (']' :: rest) = _
    rw [Elements.write_ofLevels, text, String.toList_append, String.toList_append, List.append_assoc,
      List.append_assoc]
    rfl

theorem Content.content?_value (c : Content) : c.value.content? = some c := by
  rcases c with n | b | _ | ⟨level, levels⟩
  · exact congrArg (Option.map Content.number) (Numeral.whole?_ofInt n)
  · rfl
  · rfl
  · exact congrArg (Option.map Content.levels) (Elements.mapM_level?_ofLevels level levels)

namespace SnapshotField

theorem plain_name (field : SnapshotField) :
    ∀ c ∈ field.name.toList, ¬c < ' ' ∧ c ≠ '"' ∧ c ≠ '\\' := by
  have hall : (field.name.toList.all fun c => decide (¬c < ' ' ∧ c ≠ '"' ∧ c ≠ '\\')) = true := by
    cases field <;> rfl
  exact fun c hc => of_decide_eq_true (List.all_eq_true.mp hall c hc)

/-- The name of a field as a key. -/
def key (field : SnapshotField) : Key := ⟨.none, plainPieces field.name.toList field.plain_name, .none⟩

theorem name?_key (field : SnapshotField) : field.key.name? = some field.name := by
  rw [Key.name?, key, decode?_plainPieces, Option.map_some, String.ofList_toList]

end SnapshotField

namespace Snapshot

/-- The text of a member. -/
def memberText (s : Snapshot) (field : SnapshotField) : String :=
  "\"" ++ field.name ++ "\":" ++ (field.content s).text

theorem json_eq (s : Snapshot) :
    s.json = "\x7b" ++ String.intercalate "," (SnapshotField.all.map s.memberText) ++ "\x7d" := rfl

/-- Fields behind each other as members, without any space. -/
def membersOf (s : Snapshot) (field : SnapshotField) : List SnapshotField → Members
  | [] => .last field.key .none (field.content s).value .none
  | next :: fields => .cons field.key .none (field.content s).value .none (s.membersOf next fields)

theorem write_membersOf (s : Snapshot) (field : SnapshotField) (fields : List SnapshotField)
    (rest : List Char) :
    (s.membersOf field fields).write rest
      = (String.intercalate "," ((field :: fields).map s.memberText)).toList ++ rest := by
  have hmember : ∀ (field : SnapshotField) (rest : List Char),
      field.key.write ((field.content s).value.write rest) = (s.memberText field).toList ++ rest := by
    intro field rest
    show '"' :: writeString (':' :: _) (plainPieces _ _) = _
    rw [writeString_plainPieces, Content.write_value]
    simp only [memberText, String.toList_append, List.append_assoc]
    rfl
  induction fields generalizing field with
  | nil => exact hmember field rest
  | cons next fields ih =>
      show field.key.write ((field.content s).value.write (',' :: (s.membersOf next fields).write rest)) = _
      rw [hmember, ih, List.map_cons, List.map_cons, List.map_cons, String.intercalate_cons_cons,
        String.toList_append, String.toList_append, List.append_assoc, List.append_assoc]
      rfl

theorem toList_membersOf (s : Snapshot) (field : SnapshotField) (fields : List SnapshotField) :
    (s.membersOf field fields).toList
      = (field :: fields).map fun field => (field.key, (field.content s).value) := by
  induction fields generalizing field with
  | nil => rfl
  | cons next fields ih => exact congrArg (_ :: ·) (ih next)

/-- The text of a snapshot as a document. -/
def document (s : Snapshot) : Document :=
  ⟨.none, .object (s.membersOf .dictId SnapshotField.all.tail), .none⟩

theorem text_document (s : Snapshot) : s.document.text = s.json := by
  apply String.toList_inj.mp
  rw [Document.text, String.toList_ofList, json_eq, String.toList_append, String.toList_append]
  show '\x7b' :: (s.membersOf .dictId SnapshotField.all.tail).write ['\x7d'] = _
  rw [write_membersOf]
  rfl

/-- **A snapshot is denoted by its text.** -/
theorem denotes_document (s : Snapshot) : s.document.value.Denotes s := by
  have hmembers : (s.membersOf .dictId SnapshotField.all.tail).toList
      = SnapshotField.all.map fun field => (field.key, (field.content s).value) := s.toList_membersOf _ _
  refine ⟨fun m hm => ?_, fun field => ?_⟩
  · rw [hmembers, List.mem_map] at hm
    obtain ⟨field, -, rfl⟩ := hm
    rw [field.name?_key]
    rfl
  · refine ⟨(field.key, (field.content s).value), ?_, Content.content?_value _⟩
    have hnames : field.names ∘ (fun other : SnapshotField => (other.key, (other.content s).value))
        = fun other => decide (field = other) := by
      funext other
      exact Bool.eq_iff_iff.mpr ((SnapshotField.names_iff other.name?_key).trans decide_eq_true_iff.symm)
    rw [hmembers, List.filter_map, hnames]
    cases field <;> rfl

/-- **Snapshots come back from their texts.**  A snapshot is parsed from its text, and from every document
that denotes it: an object of its fields, in any order and with any space, among any members of other names,
or the array of its fields.  Nothing else is parsed to it.  In particular an object is refused where a field is
missing, comes twice or holds a value that it holds in no snapshot. -/
theorem parse_json (s : Snapshot) :
    parse s.json = .ok s
      ∧ (∀ d : Document, parse d.text = .ok s ↔ d.value.Denotes s)
      ∧ ∀ (d : Document) (ms : Members) (field : SnapshotField), d.value = .object ms →
        (∀ m, ms.toList.filter field.names = [m] → ∀ s, m.2.content? ≠ some (field.content s)) →
        ∃ e, parse d.text = .error e := by
  refine ⟨?_, fun d => parse_document_eq_ok_iff d s, fun d ms field hvalue hfield => ?_⟩
  · rw [← text_document]
    exact (parse_document_eq_ok_iff s.document s).mpr s.denotes_document
  · rcases parse_document d with ⟨s, -, hdenotes⟩ | ⟨hfails, -⟩
    · rw [hvalue] at hdenotes
      obtain ⟨m, hm, hcontent⟩ := hdenotes.2 field
      exact absurd hcontent (hfield m hm s)
    · exact hfails

/-- A snapshot at the bounds of its fields comes back, and an object whose only number is negative is
refused. -/
theorem parse_json_bounds :
    parse (json ⟨4294967295, 18446744073709551615, true, [-2147483648, 0, 2147483647], .zero⟩)
        = .ok ⟨4294967295, 18446744073709551615, true, [-2147483648, 0, 2147483647], .zero⟩
      ∧ ∃ e, parse (Document.text ⟨.none,
        .object (.last SnapshotField.dictId.key .none (.number (.ofInt (-1))) .none), .none⟩) = .error e := by
  obtain ⟨hback, -, hrefused⟩ :=
    parse_json ⟨4294967295, 18446744073709551615, true, [-2147483648, 0, 2147483647], .zero⟩
  refine ⟨hback, hrefused _ _ .dictId rfl fun m hm s hcontent => ?_⟩
  obtain ⟨hsame, -⟩ := List.cons.inj ((List.filter_cons_of_pos rfl).symm.trans hm)
  rw [← hsame] at hcontent
  have hnegative : (-1 : Int) = s.dictId.toNat :=
    Content.number.inj (Option.some.inj ((Content.content?_value (.number (-1))).symm.trans hcontent))
  omega

end Snapshot

end SharedDictionary
