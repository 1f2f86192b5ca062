import SharedDictionary.Text.Json

/-!
# The grammar of JSON

What a text is made of, as data: numerals, strings, arrays and objects with their values, and the space
between any two parts.  Every text that is well formed is the text of such a document, with each of its parts
as it is written: the letters of escapes, the digits of exponents, members that come more than once.

A part is written in front of the rest of a text, so that what follows it can be spoken of.

## Main definitions

* `Json.Gap`, `Json.Digits`, `Json.Numeral`, `Json.Piece`, `Json.Key` — the parts of a text
* `Json.Value`, `Json.Elements`, `Json.Members`, `Json.Document` — values, what is in them, and whole texts
* `Json.Numeral.whole?`, `Json.decode?` — what numerals and strings stand for
-/

namespace SharedDictionary.Json

/-- Space between the parts of a text. -/
structure Gap where
  chars : List Char
  isSpace_of_mem : ∀ c ∈ chars, isSpace c = true

/-- No space. -/
def Gap.none : Gap := ⟨[], nofun⟩

/-! ### Numerals -/

/-- Decimal digits, at least one. -/
structure Digits where
  head : Char
  tail : List Char
  isDigit_of_mem : ∀ c ∈ head :: tail, isDigit c = true

namespace Digits

def chars (d : Digits) : List Char := d.head :: d.tail

/-- The number that digits stand for. -/
def value (d : Digits) : Nat := d.chars.foldl (fun n c => n * 10 + digitValue c) 0

end Digits

/-- An exponent, with its letter and sign. -/
structure Exponent where
  letter : Char
  sign : Option Char
  digits : Digits
  isLetter : letter = 'e' ∨ letter = 'E'
  isSign : ∀ c ∈ sign, c = '+' ∨ c = '-'

/-- The text of an exponent, and the rest. -/
def Exponent.write (e : Exponent) (rest : List Char) : List Char :=
  e.letter :: (e.sign.toList ++ (e.digits.chars ++ rest))

/-- A numeral; it does not start with a needless zero. -/
structure Numeral where
  negative : Bool
  digits : Digits
  fraction : Option Digits
  exponent : Option Exponent
  noNeedlessZero : digits.head = '0' → digits.tail = []

namespace Numeral

/-- The text of an exponent that may be missing, and the rest. -/
def writeExponent (exponent : Option Exponent) (rest : List Char) : List Char :=
  match exponent with
  | none => rest
  | some e => e.write rest

/-- The text after the digits of a numeral, and the rest. -/
def writeTail (n : Numeral) (rest : List Char) : List Char :=
  match n.fraction with
  | none => writeExponent n.exponent rest
  | some digits => '.' :: (digits.chars ++ writeExponent n.exponent rest)

/-- The text of a numeral after its sign, and the rest. -/
def writeUnsigned (n : Numeral) (rest : List Char) : List Char := n.digits.chars ++ n.writeTail rest

/-- The text of a numeral, and the rest. -/
def write (n : Numeral) (rest : List Char) : List Char :=
  if n.negative then '-' :: n.writeUnsigned rest else n.writeUnsigned rest

/-- The whole number that a numeral stands for.  One with a fraction or an exponent stands for none, and
neither does minus zero. -/
def whole? (n : Numeral) : Option Int :=
  match n.fraction, n.exponent with
  | none, none =>
    if n.negative then if n.digits.value = 0 then none else some (-n.digits.value)
    else some n.digits.value
  | _, _ => none

end Numeral

/-! ### Strings -/

/-- A hexadecimal digit. -/
structure HexDigit where
  char : Char
  isHex : (hexValue? char).isSome = true

def HexDigit.value (d : HexDigit) : Nat := (hexValue? d.char).get d.isHex

/-- A part of a string between its quotes. -/
inductive Piece where
  /-- A character that stands for itself. -/
  | plain (c : Char) (hprintable : ¬c < ' ') (hquote : c ≠ '"') (hbackslash : c ≠ '\\')
  /-- A backslash with a letter. -/
  | short (letter : Char) (h : (escaped? letter).isSome = true)
  /-- A backslash, the letter `u` and four digits. -/
  | unit (a b c d : HexDigit)

/-- The number that the digits of an escape stand for. -/
def unitValue (a b c d : HexDigit) : Nat :=
  ((a.value * 16 + b.value) * 16 + c.value) * 16 + d.value

/-- The text of a part of a string, and the rest. -/
def Piece.write (rest : List Char) : Piece → List Char
  | plain c _ _ _ => c :: rest
  | short letter _ => '\\' :: letter :: rest
  | unit a b c d => '\\' :: 'u' :: a.char :: b.char :: c.char :: d.char :: rest

/-- The text of a string after its opening quote, and the rest. -/
def writeString (rest : List Char) : (pieces : List Piece) → List Char
  | [] => '"' :: rest
  | piece :: pieces => piece.write (writeString rest pieces)

/-- The character that a pair of surrogates stands for. -/
def pairCharacter (lead trail : Nat) : Char :=
  Char.ofNat (0x10000 + (lead - 0xD800) * 1024 + (trail - 0xDC00))

/-- The characters that the parts of a string stand for.  Surrogates stand for a character in pairs only. -/
def decode? : (pieces : List Piece) → Option (List Char)
  | [] => some []
  | .plain c _ _ _ :: pieces => (decode? pieces).map (c :: ·)
  | .short letter h :: pieces => (decode? pieces).map ((escaped? letter).get h :: ·)
  | .unit a b c d :: pieces =>
    if isTrailing (unitValue a b c d) then none
    else if isLeading (unitValue a b c d) then
      match pieces with
      | .unit a' b' c' d' :: pieces =>
        if isTrailing (unitValue a' b' c' d') then
          (decode? pieces).map (pairCharacter (unitValue a b c d) (unitValue a' b' c' d') :: ·)
        else none
      | _ => none
    else (decode? pieces).map (Char.ofNat (unitValue a b c d) :: ·)

/-- A key with the space around it, up to its colon. -/
structure Key where
  before : Gap
  pieces : List Piece
  after : Gap

namespace Key

/-- The text of a key after its opening quote, and the rest. -/
def writeOpened (key : Key) (rest : List Char) : List Char :=
  writeString (key.after.chars ++ ':' :: rest) key.pieces

/-- The text of a key, and the rest. -/
def write (key : Key) (rest : List Char) : List Char :=
  key.before.chars ++ '"' :: key.writeOpened rest

/-- The name that a key stands for. -/
def name? (key : Key) : Option String := (decode? key.pieces).map String.ofList

end Key

/-! ### Values -/

mutual

/-- A value. -/
inductive Value where
  | null
  | bool (b : Bool)
  | number (n : Numeral)
  | string (pieces : List Piece)
  /-- An array without elements. -/
  | emptyArray (gap : Gap)
  | array (elements : Elements)
  /-- An object without members. -/
  | emptyObject (gap : Gap)
  | object (members : Members)

/-- The elements of an array, each with the space around it. -/
inductive Elements where
  | last (before : Gap) (value : Value) (after : Gap)
  | cons (before : Gap) (value : Value) (after : Gap) (rest : Elements)

/-- The members of an object, each with the space around its value. -/
inductive Members where
  | last (key : Key) (before : Gap) (value : Value) (after : Gap)
  | cons (key : Key) (before : Gap) (value : Value) (after : Gap) (rest : Members)

end

mutual

/-- The text of a value, and the rest. -/
def Value.write (rest : List Char) : Value → List Char
  | .null => 'n' :: 'u' :: 'l' :: 'l' :: rest
  | .bool true => 't' :: 'r' :: 'u' :: 'e' :: rest
  | .bool false => 'f' :: 'a' :: 'l' :: 's' :: 'e' :: rest
  | .number n => n.write rest
  | .string pieces => '"' :: writeString rest pieces
  | .emptyArray gap => '[' :: (gap.chars ++ ']' :: rest)
  | .array elements => '[' :: elements.write (']' :: rest)
  | .emptyObject gap => '\x7b' :: (gap.chars ++ '\x7d' :: rest)
  | .object members => '\x7b' :: members.write ('\x7d' :: rest)

/-- The text of elements, and the rest. -/
def Elements.write (rest : List Char) : Elements → List Char
  | .last before value after => before.chars ++ value.write (after.chars ++ rest)
  | .cons before value after elements =>
    before.chars ++ value.write (after.chars ++ ',' :: elements.write rest)

/-- The text of members, and the rest. -/
def Members.write (rest : List Char) : Members → List Char
  | .last key before value after => key.write (before.chars ++ value.write (after.chars ++ rest))
  | .cons key before value after members =>
    key.write (before.chars ++ value.write (after.chars ++ ',' :: members.write rest))

end

/-- The elements as values. -/
def Elements.toList : Elements → List Value
  | .last _ value _ => [value]
  | .cons _ value _ elements => value :: elements.toList

/-- The members as keys and values. -/
def Members.toList : Members → List (Key × Value)
  | .last key _ value _ => [(key, value)]
  | .cons key _ value _ members => (key, value) :: members.toList

/-- A whole text: a value with the space around it. -/
structure Document where
  before : Gap
  value : Value
  after : Gap

namespace Document

def chars (d : Document) : List Char := d.before.chars ++ d.value.write d.after.chars

def text (d : Document) : String := String.ofList d.chars

end Document

end SharedDictionary.Json
