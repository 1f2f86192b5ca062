import SharedDictionary.Bytes

/-!
# Reading JSON

A text is read from left to right, and the first thing that is wrong with it decides the outcome.
There are three ways to be wrong: the text is not well formed, it ends too early, or it is well
formed so far but holds a value of another kind than is wanted.

Where no value is wanted it is only skipped.  Strings that are skipped need well-formed escapes, but
surrogates in them need not be paired.

## Main definitions

* `Json.Failure` — the three ways to be wrong
* `Json.skipSpace`, `Json.readWord`, `Json.readString`, `Json.readNumber` — the parts of a text
* `Json.readWhole`, `Json.readUnsigned`, `Json.readBool`, `Json.readArray` — values of a wanted kind
* `Json.misfit` — what a value of another kind than wanted comes to
* `Json.skipValue` — any value
-/

namespace SharedDictionary.Json

/-- What is wrong with a text. -/
inductive Failure where
  /-- It is not well formed. -/
  | malformed
  /-- It holds another kind of value than is wanted. -/
  | unfit
  /-- It ends too early. -/
  | unfinished
  deriving Repr, DecidableEq, Inhabited

/-- A reader of the rest of a text. -/
abbrev Reading (α : Type) := Except Failure (α × List Char)

/-- The characters that may stand between the parts of a text. -/
def isSpace (c : Char) : Bool := c == ' ' || c == '\n' || c == '\t' || c == '\r'

/-- The text after any space. -/
def skipSpace (cs : List Char) : List Char := cs.dropWhile isSpace

/-- Reads the given characters. -/
def readWord (word cs : List Char) : Except Failure (List Char) :=
  match word, cs with
  | [], cs => .ok cs
  | _ :: _, [] => .error .unfinished
  | w :: word, c :: cs => if w = c then readWord word cs else .error .malformed

/-- The value of a hexadecimal digit. -/
def hexValue? (c : Char) : Option Nat :=
  if '0' ≤ c ∧ c ≤ '9' then some (c.toNat - '0'.toNat)
  else if 'a' ≤ c ∧ c ≤ 'f' then some (c.toNat - 'a'.toNat + 10)
  else if 'A' ≤ c ∧ c ≤ 'F' then some (c.toNat - 'A'.toNat + 10)
  else none

/-- The number of bytes of a text. -/
def byteLength (cs : List Char) : Nat := (cs.map (·.utf8Size)).sum

/-- Reads four hexadecimal digits.  Fewer than four bytes mean that the text ends too early. -/
def readHex4 (cs : List Char) : Reading Nat :=
  match cs with
  | a :: b :: c :: d :: rest =>
    match hexValue? a, hexValue? b, hexValue? c, hexValue? d with
    | some a, some b, some c, some d => .ok (((a * 16 + b) * 16 + c) * 16 + d, rest)
    | _, _, _, _ => .error .malformed
  | cs => if byteLength cs < 4 then .error .unfinished else .error .malformed

/-- The character that a single letter after a backslash stands for. -/
def escaped? (c : Char) : Option Char :=
  match c with
  | '"' => some '"'
  | '\\' => some '\\'
  | '/' => some '/'
  | 'b' => some '\x08'
  | 'f' => some '\x0c'
  | 'n' => some '\n'
  | 'r' => some '\r'
  | 't' => some '\t'
  | _ => none

/-- The first half of a surrogate pair. -/
def isLeading (n : Nat) : Bool := 0xD800 ≤ n && n ≤ 0xDBFF

/-- The second half of a surrogate pair. -/
def isTrailing (n : Nat) : Bool := 0xDC00 ≤ n && n ≤ 0xDFFF

/-- Reads the second half of a surrogate pair, and gives the character of both. -/
def readTrailing (lead : Nat) (cs : List Char) : Reading Char :=
  match cs with
  | [] => .error .unfinished
  | '\\' :: rest =>
    match rest with
    | [] => .error .unfinished
    | 'u' :: rest =>
      match readHex4 rest with
      | .error e => .error e
      | .ok (trail, rest) =>
        if isTrailing trail then
          .ok (Char.ofNat (0x10000 + (lead - 0xD800) * 1024 + (trail - 0xDC00)), rest)
        else .error .malformed
    | _ :: _ => .error .malformed
  | _ :: _ => .error .malformed

/-- Reads what follows the letter `u` of an escape.  Surrogates come in pairs. -/
def readUnicode (cs : List Char) : Reading Char :=
  match readHex4 cs with
  | .error e => .error e
  | .ok (n, rest) =>
    if isTrailing n then .error .malformed
    else if isLeading n then readTrailing n rest
    else .ok (Char.ofNat n, rest)

/-- Reads what follows a backslash. -/
def readEscape (cs : List Char) : Reading Char :=
  match cs with
  | [] => .error .unfinished
  | 'u' :: rest => readUnicode rest
  | c :: rest =>
    match escaped? c with
    | some c => .ok (c, rest)
    | none => .error .malformed

/-- Skips what follows a backslash. -/
def skipEscape (cs : List Char) : Except Failure (List Char) :=
  match cs with
  | [] => .error .unfinished
  | 'u' :: rest => (readHex4 rest).map (·.2)
  | c :: rest => if (escaped? c).isSome then .ok rest else .error .malformed

/-- Reads the rest of a string after its opening quote.  The characters so far are given in reverse.
A string takes at most as many steps as it has characters, and `fuel` is that number and more. -/
def readStringFrom (known cs : List Char) : (fuel : Nat) → Reading String
  | 0 => .error .unfinished
  | fuel + 1 =>
    match cs with
    | [] => .error .unfinished
    | '"' :: rest => .ok (String.ofList known.reverse, rest)
    | '\\' :: rest =>
      match readEscape rest with
      | .error e => .error e
      | .ok (c, rest) => readStringFrom (c :: known) rest fuel
    | c :: rest => if c < ' ' then .error .malformed else readStringFrom (c :: known) rest fuel

/-- Reads a string after its opening quote. -/
def readString (cs : List Char) : Reading String := readStringFrom [] cs (cs.length + 1)

/-- Skips the rest of a string. -/
def skipStringFrom (cs : List Char) : (fuel : Nat) → Except Failure (List Char)
  | 0 => .error .unfinished
  | fuel + 1 =>
    match cs with
    | [] => .error .unfinished
    | '"' :: rest => .ok rest
    | '\\' :: rest =>
      match skipEscape rest with
      | .error e => .error e
      | .ok rest => skipStringFrom rest fuel
    | c :: rest => if c < ' ' then .error .malformed else skipStringFrom rest fuel

/-- Skips a string after its opening quote. -/
def skipString (cs : List Char) : Except Failure (List Char) := skipStringFrom cs (cs.length + 1)

/-! ### Numbers -/

/-- A decimal digit. -/
def isDigit (c : Char) : Bool := '0' ≤ c && c ≤ '9'

/-- The value of a decimal digit. -/
def digitValue (c : Char) : Nat := c.toNat - '0'.toNat

/-- The greatest significand. -/
def significandLimit : Nat := 2 ^ 64

/-- Appends digits to a significand up to the first that would make it too large, and tells how many
were appended. -/
def appendDigits (significand : Nat) : (digits : List Char) → Nat × Nat
  | [] => (significand, 0)
  | d :: digits =>
    let grown := significand * 10 + digitValue d
    if significandLimit ≤ grown then (significand, 0)
    else
      let (value, used) := appendDigits grown digits
      (value, used + 1)

/-- A number rounded to 53 significant bits, a half to the even neighbour. -/
def round53 (n : Nat) : Nat :=
  let width := n.log2 + 1
  if width ≤ 53 then n
  else
    let unit := 2 ^ (width - 53)
    let kept := n / unit
    let rest := n % unit * 2
    if rest < unit ∨ (rest = unit ∧ kept % 2 = 0) then kept * unit else (kept + 1) * unit

/-- A decimal number lies beyond the range of binary floating point with 53 bits. -/
def isOutOfRange (significand : Nat) (exponent : Int) : Bool :=
  if exponent < 0 then false
  else if 308 < exponent then significand != 0
  else 2 ^ 1024 - 2 ^ 970 ≤ round53 significand * round53 (10 ^ exponent.toNat)

/-- A number as it stands in a text: a whole one, or one that is written or can only be kept with a
fraction or exponent. -/
inductive Number where
  | whole (value : Int)
  | other
  deriving Repr, DecidableEq

/-- A number with a fraction or an exponent; it must be in range. -/
def inRange (significand : Nat) (exponent : Int) (rest : List Char) : Reading Number :=
  if isOutOfRange significand exponent then .error .malformed else .ok (.other, rest)

/-- The greatest exponent. -/
def exponentLimit : Nat := 2 ^ 31

/-- Reads what follows the letter of an exponent.  An exponent that is too large makes the number
too large, unless it is negative or the significand is zero. -/
def readExponent (significand : Nat) (before : Int) (cs : List Char) : Reading Number :=
  let (negative, cs) := match cs with
    | '+' :: rest => (false, rest)
    | '-' :: rest => (true, rest)
    | cs => (false, cs)
  match cs with
  | [] => .error .unfinished
  | c :: _ =>
    if isDigit c then
      let digits := cs.takeWhile isDigit
      let rest := cs.dropWhile isDigit
      let value := digits.foldl (fun n d => n * 10 + digitValue d) 0
      if value < exponentLimit then
        inRange significand (if negative then before - value else before + value) rest
      else if significand ≠ 0 ∧ !negative then .error .malformed
      else .ok (.other, rest)
    else .error .malformed

/-- Reads an exponent if there is one. -/
def readOptionalExponent (significand : Nat) (before : Int) (cs : List Char) : Reading Number :=
  match cs with
  | 'e' :: rest => readExponent significand before rest
  | 'E' :: rest => readExponent significand before rest
  | cs => inRange significand before cs

/-- Reads what follows a decimal point: at least one digit, then perhaps an exponent. -/
def readFraction (significand : Nat) (before : Int) (cs : List Char) : Reading Number :=
  let digits := cs.takeWhile isDigit
  let rest := cs.dropWhile isDigit
  if digits.isEmpty then
    if rest.isEmpty then .error .unfinished else .error .malformed
  else
    let (significand, used) := appendDigits significand digits
    readOptionalExponent significand (before - used) rest

/-- Reads the digits of a number and what follows them.  A number does not start with a needless
zero.  Minus zero is no whole number. -/
def readDigits (negative : Bool) (cs : List Char) : Reading Number :=
  match cs with
  | [] => .error .unfinished
  | c :: tail =>
    if !isDigit c then .error .malformed
    else if c = '0' ∧ (tail.head?.any isDigit) then .error .malformed
    else
      let digits := cs.takeWhile isDigit
      let rest := cs.dropWhile isDigit
      let (significand, used) := appendDigits 0 digits
      let dropped := digits.length - used
      match rest with
      | '.' :: rest => readFraction significand dropped rest
      | 'e' :: rest => readExponent significand dropped rest
      | 'E' :: rest => readExponent significand dropped rest
      | rest =>
        if dropped ≠ 0 then inRange significand dropped rest
        else if !negative then .ok (.whole significand, rest)
        else if significand = 0 ∨ 2 ^ 63 < significand then .ok (.other, rest)
        else .ok (.whole (-significand), rest)

/-- Reads a number that starts with a digit or a minus sign. -/
def readNumber (cs : List Char) : Reading Number :=
  match cs with
  | '-' :: rest => readDigits true rest
  | cs => readDigits false cs

/-- What comes of a value that starts here but is not of the wanted kind: words, numbers and strings
are read first, and what is wrong with them counts. -/
def misfit (cs : List Char) : Failure :=
  let after {α : Type} (r : Except Failure α) : Failure :=
    match r with
    | .ok _ => .unfit
    | .error e => e
  match cs with
  | [] => .unfinished
  | 'n' :: rest => after (readWord "ull".toList rest)
  | 't' :: rest => after (readWord "rue".toList rest)
  | 'f' :: rest => after (readWord "alse".toList rest)
  | '"' :: rest => after (readString rest)
  | '[' :: _ => .unfit
  | '\x7b' :: _ => .unfit
  | c :: _ => if c = '-' ∨ isDigit c then after (readNumber cs) else .malformed

/-- Reads a whole number between two bounds. -/
def readWhole (low high : Int) (cs : List Char) : Reading Int :=
  match skipSpace cs with
  | [] => .error .unfinished
  | c :: rest =>
    if c = '-' ∨ isDigit c then
      match readNumber (c :: rest) with
      | .error e => .error e
      | .ok (.other, _) => .error .unfit
      | .ok (.whole value, rest) =>
        if low ≤ value ∧ value ≤ high then .ok (value, rest) else .error .unfit
    else .error (misfit (c :: rest))

/-- Reads a whole number of at most `bits` bits. -/
def readUnsigned (bits : Nat) (cs : List Char) : Reading Nat :=
  (readWhole 0 (2 ^ bits - 1) cs).map fun (value, rest) => (value.toNat, rest)

/-- Reads a truth value. -/
def readBool (cs : List Char) : Reading Bool :=
  match skipSpace cs with
  | 't' :: rest => (readWord "rue".toList rest).map fun rest => (true, rest)
  | 'f' :: rest => (readWord "alse".toList rest).map fun rest => (false, rest)
  | cs => .error (misfit cs)

/-! ### Arrays and objects -/

/-- Looks for the next element of an array, before the first one or after another.  The result is
the text of the element, or nothing if the array ends here; its bracket is not read. -/
def nextElement (first : Bool) (cs : List Char) : Except Failure (Option (List Char)) :=
  match skipSpace cs with
  | [] => .error .unfinished
  | ']' :: _ => .ok none
  | c :: rest =>
    if first then .ok (some (c :: rest))
    else if c = ',' then
      match skipSpace rest with
      | [] => .error .unfinished
      | ']' :: _ => .error .malformed
      | rest => .ok (some rest)
    else .error .malformed

/-- Reads the bracket that ends an array. -/
def endArray (cs : List Char) : Except Failure (List Char) :=
  match skipSpace cs with
  | [] => .error .unfinished
  | ']' :: rest => .ok rest
  | _ => .error .malformed

/-- Reads elements up to the end of an array.  Every element takes at least one character, and
`fuel` is greater than their number. -/
def readElements {α : Type} (element : List Char → Reading α) (first : Bool) (known : List α)
    (cs : List Char) : (fuel : Nat) → Reading (List α)
  | 0 => .error .unfinished
  | fuel + 1 =>
    match nextElement first cs with
    | .error e => .error e
    | .ok none => (endArray cs).map fun rest => (known.reverse, rest)
    | .ok (some cs) =>
      match element cs with
      | .error e => .error e
      | .ok (value, rest) => readElements element false (value :: known) rest fuel

/-- Reads an array. -/
def readArray {α : Type} (element : List Char → Reading α) (cs : List Char) : Reading (List α) :=
  match skipSpace cs with
  | '[' :: rest => readElements element true [] rest (rest.length + 1)
  | cs => .error (misfit cs)

/-- Looks for the next key of an object, before the first member or after another.  The result is
the text after the opening quote of the key, or nothing if the object ends here; its brace is not
read. -/
def nextKey (first : Bool) (cs : List Char) : Except Failure (Option (List Char)) :=
  match skipSpace cs with
  | [] => .error .unfinished
  | '\x7d' :: _ => .ok none
  | c :: rest =>
    if first then if c = '"' then .ok (some rest) else .error .malformed
    else if c = ',' then
      match skipSpace rest with
      | [] => .error .unfinished
      | '"' :: rest => .ok (some rest)
      | _ => .error .malformed
    else .error .malformed

/-- Reads the colon after a key. -/
def readColon (cs : List Char) : Except Failure (List Char) :=
  match skipSpace cs with
  | [] => .error .unfinished
  | ':' :: rest => .ok rest
  | _ => .error .malformed

/-! ### Values that are skipped -/

/-- Skips an exponent after its letter. -/
def skipExponent (cs : List Char) : Except Failure (List Char) :=
  let cs := match cs with
    | '+' :: rest => rest
    | '-' :: rest => rest
    | cs => cs
  if cs.head?.any isDigit then .ok (cs.dropWhile isDigit) else .error .malformed

/-- Skips a number after its sign.  Whatever is wrong with it, it is not well formed. -/
def skipDigits (cs : List Char) : Except Failure (List Char) :=
  match cs with
  | [] => .error .malformed
  | c :: tail =>
    if !isDigit c then .error .malformed
    else if c = '0' ∧ tail.head?.any isDigit then .error .malformed
    else
      match cs.dropWhile isDigit with
      | '.' :: rest =>
        if rest.head?.any isDigit then
          match rest.dropWhile isDigit with
          | 'e' :: rest => skipExponent rest
          | 'E' :: rest => skipExponent rest
          | rest => .ok rest
        else .error .malformed
      | 'e' :: rest => skipExponent rest
      | 'E' :: rest => skipExponent rest
      | rest => .ok rest

/-- An array or object that is not closed yet. -/
inductive Enclosing where
  | array
  | object
  deriving Repr, DecidableEq

/-- What is expected next while a value is skipped. -/
inductive Expected where
  /-- A value. -/
  | value
  /-- The first element or member, or the end. -/
  | first
  /-- A comma, or the end. -/
  | comma
  deriving Repr, DecidableEq

/-- Skips a key with its colon. -/
def skipKey (cs : List Char) : Except Failure (List Char) :=
  match skipSpace cs with
  | [] => .error .unfinished
  | '"' :: rest =>
    match skipString rest with
    | .error e => .error e
    | .ok rest => readColon rest
  | _ => .error .malformed

/-- Skips a value that is no array or object. -/
def skipScalar (cs : List Char) : Except Failure (List Char) :=
  match cs with
  | [] => .error .unfinished
  | 'n' :: rest => readWord "ull".toList rest
  | 't' :: rest => readWord "rue".toList rest
  | 'f' :: rest => readWord "alse".toList rest
  | '"' :: rest => skipString rest
  | '-' :: rest => skipDigits rest
  | c :: rest => if isDigit c then skipDigits (c :: rest) else .error .malformed

/-- Skips the next part of a value inside the given arrays and objects, the innermost first. -/
def skipFrom (enclosing : List Enclosing) (expected : Expected) (cs : List Char) :
    (fuel : Nat) → Except Failure (List Char)
  | 0 => .error .unfinished
  | fuel + 1 =>
    match expected with
    | .value =>
      match skipSpace cs with
      | [] => .error .unfinished
      | '[' :: rest => skipFrom (.array :: enclosing) .first rest fuel
      | '\x7b' :: rest => skipFrom (.object :: enclosing) .first rest fuel
      | cs =>
        match skipScalar cs with
        | .error e => .error e
        | .ok rest => skipFrom enclosing .comma rest fuel
    | expected =>
      match enclosing with
      | [] => .ok cs
      | inner :: outer =>
        match skipSpace cs with
        | [] => .error .unfinished
        | c :: rest =>
          if c = (match inner with | .array => ']' | .object => '\x7d') then
            skipFrom outer .comma rest fuel
          else if expected = .comma ∧ c ≠ ',' then .error .malformed
          else
            let cs := if expected = .comma then rest else c :: rest
            match inner with
            | .array => skipFrom enclosing .value cs fuel
            | .object =>
              match skipKey cs with
              | .error e => .error e
              | .ok rest => skipFrom enclosing .value rest fuel

/-- Skips any value.  Every two steps take a character. -/
def skipValue (cs : List Char) : Except Failure (List Char) :=
  skipFrom [] .value cs (2 * cs.length + 2)

end SharedDictionary.Json
