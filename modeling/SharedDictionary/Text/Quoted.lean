/-!
# Quoted text

Diagnostic text shows a string between double quotes.  A quote and a backslash are preceded by a
backslash, some control characters have a letter of their own, and every other character that does
not show by itself is written as its number in hexadecimal.

## Main definitions

* `Text.isShown` — a character that stands for itself
* `Text.quote` — the quoted form of a string
* `Text.commaList`, `Text.fields` — lists and records in diagnostic text
-/

namespace SharedDictionary.Text

/-- Ranges of characters that do not show by themselves: controls, spaces other than the common one,
invisible format characters, marks that combine with the character before, and private ranges. -/
def hiddenRanges : List (Nat × Nat) :=
  [(0x00, 0x1F), (0x7F, 0xA0), (0xAD, 0xAD), (0x300, 0x36F), (0x483, 0x489), (0x591, 0x5BD),
    (0x5BF, 0x5BF), (0x5C1, 0x5C2), (0x5C4, 0x5C5), (0x5C7, 0x5C7), (0x600, 0x605),
    (0x610, 0x61A), (0x61C, 0x61C), (0x64B, 0x65F), (0x670, 0x670), (0x6D6, 0x6DD),
    (0x6DF, 0x6E4), (0x6E7, 0x6E8), (0x6EA, 0x6ED), (0x93C, 0x93C), (0x94D, 0x94D),
    (0x1680, 0x1680), (0x180B, 0x180F), (0x1AB0, 0x1ACE), (0x1DC0, 0x1DFF), (0x2000, 0x200F),
    (0x2028, 0x202F), (0x205F, 0x206F), (0x20D0, 0x20F0), (0x3000, 0x3000), (0x302A, 0x302F),
    (0x3099, 0x309A), (0xD800, 0xF8FF), (0xFE00, 0xFE0F), (0xFE20, 0xFE2F), (0xFEFF, 0xFEFF),
    (0xFFF0, 0xFFFB), (0xFFFE, 0xFFFF), (0xE0000, 0x10FFFF)]

/-- A character that stands for itself in quoted text, quote and backslash apart. -/
def isShown (c : Char) : Bool := !hiddenRanges.any fun r => r.1 ≤ c.toNat && c.toNat ≤ r.2

/-- The hexadecimal digits of a number. -/
def hexDigits (n : Nat) : String := String.ofList (Nat.toDigits 16 n)

/-- A character inside quoted text. -/
def quoteChar (c : Char) : String :=
  if c = '"' then "\\\""
  else if c = '\\' then "\\\\"
  else if c = '\t' then "\\t"
  else if c = '\r' then "\\r"
  else if c = '\n' then "\\n"
  else if c = '\x00' then "\\0"
  else if isShown c then c.toString
  else "\\u\x7b" ++ hexDigits c.toNat ++ "\x7d"

/-- The quoted form of a string. -/
def quote (s : String) : String :=
  "\"" ++ String.join (s.toList.map quoteChar) ++ "\""

/-- Items between commas. -/
def commaList (items : List String) : String := String.intercalate ", " items

/-- A list in brackets. -/
def bracketed (items : List String) : String := "[" ++ commaList items ++ "]"

/-- A record: its name, then its fields in braces. -/
def fields (name : String) (values : List (String × String)) : String :=
  name ++ " \x7b " ++ commaList (values.map fun (field, value) => field ++ ": " ++ value) ++ " \x7d"

/-- A record of which only some fields are shown. -/
def someFields (name : String) (values : List (String × String)) : String :=
  name ++ " \x7b "
    ++ String.join (values.map fun (field, value) => field ++ ": " ++ value ++ ", ")
    ++ ".. \x7d"

/-- A name applied to a value. -/
def applied (name value : String) : String := name ++ "(" ++ value ++ ")"

/-- A truth value. -/
def bool (b : Bool) : String := if b then "true" else "false"

/-- A value that may be missing. -/
def option (value : Option String) : String :=
  match value with
  | none => "None"
  | some value => applied "Some" value

/-- The numbers of a byte string. -/
def bytes (b : ByteArray) : String := bracketed (b.toList.map fun x => toString x.toNat)

end SharedDictionary.Text
