import SharedDictionary.Entropy.CodingState

/-!
# Dictionary content

Any bytes can serve as a dictionary: they are the history that the first bytes of a frame may copy
from.  Content that opens with the dictionary magic number is *formatted*: after the magic number
come an identifier, a Huffman code, three tables of states and three offsets, and a frame that uses
it starts with those.

## Main definitions

* `Dictionary.magic`, `Dictionary.headerLength`, `Dictionary.hasMagic`, `Dictionary.readId` — the
  header
* `Dictionary.readTables?` — what stands between the header and the content
* `LoadedDictionary`, `LoadedDictionary.load?` — a dictionary as a frame uses it
-/

namespace SharedDictionary

open SharedDictionary.Entropy

namespace Dictionary

/-- The number that opens formatted content (`DICT_MAGIC`). -/
def magic : Nat := 0xEC30A437

/-- The magic number and the identifier take four bytes each (`DICT_HEADER_LEN`). -/
def headerLength : Nat := 8

/-- Content opens with the magic number (`has_dict_magic`). -/
def hasMagic (content : ByteArray) : Bool :=
  4 ≤ content.size && littleEndian content 0 4 == magic

/-- The identifier of formatted content, zero if there is no whole header (`read_dict_id`). -/
def readId (content : ByteArray) : Nat :=
  if content.size < headerLength || !hasMagic content then 0 else littleEndian content 4 4

theorem readId_lt (content : ByteArray) : readId content < 2 ^ 32 := by
  unfold readId
  split
  · decide
  · exact littleEndian_lt content 4 4

/-- The largest symbol and the greatest logarithm of a table of literal lengths. -/
def literalLengthLimits : Nat × Nat := (35, 9)

/-- The same for offsets. -/
def offsetLimits : Nat × Nat := (31, 8)

/-- The same for match lengths. -/
def matchLengthLimits : Nat × Nat := (52, 9)

/-- The tables and offsets of formatted content, and where the content proper starts.  Every offset
must lead into the content proper. -/
def readTables? (content : ByteArray) : Option (CodingState × Nat) := do
  let stop := content.size
  guard (headerLength < stop)
  let (huffman, size) ← HuffmanTable.read? content headerLength stop true
  let atOffsets := headerLength + size
  let (offsets, size) ←
    StateTable.read? content atOffsets stop offsetLimits.1 offsetLimits.2
  let atMatches := atOffsets + size
  let (matchLengths, size) ←
    StateTable.read? content atMatches stop matchLengthLimits.1 matchLengthLimits.2
  let atLiterals := atMatches + size
  let (literalLengths, size) ←
    StateTable.read? content atLiterals stop literalLengthLimits.1 literalLengthLimits.2
  let atRecent := atLiterals + size
  guard (atRecent + 12 ≤ stop)
  let room := stop - (atRecent + 12)
  let recent : RecentOffsets := ⟨littleEndian content atRecent 4,
    littleEndian content (atRecent + 4) 4, littleEndian content (atRecent + 8) 4⟩
  guard (1 ≤ recent.first ∧ recent.first ≤ room ∧ 1 ≤ recent.second ∧ recent.second ≤ room
    ∧ 1 ≤ recent.third ∧ recent.third ≤ room)
  return (⟨some huffman, some ⟨literalLengths, offsets, matchLengths⟩, recent⟩, atRecent + 12)

/-- Content is formatted if a whole header with the magic number opens it. -/
def isFormatted (content : ByteArray) : Bool := headerLength ≤ content.size && hasMagic content

end Dictionary

/-- A dictionary as a frame uses it. -/
structure LoadedDictionary where
  /-- The bytes that stand before the first byte of a frame, the header included. -/
  history : ByteArray
  /-- Where the content proper starts in the history. -/
  contentStart : Nat
  /-- The identifier, zero without a header. -/
  id : Nat
  /-- What the first block of a frame starts with. -/
  state : CodingState
  deriving Inhabited

namespace LoadedDictionary

/-- Content as plain history. -/
def plain (content : ByteArray) : LoadedDictionary := ⟨content, 0, 0, .initial⟩

/-- Content as its header says: formatted content needs readable tables, other content is plain
history. -/
def load? (content : ByteArray) : Option LoadedDictionary :=
  if Dictionary.isFormatted content then
    (Dictionary.readTables? content).map fun (state, contentStart) =>
      ⟨content, contentStart, Dictionary.readId content, state⟩
  else some (plain content)

@[simp] theorem history_plain (content : ByteArray) : (plain content).history = content := rfl

theorem load?_eq_plain {content : ByteArray} (h : Dictionary.isFormatted content = false) :
    load? content = some (plain content) := by
  simp [load?, h]

end LoadedDictionary

end SharedDictionary
