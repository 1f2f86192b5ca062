import SharedDictionary.Entropy.HuffmanStream

/-!
# What blocks hand on

A block may reuse the code tables of the block before it, and its offsets may name one of the last
three.  A frame starts with no tables and the offsets 1, 4 and 8, or with those of a dictionary.

## Main definitions

* `RecentOffsets` — the last three offsets
* `SequenceTables` — the tables for the three parts of a sequence
* `CodingState` — what a block leaves to the next one
-/

namespace SharedDictionary.Entropy

/-- The last three offsets, the most recent first. -/
structure RecentOffsets where
  first : Nat
  second : Nat
  third : Nat
  deriving Repr, DecidableEq, Inhabited

/-- The offsets a frame starts with. -/
def RecentOffsets.initial : RecentOffsets := ⟨1, 4, 8⟩

/-- The tables for literal lengths, offsets and match lengths. -/
structure SequenceTables where
  literalLengths : StateTable
  offsets : StateTable
  matchLengths : StateTable
  deriving Inhabited

/-- What a block leaves to the next one. -/
structure CodingState where
  /-- The code of the last compressed literals. -/
  huffman : Option HuffmanTable
  /-- The tables of the last sequences. -/
  sequences : Option SequenceTables
  /-- The last three offsets. -/
  recent : RecentOffsets
  deriving Inhabited

/-- No tables, and the offsets that every frame starts with. -/
def CodingState.initial : CodingState := ⟨none, none, .initial⟩

end SharedDictionary.Entropy
