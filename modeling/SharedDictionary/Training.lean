import SharedDictionary.Checksum
import SharedDictionary.Dictionary.Content
import SharedDictionary.Handle.Engine

/-!
# Training a dictionary

A dictionary is trained from samples.  Which content a trainer makes of them is its own business
(`Trainer`); here it is wrapped up as a dictionary, and its failures as those of an operation
(`SharedDict.trained`).

`plainTrainer` makes formatted content whose history holds as much of the samples as fits.  Its tables
are the shortest there are, and its identifier is drawn from the checksum of what it holds.  It needs
enough samples to be worth it.  Three quarters of them would be learned from and the rest tested
against, and both parts need a least number of samples.

## Main definitions

* `Trainer`, `trainWith`, `SharedDict.trained` — training, whoever makes the content
* `trainingFailure?` — why samples cannot be trained on
* `trainedContent` — the bytes of a trained dictionary
* `plainTrainer`, `train` — trains, or fails
-/

namespace SharedDictionary

/-! ### Training, whoever makes the content -/

/-- What makes content of samples, for so much space, or says why it cannot. -/
abbrev Trainer : Type := (samples : List ByteArray) → (maxSize : Nat) → Except String ByteArray

/-- The content that a trainer makes. -/
def trainWith (trainer : Trainer) (samples : List ByteArray) (maxSize : Nat) :
    Except DictError ByteArray :=
  (trainer samples maxSize).mapError (.codec "train")

/-- A dictionary of what a trainer makes, which is not declared raw (`train_dictionary`). -/
def SharedDict.trained (trainer : Trainer) (samples : List ByteArray) (maxSize : Nat) :
    Except DictError SharedDict :=
  (trainWith trainer samples maxSize).map fun content => .new content false

/-! ### The plain trainer -/

/-- The least space for a dictionary. -/
def leastDictionary : Nat := 256

/-- The least and the greatest size of all samples together. -/
def sampleLimits : Nat × Nat := (8, 2 ^ 32 - 1)

/-- Why samples cannot be trained on. -/
def trainingFailure? (samples : List ByteArray) (maxSize : Nat) : Option CodecError :=
  let total := (samples.map (·.size)).sum
  let learned := samples.length * 3 / 4
  if samples.isEmpty then some .wrongInputSize
  else if maxSize < leastDictionary then some .outputTooSmall
  else if total < sampleLimits.1 ∨ sampleLimits.2 ≤ total then some .wrongInputSize
  else if learned < 5 ∨ samples.length - learned < 1 then some .wrongInputSize
  else none

/-- The description of a code for two symbols of one bit each: a single weight, and the implied
one. -/
def twoSymbolCode : List UInt8 := [0x80, 0x10]

/-- The description of a table whose 32 states all belong to the first symbol. -/
def oneSymbolTable : List UInt8 := [0xF0, 0x03]

/-- What stands between the header and the content of a trained dictionary: the code, the tables of
offsets, match lengths and literal lengths, and the offsets that every frame starts with. -/
def trainedTables : ByteArray :=
  let tables := twoSymbolCode ++ oneSymbolTable ++ oneSymbolTable ++ oneSymbolTable
  [1, 4, 8].foldl (fun out offset => pushLittleEndian out offset 4) ⟨tables.toArray⟩

/-- The least and the greatest identifier that is free for use. -/
def identifierRange : Nat × Nat := (2 ^ 15, 2 ^ 31)

/-- The identifier of some content, from its checksum. -/
def trainedId (content : ByteArray) : Nat :=
  let (low, high) := identifierRange
  (Checksum.hash content).toNat % (high - low) + low

/-- The content that is learned: the end of the samples, as much as fits. -/
def learnedContent (samples : List ByteArray) (space : Nat) : ByteArray :=
  let all := samples.foldl (· ++ ·) ByteArray.empty
  all.extract (all.size - space) all.size

/-- A trained dictionary of at most `maxSize` bytes. -/
def trainedContent (samples : List ByteArray) (maxSize : Nat) : ByteArray :=
  let space := maxSize - Dictionary.headerLength - trainedTables.size
  let content := learnedContent samples space
  let header := pushLittleEndian ByteArray.empty Dictionary.magic 4
  pushLittleEndian header (trainedId content) 4 ++ trainedTables ++ content

/-- Makes content of the samples as they are. -/
def plainTrainer : Trainer := fun samples maxSize =>
  match trainingFailure? samples maxSize with
  | some e => .error e.message
  | none => .ok (trainedContent samples maxSize)

/-- Trains a dictionary of at most `maxSize` bytes. -/
def train (samples : List ByteArray) (maxSize : Nat) : Except DictError ByteArray :=
  trainWith plainTrainer samples maxSize

end SharedDictionary
