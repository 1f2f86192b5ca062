import SharedDictionary.Frame.Header
import SharedDictionary.Frame.Literals
import SharedDictionary.Frame.Sequences

/-!
# Decoding blocks

The output of a frame grows behind its history: one byte string, the *window*, holds the history and
all that was written since, and a match may start anywhere in it.  A block only ever appends.

A block's bit string must end with its last sequence.  Normally that is noticed after the
sequences were executed, so that a sequence that cannot be executed is reported first.  The first
block after a dictionary was loaded looks eight sequences ahead while the dictionary is brought
into memory, and there the end of the bit string is looked at before the last eight sequences are
executed.

## Main definitions

* `Sequence.execute`, `executeAll` — what sequences append
* `BlockDecoder` — what the blocks of a frame share
* `decodeBlock` — appends the content of one block
-/

namespace SharedDictionary

open SharedDictionary.Bits
open SharedDictionary.Entropy

/-- A window during a block. -/
structure Execution where
  /-- The history and the output. -/
  window : ByteArray
  /-- How many literals were used. -/
  used : Nat

/-- Executes one sequence: it must fit below `limit`, the literals must be there, and the match must
start in the window. -/
def Sequence.execute (literals : ByteArray) (limit : Nat) (s : Sequence) (x : Execution) :
    Except CodecError Execution :=
  match x with
  | ⟨window, used⟩ =>
    if limit < window.size + s.literals + s.length then .error .outputTooSmall
    else if literals.size < used + s.literals then .error .corruption
    else if window.size + s.literals < s.distance then .error .corruption
    else
      .ok ⟨copyBack (pushRange window literals used s.literals) s.distance s.length,
        used + s.literals⟩

/-- Executes sequences in order, up to the first that fails. -/
def executeAll (literals : ByteArray) (limit : Nat) :
    List Sequence → Execution → Except CodecError Execution
  | [], x => .ok x
  | s :: rest, x =>
    match s.execute literals limit x with
    | .error e => .error e
    | .ok x => executeAll literals limit rest x

/-- Appends the literals that no sequence has used. -/
def Execution.finish (literals : ByteArray) (limit : Nat) (x : Execution) :
    Except CodecError ByteArray :=
  match x with
  | ⟨window, used⟩ =>
    let count := literals.size - used
    if limit < window.size + count then .error .outputTooSmall
    else .ok (pushRange window literals used count)

/-- How many sequences a block looks ahead while a dictionary is brought into memory. -/
def lookahead : Nat := 8

/-- Executes the sequences of a bit string.  The string must have ended properly, which is looked at
after all sequences, or before the last ones if the dictionary is `cold`. -/
def executeChecked (literals : ByteArray) (limit : Nat) (cold : Bool) (sequences : List Sequence)
    (ended : Bool) (x : Execution) : Except CodecError Execution := do
  -- A cold dictionary holds the last sequences back until the end of the string was looked at.
  let early := if cold then sequences.length - lookahead else sequences.length
  let x ← executeAll literals limit (sequences.take early) x
  if !ended then throw .corruption
  executeAll literals limit (sequences.drop early) x

/-- What the blocks of a frame share. -/
structure BlockDecoder where
  /-- The tables and distances of the blocks so far. -/
  state : CodingState
  /-- No compressed block has been decoded since a dictionary was loaded. -/
  cold : Bool
  deriving Inhabited

/-- Appends the content of the compressed block between `start` and `stop` to the window. -/
def decodeCompressed (space : BlockSpace) (d : BlockDecoder) (window : ByteArray)
    (bytes : ByteArray) (start stop : Nat) : Except CodecError (BlockDecoder × ByteArray) := do
  if space.blockLimit < stop - start then throw .wrongInputSize
  let (literals, state) ← Literals.read space d.state bytes start stop
  let atSequences := start + literals.size
  let header ← SequenceHeader.read state.sequences bytes atSequences stop
  let limit := window.size + literals.room
  match header.tables with
  | none =>
    let window ← Execution.finish literals.content limit ⟨window, 0⟩
    return (⟨state, false⟩, window)
  | some tables =>
    if space.room = 0 then throw .outputTooSmall
    match Backward.open? bytes (atSequences + header.size) stop with
    | none => throw .corruption
    | some r =>
      let (sequences, recent, ended) := Sequence.readAll tables state.recent r header.count
      let x ← executeChecked literals.content limit d.cold sequences ended ⟨window, 0⟩
      let window ← x.finish literals.content limit
      return (⟨{ state with sequences := some tables, recent := recent }, false⟩, window)

/-- Appends the content of a block whose bytes start at `start`. -/
def decodeBlock (space : BlockSpace) (d : BlockDecoder) (window : ByteArray) (block : BlockHeader)
    (bytes : ByteArray) (start : Nat) : Except CodecError (BlockDecoder × ByteArray) :=
  match block.kind with
  | .raw =>
    if space.room < block.length then .error .outputTooSmall
    else .ok (d, pushRange window bytes start block.length)
  | .run =>
    if space.room < block.length then .error .outputTooSmall
    else .ok (d, pushRun window (octetAt bytes start) block.length)
  | .compressed => decodeCompressed space d window bytes start (start + block.length)

end SharedDictionary
