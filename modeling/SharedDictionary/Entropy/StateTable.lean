import SharedDictionary.Bits.Backward
import SharedDictionary.Entropy.Counts

/-!
# Tables of states

A symbol is decoded by looking up the current state; the state also tells how many bits lead to the
next one.  The states of a symbol are scattered over the table by a fixed step, except that the
symbols rarer than one state sit at the top of the table.

## Main definitions

* `StateTable` — the table
* `StateTable.ofCounts` — the table that normalised counts describe
* `StateTable.single` — the table with one state, for a symbol that never changes
* `StateTable.read?` — reads a description and builds its table
* `StateTable.start`, `StateTable.advance` — the first state and the next one
-/

namespace SharedDictionary.Entropy

open SharedDictionary.Bits

/-- What one state says: its symbol, and that the next state is `next` plus the value of the next
`bits` bits. -/
structure StateEntry where
  symbol : Nat
  bits : Nat
  next : Nat
  deriving Repr, Inhabited, DecidableEq

/-- A table of `2 ^ log` states. -/
structure StateTable where
  log : Nat
  entries : Array StateEntry
  deriving Repr, Inhabited, DecidableEq

namespace StateTable

/-- The table whose only state yields `symbol` and needs no bits. -/
def single (symbol : Nat) : StateTable := ⟨0, #[⟨symbol, 0, 0⟩]⟩

/-- The symbols rarer than one state, in order. -/
def rareSymbols (counts : Array Int) : List Nat :=
  (List.range counts.size).filter fun s => counts.getD s 0 == -1

/-- The other symbols, each as often as it owns states. -/
def commonSymbols (counts : Array Int) : List Nat :=
  (List.range counts.size).flatMap fun s => List.replicate (counts.getD s 0).toNat s

/-- The positions below `free` in the order in which the fixed step visits them. -/
def scatter (log free : Nat) : List Nat :=
  let size := 2 ^ log
  let step := size / 2 + size / 8 + 3
  ((List.range size).map fun i => i * step % size).filter (· < free)

/-- Which symbol owns each state. -/
def symbolsOfCounts (log : Nat) (counts : Array Int) : Array Nat :=
  let size := 2 ^ log
  let rare := rareSymbols counts
  let free := size - rare.length
  let atTop := (rare.zipIdx).foldl (fun table (s, i) => table.setIfInBounds (size - 1 - i) s)
    (Array.replicate size 0)
  ((scatter log free).zip (commonSymbols counts)).foldl
    (fun table (position, s) => table.setIfInBounds position s) atTop

/-- The table of the given counts.  The states of a symbol that owns `n` of them are numbered
`n, n + 1, …` from the bottom up; a state numbered `k` needs as many bits as bring `k` up to the
size of the table. -/
def ofCounts (log : Nat) (counts : Array Int) : StateTable :=
  let size := 2 ^ log
  let first := counts.map fun c => if c = -1 then 1 else c.toNat
  let (entries, _) := (symbolsOfCounts log counts).foldl
    (fun (entries, numbers) s =>
      let number : Nat := Array.getD numbers s 0
      let bits := log - highBit number
      (Array.push entries (⟨s, bits, number * 2 ^ bits - size⟩ : StateEntry),
        Array.setIfInBounds numbers s (number + 1)))
    ((#[] : Array StateEntry), first)
  ⟨log, entries⟩

/-- Reads the description of a table over the symbols up to `maxSymbol` with at most `2 ^ maxLog`
states, and tells how many bytes it takes. -/
def read? (bytes : ByteArray) (start stop maxSymbol maxLog : Nat) : Option (StateTable × Nat) :=
  match Counts.read? bytes start stop maxSymbol with
  | none => none
  | some c => if c.log ≤ maxLog then some (ofCounts c.log c.counts, c.size) else none

/-- What a state says. -/
@[inline]
def entry (t : StateTable) (state : Nat) : StateEntry := t.entries.getD state default

/-- Reads the first state. -/
@[inline]
def start (t : StateTable) (r : Backward) : Nat × Backward := r.readLate t.log

/-- Reads the state that follows a state. -/
@[inline]
def advance (t : StateTable) (state : Nat) (r : Backward) : Nat × Backward :=
  let e := t.entry state
  let (low, r) := r.readLate e.bits
  (e.next + low, r)

end StateTable

end SharedDictionary.Entropy
