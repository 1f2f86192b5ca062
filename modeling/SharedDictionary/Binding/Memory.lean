import SharedDictionary.Binding.Value

/-!
# Memory that values export

A value of a script may let others look at memory: at items of one size and one format, in any number of
dimensions.  The entries of a dimension are a fixed distance apart, in either direction, and they may be
pointers to what they stand for.  So a byte string exports its bytes and an array its numbers, and a view
may export every second one of these, from the last one backwards, or the same ones as a table.

A call that wants a byte string tests whether the items are unsigned bytes.  What passes is copied with the
index of the last dimension running fastest: in one go where the items stand like that in memory, and item
by item elsewhere.

## Main definitions

* `Memory` — the octet at each address
* `Dimension`, `ExportedMemory` — what a value exports
* `ExportedMemory.copy` — the bytes of all items
* `OctetTest`, `octetTest` — which items are unsigned bytes
* `ExportedMemory.value` — the value, as calls see it
* `ExportedMemory.linear`, `ExportedMemory.everyNth`, `ExportedMemory.shaped` — what byte strings, arrays and
  views of them export
-/

namespace SharedDictionary

/-- The octet at each address. -/
abbrev Memory := Int → UInt8

namespace Memory

/-- The memory that has a byte string from address zero on, and zeros elsewhere. -/
def holding (content : ByteArray) : Memory :=
  fun address => if address < 0 then 0 else octetAt content address.toNat

/-- The octets from an address on. -/
def octets (m : Memory) (address : Int) (count : Nat) : List UInt8 :=
  (List.range count).map fun (k : Nat) => m (address + k)

/-- The pointer at an address: eight octets, the least significant first. -/
def pointer (m : Memory) (address : Int) : Int :=
  (m.octets address 8).foldr (fun octet rest => octet.toNat + 256 * rest) 0

end Memory

/-- A dimension of exported memory. -/
structure Dimension where
  /-- How many entries there are. -/
  extent : Nat
  /-- How far an entry is from the one before it. -/
  stride : Int
  /-- If the entries are pointers, how far behind its target an entry begins. -/
  suboffset : Option Nat := none
  deriving Repr, DecidableEq

namespace Dimension

/-- Where an entry begins, if the first one is at an address. -/
def entry (d : Dimension) (m : Memory) (address : Int) (i : Nat) : Int :=
  match d.suboffset with
  | none => address + i * d.stride
  | some offset => m.pointer (address + i * d.stride) + offset

/-- How many items some dimensions have together. -/
def itemCount : List Dimension → Nat
  | [] => 1
  | d :: ds => d.extent * itemCount ds

/-- The items of some dimensions stand behind each other, the index of the last one running fastest.  Of a
single entry it does not matter how far it is from others. -/
def arePacked (itemSize : Nat) : List Dimension → Bool
  | [] => true
  | d :: ds => (d.extent ≤ 1 || d.stride == ((itemCount ds * itemSize : Nat) : Int)) && arePacked itemSize ds

/-- The dimensions of some extents whose items stand behind each other. -/
def packed (itemSize : Nat) : List Nat → List Dimension
  | [] => []
  | extent :: extents =>
    let ds := packed itemSize extents
    ⟨extent, (itemCount ds * itemSize : Nat), none⟩ :: ds

end Dimension

/-- The octets of all items from an address on, item by item, the index of the last dimension running
fastest. -/
def Memory.items (m : Memory) (itemSize : Nat) : List Dimension → (address : Int) → List UInt8
  | [], address => m.octets address itemSize
  | d :: ds, address =>
    (List.range d.extent).flatMap fun i => m.items itemSize ds (d.entry m address i)

/-- What a value exports. -/
structure ExportedMemory where
  /-- The type of the value. -/
  type : String
  /-- The value counts as true. -/
  occupied : Bool
  memory : Memory
  /-- The address of the first item. -/
  start : Int
  /-- The format of the items: a letter, behind a mark of the byte order if there is one. -/
  format : String
  itemSize : Nat
  dimensions : List Dimension

/-- Whether memory of so many dimensions, with items of a format and a size, is taken for unsigned bytes. -/
abbrev OctetTest := (rank : Nat) → (format : String) → (itemSize : Nat) → Bool

/-- The formats of unsigned bytes in the byte order of the machine. -/
def nativeOctets : List String := ["B", "c", "@B", "@c"]

/-- The test that calls make. -/
def octetTest : OctetTest := fun rank format itemSize =>
  0 < rank && itemSize == 1 && nativeOctets.contains format

namespace ExportedMemory

open Dimension

/-- How many bytes the items have. -/
def length (e : ExportedMemory) : Nat := itemCount e.dimensions * e.itemSize

/-- The items can be copied in one go. -/
def isContiguous (e : ExportedMemory) : Bool :=
  e.dimensions.all (·.suboffset.isNone) && (e.length == 0 || arePacked e.itemSize e.dimensions)

/-- The bytes of all items. -/
def copy (e : ExportedMemory) : ByteArray :=
  if e.isContiguous then (e.memory.octets e.start e.length).toByteArray
  else (e.memory.items e.itemSize e.dimensions e.start).toByteArray

/-- The value, as calls see it. -/
def value (test : OctetTest) (e : ExportedMemory) : ScriptValue :=
  .buffer e.type (test e.dimensions.length e.format e.itemSize) e.occupied e.copy

/-- What a byte string or an array exports: items behind each other in one dimension. -/
def linear (type format : String) (itemSize : Nat) (content : ByteArray) : ExportedMemory where
  type := type
  occupied := content.size / itemSize != 0
  memory := .holding content
  start := 0
  format := format
  itemSize := itemSize
  dimensions := packed itemSize [content.size / itemSize]

/-- The same items as a table of some extents. -/
def shaped (extents : List Nat) (e : ExportedMemory) : ExportedMemory :=
  { e with dimensions := packed e.itemSize extents }

/-- Every so many entries of the first dimension, backwards from the last one if the step is negative. -/
def everyNth (step : Int) (e : ExportedMemory) : ExportedMemory :=
  match e.dimensions with
  | [] => e
  | d :: ds =>
    let stepped : Dimension :=
      { d with extent := (d.extent + step.natAbs - 1) / step.natAbs, stride := step * d.stride }
    { e with
      start := if step < 0 then e.start + (d.extent - 1) * d.stride else e.start
      dimensions := stepped :: ds }

end ExportedMemory

end SharedDictionary
