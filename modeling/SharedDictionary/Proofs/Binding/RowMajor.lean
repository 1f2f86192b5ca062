import SharedDictionary.Binding.Memory
import SharedDictionary.Proofs.Bytes.Standing

/-!
# The order of copied items

An item of exported memory has an index, one number for each dimension.  The index says where the item is
in memory (`Memory.addressOf`), and where it comes in the order in which the index of the last dimension runs
fastest (`Dimension.rankOf`).  A byte string is the items in that order if at the place of every index it has
the octets at the address of that index (`ExportedMemory.RowMajor`).

What is copied is that byte string, and no other one is (`ExportedMemory.rowMajor_iff`).  Item by item this is
an induction on the dimensions: the items of an entry are as many octets for each entry, so they begin at a
multiple of that.  Items that are copied in one go are the octets behind each other that the copy item by
item would come to (`Memory.items_of_packed`).
-/

namespace SharedDictionary

open Dimension

/-! ### Indices -/

namespace Dimension

/-- An index has a number below the extent for each dimension. -/
inductive Within : List Dimension → List Nat → Prop
  | nil : Within [] []
  | cons {d : Dimension} {ds : List Dimension} {i : Nat} {index : List Nat} (hi : i < d.extent)
      (hindex : Within ds index) : Within (d :: ds) (i :: index)

/-- How many items come before that of an index, if the index of the last dimension runs fastest. -/
def rankOf : List Dimension → (index : List Nat) → Nat
  | _ :: ds, i :: index => i * itemCount ds + rankOf ds index
  | _, _ => 0

variable {ds : List Dimension} {index : List Nat}

theorem Within.rankOf_lt (h : Within ds index) : rankOf ds index < itemCount ds := by
  induction h with
  | nil => exact Nat.one_pos
  | @cons d ds i index hi _ ih =>
      calc i * itemCount ds + rankOf ds index
        _ < i * itemCount ds + itemCount ds := Nat.add_lt_add_left ih _
        _ = (i + 1) * itemCount ds := (Nat.succ_mul i _).symm
        _ ≤ d.extent * itemCount ds := Nat.mul_le_mul_right _ hi

/-- Every place in the order is that of an index. -/
theorem exists_rankOf_eq {place : Nat} (h : place < itemCount ds) :
    ∃ index, Within ds index ∧ rankOf ds index = place := by
  induction ds generalizing place with
  | nil =>
      have hplace : place = 0 := Nat.lt_one_iff.mp h
      exact ⟨[], .nil, hplace.symm⟩
  | cons d ds ih =>
      have hpos : 0 < itemCount ds := Nat.pos_of_mul_pos_left (Nat.zero_lt_of_lt h)
      obtain ⟨index, hindex, hrank⟩ := ih (Nat.mod_lt place hpos)
      have hentry : place / itemCount ds < d.extent := (Nat.div_lt_iff_lt_mul hpos).mpr h
      refine ⟨place / itemCount ds :: index, .cons hentry hindex, ?_⟩
      rw [rankOf, hrank]
      exact Nat.div_add_mod' place (itemCount ds)

end Dimension

/-- Where the item of an index is. -/
def Memory.addressOf (m : Memory) : List Dimension → (address : Int) → (index : List Nat) → Int
  | d :: ds, address, i :: index => m.addressOf ds (d.entry m address i) index
  | _, address, _ => address

/-! ### Octets behind each other -/

/-- Where pieces of one length are put behind each other, an octet of a piece is found behind the pieces
before. -/
theorem getElem?_flatMap_range {α : Type} {piece : Nat → List α} {length : Nat}
    (hlength : ∀ i, (piece i).length = length) {count i k : Nat} (hi : i < count) (hk : k < length) :
    ((List.range count).flatMap piece)[i * length + k]? = (piece i)[k]? := by
  induction count with
  | zero => exact absurd hi (Nat.not_lt_zero i)
  | succ count ih =>
      have hbefore : ((List.range count).flatMap piece).length = count * length := by
        simp only [List.length_flatMap, hlength, List.map_const', List.length_range,
          List.sum_replicate_nat]
      rw [List.range_succ, List.flatMap_append, List.flatMap_singleton]
      rcases Nat.lt_succ_iff_lt_or_eq.mp hi with hlt | rfl
      · have hinside : i * length + k < count * length :=
          calc i * length + k
            _ < i * length + length := Nat.add_lt_add_left hk _
            _ = (i + 1) * length := (Nat.succ_mul i length).symm
            _ ≤ count * length := Nat.mul_le_mul_right length hlt
        rw [List.getElem?_append_left (by rw [hbefore]; exact hinside)]
        exact ih hlt
      · rw [List.getElem?_append_right (by omega), hbefore, Nat.add_sub_cancel_left]

namespace Memory

variable {m : Memory} {ds : List Dimension} {index : List Nat} {itemSize : Nat} {address : Int}

@[simp] theorem length_octets (m : Memory) (address : Int) (count : Nat) :
    (m.octets address count).length = count := by
  simp [octets]

theorem getElem?_octets (m : Memory) (address : Int) {count k : Nat} (h : k < count) :
    (m.octets address count)[k]? = some (m (address + k)) := by
  simp [octets, h]

theorem octets_add (m : Memory) (address : Int) (count more : Nat) :
    m.octets address (count + more) = m.octets address count ++ m.octets (address + count) more := by
  simp only [octets, List.range_add, List.map_append, List.map_map, Function.comp_def,
    Int.natCast_add, Int.add_assoc]

/-- Ranges of octets that follow one another are one range. -/
theorem flatMap_octets (m : Memory) (address : Int) (length count : Nat) :
    ((List.range count).flatMap fun (i : Nat) => m.octets (address + i * (length : Nat)) length)
      = m.octets address (count * length) := by
  induction count with
  | zero => simp [octets]
  | succ count ih =>
      rw [List.range_succ, List.flatMap_append, List.flatMap_singleton, ih, Nat.succ_mul, octets_add,
        Int.natCast_mul]

@[simp] theorem length_items (m : Memory) (itemSize : Nat) (ds : List Dimension) (address : Int) :
    (m.items itemSize ds address).length = itemCount ds * itemSize := by
  induction ds generalizing address with
  | nil => rw [items, length_octets, itemCount, Nat.one_mul]
  | cons d ds ih =>
      simp only [items, List.length_flatMap, ih, itemCount, List.map_const', List.length_range,
        List.sum_replicate_nat, Nat.mul_assoc]

/-- **Item by item**, the octets of an item are found at its place in the order. -/
theorem getElem?_items (m : Memory) (h : Within ds index) {k : Nat} (hk : k < itemSize) (address : Int) :
    (m.items itemSize ds address)[rankOf ds index * itemSize + k]?
      = some (m (m.addressOf ds address index + k)) := by
  induction h generalizing address with
  | nil =>
      have hplace : rankOf [] [] * itemSize + k = k := by
        rw [show rankOf [] [] = 0 from rfl, Nat.zero_mul, Nat.zero_add]
      rw [hplace, items, getElem?_octets m address hk]
      rfl
  | @cons d ds i index hi hindex ih =>
      have hplace : rankOf (d :: ds) (i :: index) * itemSize + k
          = i * (itemCount ds * itemSize) + (rankOf ds index * itemSize + k) := by
        rw [rankOf, Nat.add_mul, Nat.mul_assoc, Nat.add_assoc]
      have hinside : rankOf ds index * itemSize + k < itemCount ds * itemSize :=
        calc rankOf ds index * itemSize + k
          _ < rankOf ds index * itemSize + itemSize := Nat.add_lt_add_left hk _
          _ = (rankOf ds index + 1) * itemSize := (Nat.succ_mul _ _).symm
          _ ≤ itemCount ds * itemSize := Nat.mul_le_mul_right _ hindex.rankOf_lt
      rw [hplace, items, addressOf,
        getElem?_flatMap_range (fun _ => length_items m itemSize ds _) hi hinside, ih]

/-- **Items that stand behind each other** are the octets from the first one on. -/
theorem items_of_packed (hdirect : ∀ d ∈ ds, d.suboffset = none) (h : arePacked itemSize ds = true)
    (address : Int) : m.items itemSize ds address = m.octets address (itemCount ds * itemSize) := by
  induction ds generalizing address with
  | nil => rw [items, itemCount, Nat.one_mul]
  | cons d ds ih =>
      rw [arePacked, Bool.and_eq_true, Bool.or_eq_true, decide_eq_true_iff, beq_iff_eq] at h
      obtain ⟨hstride, hrest⟩ := h
      have hentry : ∀ i ∈ List.range d.extent,
          d.entry m address i = address + i * (itemCount ds * itemSize : Nat) := by
        intro i hi
        rw [entry, hdirect d List.mem_cons_self]
        rcases hstride with hsingle | heq
        · have hzero : i = 0 := by
            have hlt := List.mem_range.mp hi
            omega
          rw [hzero, Int.natCast_zero, Int.zero_mul, Int.zero_mul]
        · rw [heq]
      have heach : ∀ i ∈ List.range d.extent, m.items itemSize ds (d.entry m address i)
          = m.octets (address + i * (itemCount ds * itemSize : Nat)) (itemCount ds * itemSize) := by
        intro i hi
        rw [ih (fun d hd => hdirect d (List.mem_cons_of_mem _ hd)) hrest, hentry i hi]
      rw [items, List.flatMap_def, List.map_congr_left heach, ← List.flatMap_def, flatMap_octets, itemCount,
        Nat.mul_assoc]

end Memory

/-! ### The copy -/

namespace ExportedMemory

variable {e : ExportedMemory} {content : ByteArray}

/-- A byte string is the items of exported memory, the index of the last dimension running fastest. -/
structure RowMajor (e : ExportedMemory) (content : ByteArray) : Prop where
  size_eq : content.size = e.length
  octetAt_eq : ∀ {index}, Within e.dimensions index → ∀ {k}, k < e.itemSize →
    octetAt content (rankOf e.dimensions index * e.itemSize + k)
      = e.memory (e.memory.addressOf e.dimensions e.start index + k)

/-- There is at most one such byte string: each of its positions belongs to an item. -/
theorem RowMajor.eq {other : ByteArray} (h : e.RowMajor content) (hother : e.RowMajor other) :
    content = other := by
  refine ByteArray.ext_getElem (h.size_eq.trans hother.size_eq.symm) fun i hi hi' => ?_
  have hlt : i < itemCount e.dimensions * e.itemSize := by
    rw [← length, ← h.size_eq]
    exact hi
  have hpos : 0 < e.itemSize := Nat.pos_of_mul_pos_left (Nat.zero_lt_of_lt hlt)
  obtain ⟨index, hindex, hrank⟩ := exists_rankOf_eq ((Nat.div_lt_iff_lt_mul hpos).mpr hlt)
  have hplace : rankOf e.dimensions index * e.itemSize + i % e.itemSize = i := by
    rw [hrank]
    exact Nat.div_add_mod' i e.itemSize
  have hk : i % e.itemSize < e.itemSize := Nat.mod_lt i hpos
  have hsame := (h.octetAt_eq hindex hk).trans (hother.octetAt_eq hindex hk).symm
  rwa [hplace, octetAt_of_lt hi, octetAt_of_lt hi'] at hsame

/-- Both ways to copy come to the same. -/
theorem copy_eq (e : ExportedMemory) :
    e.copy = (e.memory.items e.itemSize e.dimensions e.start).toByteArray := by
  rw [copy]
  split
  · rename_i hcontiguous
    rw [isContiguous, Bool.and_eq_true, Bool.or_eq_true, beq_iff_eq] at hcontiguous
    obtain ⟨hdirect, hnothing | hpacked⟩ := hcontiguous
    · have hitems : e.memory.items e.itemSize e.dimensions e.start = [] :=
        List.eq_nil_of_length_eq_zero (by rw [Memory.length_items, ← length, hnothing])
      have hoctets : e.memory.octets e.start e.length = [] :=
        List.eq_nil_of_length_eq_zero (by rw [Memory.length_octets, hnothing])
      rw [hitems, hoctets]
    · have hnone : ∀ d ∈ e.dimensions, d.suboffset = none := by
        intro d hd
        exact Option.isNone_iff_eq_none.mp (List.all_eq_true.mp hdirect d hd)
      rw [Memory.items_of_packed hnone hpacked, length]
  · rfl

/-- **What is copied are the items**, the index of the last dimension running fastest. -/
theorem rowMajor_copy (e : ExportedMemory) : e.RowMajor e.copy := by
  refine ⟨?_, fun {index} hindex {k} hk => ?_⟩
  · rw [copy_eq, List.size_toByteArray, Memory.length_items, length]
  · have hfound := Memory.getElem?_items e.memory hindex hk e.start
    obtain ⟨hlt, heq⟩ := List.getElem?_eq_some_iff.mp hfound
    rw [copy_eq, octetAt_of_lt (by rw [List.size_toByteArray]; exact hlt), List.getElem_toByteArray,
      heq]

theorem rowMajor_iff : e.RowMajor content ↔ content = e.copy :=
  ⟨fun h => h.eq e.rowMajor_copy, fun h => h ▸ e.rowMajor_copy⟩

/-! ### Byte strings, arrays and tables -/

/-- The memory that has a byte string has its octets behind each other. -/
theorem octets_holding (content : ByteArray) :
    ((Memory.holding content).octets 0 content.size).toByteArray = content := by
  refine ByteArray.ext_getElem ?_ fun i hi hi' => ?_
  · rw [List.size_toByteArray, Memory.length_octets]
  · have hfound := Memory.getElem?_octets (.holding content) 0 hi'
    obtain ⟨hlt, heq⟩ := List.getElem?_eq_some_iff.mp hfound
    rw [List.getElem_toByteArray, heq, Int.zero_add, Memory.holding,
      if_neg (Int.not_lt.mpr (Int.natCast_nonneg i)), Int.toNat_natCast, octetAt_of_lt hi']

/-- Dimensions that were made so are those of items that stand behind each other. -/
theorem arePacked_packed (itemSize : Nat) (extents : List Nat) :
    arePacked itemSize (packed itemSize extents) = true := by
  induction extents with
  | nil => rfl
  | cons extent extents ih => simp [packed, arePacked, ih]

theorem suboffset_of_mem_packed {itemSize : Nat} {extents : List Nat} {d : Dimension}
    (h : d ∈ packed itemSize extents) : d.suboffset = none := by
  induction extents with
  | nil => cases h
  | cons extent extents ih =>
      rcases List.mem_cons.mp h with rfl | hmem
      · rfl
      · exact ih hmem

/-- **A byte string, an array, or a table of either exports its bytes.** -/
theorem copy_of_packed {e : ExportedMemory} {content : ByteArray} {extents : List Nat}
    (hdimensions : e.dimensions = packed e.itemSize extents) (hmemory : e.memory = .holding content)
    (hstart : e.start = 0) (hlength : e.length = content.size) : e.copy = content := by
  have hdirect : e.dimensions.all (·.suboffset.isNone) = true := by
    rw [hdimensions, List.all_eq_true]
    intro d hd
    rw [suboffset_of_mem_packed hd]
    rfl
  have hcontiguous : e.isContiguous = true := by
    rw [isContiguous, hdirect, hdimensions, arePacked_packed, Bool.or_true, Bool.and_true]
  rw [copy, if_pos hcontiguous, hmemory, hstart, hlength]
  exact octets_holding content

/-- The bytes of an array are whole items. -/
theorem length_linear (type format : String) {itemSize : Nat} {content : ByteArray}
    (h : itemSize ∣ content.size) : (linear type format itemSize content).length = content.size := by
  show content.size / itemSize * itemCount [] * itemSize = content.size
  rw [itemCount, Nat.mul_one, Nat.div_mul_cancel h]

theorem copy_linear (type format : String) {itemSize : Nat} {content : ByteArray}
    (h : itemSize ∣ content.size) : (linear type format itemSize content).copy = content :=
  copy_of_packed rfl rfl rfl (length_linear type format h)

/-- The same items as a table export the same bytes. -/
theorem copy_shaped (type format : String) {itemSize : Nat} {content : ByteArray} {extents : List Nat}
    (h : itemCount (packed itemSize extents) * itemSize = content.size) :
    ((linear type format itemSize content).shaped extents).copy = content :=
  copy_of_packed rfl rfl rfl h

-- Every second item from the last one on, and two rows, each of which begins behind the target of a pointer.
example : ((linear "memoryview" "B" 1 ⟨#[1, 2, 3, 4, 5]⟩).everyNth (-2)).copy = ⟨#[5, 3, 1]⟩ := by decide
example : copy { linear "image" "B" 1 ⟨#[17, 0, 0, 0, 0, 0, 0, 0, 15, 0, 0, 0, 0, 0, 0, 0, 1, 2, 3, 4]⟩ with
    dimensions := [⟨2, 8, some 1⟩, ⟨2, 1, none⟩] } = ⟨#[3, 4, 1, 2]⟩ := by decide

end ExportedMemory

end SharedDictionary
