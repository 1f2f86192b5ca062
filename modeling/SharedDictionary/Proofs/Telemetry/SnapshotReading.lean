import SharedDictionary.Telemetry.SnapshotText
import SharedDictionary.Proofs.Text.Reading

/-!
# Texts of snapshots

A document denotes a snapshot if it is an object that has every field exactly once, with its content and among
members of any other names, or an array of the contents in their order (`Json.Value.Denotes`).  These are the
texts that are read, and every other document is refused.
-/

namespace SharedDictionary

open SharedDictionary.Json

/-! ### The contents of fields -/

/-- What a field holds. -/
inductive Content where
  | number (n : Int)
  | flag (b : Bool)
  | levels (levels : List Int32)

/-- What a field of a snapshot holds. -/
def SnapshotField.content (s : Snapshot) : SnapshotField → Content
  | dictId => .number s.dictId.toNat
  | dictSize => .number s.dictSize.toNat
  | isRaw => .flag s.isRaw
  | cachedLevels => .levels s.cachedLevels
  | formatChecks => .number s.counters.formatChecks.toNat
  | digestsBuilt => .number s.counters.digestsBuilt.toNat
  | digestHits => .number s.counters.digestHits.toNat
  | digestFailures => .number s.counters.digestFailures.toNat
  | decoderDigestsBuilt => .number s.counters.decoderDigestsBuilt.toNat
  | undigestedLoads => .number s.counters.undigestedLoads.toNat
  | prefixLoads => .number s.counters.prefixLoads.toNat

theorem SnapshotField.mem_all (field : SnapshotField) : field ∈ all := by
  cases field <;> decide

/-- A snapshot is what its fields hold. -/
theorem Snapshot.ext_content {s s' : Snapshot}
    (h : ∀ field : SnapshotField, field.content s = field.content s') : s = s' := by
  have hnumber : ∀ {m n : Nat}, Content.number m = .number n → m = n := fun heq =>
    Int.ofNat.inj (Content.number.inj heq)
  obtain ⟨dictId, dictSize, isRaw, cachedLevels, counters⟩ := s
  obtain ⟨dictId', dictSize', isRaw', cachedLevels', counters'⟩ := s'
  obtain rfl := UInt32.toNat_inj.mp (hnumber (h .dictId))
  obtain rfl := UInt64.toNat_inj.mp (hnumber (h .dictSize))
  obtain rfl := Content.flag.inj (h .isRaw)
  obtain rfl := Content.levels.inj (h .cachedLevels)
  obtain ⟨formatChecks, digestsBuilt, digestHits, digestFailures, decoder, undigested, prefixed⟩ := counters
  obtain ⟨formatChecks', digestsBuilt', digestHits', digestFailures', decoder', undigested', prefixed'⟩ :=
    counters'
  obtain rfl := UInt64.toNat_inj.mp (hnumber (h .formatChecks))
  obtain rfl := UInt64.toNat_inj.mp (hnumber (h .digestsBuilt))
  obtain rfl := UInt64.toNat_inj.mp (hnumber (h .digestHits))
  obtain rfl := UInt64.toNat_inj.mp (hnumber (h .digestFailures))
  obtain rfl := UInt64.toNat_inj.mp (hnumber (h .decoderDigestsBuilt))
  obtain rfl := UInt64.toNat_inj.mp (hnumber (h .undigestedLoads))
  obtain rfl := UInt64.toNat_inj.mp (hnumber (h .prefixLoads))
  rfl

/-! ### What documents denote -/

namespace Json.Value

/-- The level that a value is. -/
def level? (v : Value) : Option Int32 := (v.wholeBetween? (-2 ^ 31) (2 ^ 31 - 1)).map Int32.ofInt

/-- What a value can be for a field.  Numbers are whole ones, and so are levels. -/
def content? : Value → Option Content
  | .number n => n.whole?.map .number
  | .bool b => some (.flag b)
  | .emptyArray _ => some (.levels [])
  | .array es => (es.toList.mapM level?).map .levels
  | _ => none

end Json.Value

/-- A member of an object is named as a field. -/
def SnapshotField.names (field : SnapshotField) (m : Key × Value) : Bool := m.1.name? == some field.name

/-- A value denotes a snapshot. -/
def Json.Value.Denotes (v : Value) (s : Snapshot) : Prop :=
  match v with
  | .object ms =>
    (∀ m ∈ ms.toList, m.1.name?.isSome = true)
      ∧ ∀ field : SnapshotField, ∃ m, ms.toList.filter field.names = [m]
        ∧ m.2.content? = some (field.content s)
  | .array es =>
    List.Forall₂ (fun v (field : SnapshotField) => v.content? = some (field.content s)) es.toList
      SnapshotField.all
  | _ => False

/-! ### Reading fields -/

/-- What is read, with the rest of the text, has a property; if nothing has it, reading fails. -/
def Finds (outcome : Reading Snapshot) (property : Snapshot → Prop) (rest : List Char) : Prop :=
  (∃ s, outcome = .ok (s, rest) ∧ property s) ∨ (∃ e, outcome = .error e) ∧ ∀ s, ¬property s

/-- Reading for a field finds a snapshot in which the field holds what is written. -/
theorem Json.Reads.finds {α : Type} {outcome : Reading α} {value? : Option α} {rest : List Char}
    (h : Reads outcome value? rest) {property : Snapshot → Prop} (put : α → Snapshot)
    (hsome : ∀ value, value? = some value → property (put value))
    (hnone : value? = none → ∀ s, ¬property s) :
    Finds (outcome.map fun (value, rest) => (put value, rest)) property rest := by
  cases value? with
  | some value =>
      refine .inl ⟨put value, ?_, hsome value rfl⟩
      exact congrArg (Except.map _) h
  | none =>
      obtain ⟨e, h⟩ := h
      exact .inr ⟨⟨e, congrArg (Except.map _) h⟩, hnone rfl⟩

namespace Json.Value

theorem wholeBetween?_eq_some {v : Value} {low high n : Int} :
    v.wholeBetween? low high = some n ↔ v.content? = some (.number n) ∧ low ≤ n ∧ n ≤ high := by
  cases v with
  | number numeral =>
      rw [wholeBetween?, content?, Option.filter_eq_some_iff, Option.map_eq_some_iff]
      constructor
      · rintro ⟨hwhole, hbetween⟩
        exact ⟨⟨n, hwhole, rfl⟩, of_decide_eq_true hbetween⟩
      · rintro ⟨⟨m, hwhole, heq⟩, hbetween⟩
        cases heq
        exact ⟨hwhole, decide_eq_true hbetween⟩
  | array es =>
      refine ⟨fun h => (by cases h), fun h => ?_⟩
      obtain ⟨_, _, heq⟩ := Option.map_eq_some_iff.mp h.1
      cases heq
  | _ => exact ⟨fun h => (by cases h), fun h => (by cases h.1)⟩

theorem bool?_eq_some {v : Value} {b : Bool} : v.bool? = some b ↔ v.content? = some (.flag b) := by
  cases v with
  | bool b' => exact ⟨fun h => congrArg _ (congrArg _ (Option.some.inj h)), fun h => by cases h; rfl⟩
  | number n =>
      refine ⟨fun h => (by cases h), fun h => ?_⟩
      obtain ⟨_, _, h⟩ := Option.map_eq_some_iff.mp h
      cases h
  | array es =>
      refine ⟨fun h => (by cases h), fun h => ?_⟩
      obtain ⟨_, _, h⟩ := Option.map_eq_some_iff.mp h
      cases h
  | _ => exact ⟨fun h => (by cases h), fun h => (by cases h)⟩

theorem elements?_eq_some {v : Value} {levels : List Int32} :
    v.elements?.bind (·.mapM level?) = some levels ↔ v.content? = some (.levels levels) := by
  cases v with
  | emptyArray gap => exact ⟨fun h => by cases h; rfl, fun h => by cases h; rfl⟩
  | array es =>
      rw [elements?, Option.bind_some, content?, Option.map_eq_some_iff]
      constructor
      · exact fun h => ⟨levels, h, rfl⟩
      · rintro ⟨_, h, heq⟩
        cases heq
        exact h
  | number n =>
      refine ⟨fun h => (by cases h), fun h => ?_⟩
      obtain ⟨_, _, h⟩ := Option.map_eq_some_iff.mp h
      cases h
  | _ => exact ⟨fun h => (by cases h), fun h => (by cases h)⟩

theorem readLevel_write (v : Value) (gap : Gap) {rest : List Char} (hrest : Ended rest) :
    Reads (Snapshot.readLevel (gap.chars ++ v.write rest)) v.level? rest :=
  (v.readWhole_write (by decide) (by decide) gap hrest).map Int32.ofInt

/-- Reading a number finds the snapshots whose field is that number, where the field has as many bits. -/
theorem finds_number (v : Value) (gap : Gap) {rest : List Char} (hrest : Ended rest) {bits : Nat}
    (hbits : bits ≤ 64) (field : SnapshotField) (put : Nat → Snapshot)
    (hcontent : ∀ s, ∃ n < 2 ^ bits, field.content s = .number (n : Nat))
    (hput : ∀ n < 2 ^ bits, field.content (put n) = .number (n : Nat)) :
    Finds ((readUnsigned bits (gap.chars ++ v.write rest)).map fun (value, rest) => (put value, rest))
      (fun s => v.content? = some (field.content s)) rest := by
  have hpower : (2 : Nat) ^ bits ≤ 2 ^ 64 := Nat.pow_le_pow_right (by decide) hbits
  have hcast : ((2 ^ bits : Nat) : Int) = 2 ^ bits := by push_cast; rfl
  have hwhole : Reads (readWhole 0 (2 ^ bits - 1) (gap.chars ++ v.write rest))
      (v.wholeBetween? 0 (2 ^ bits - 1)) rest := v.readWhole_write (by decide) (by omega) gap hrest
  have hread := hwhole.map Int.toNat
  refine hread.finds put (fun n hn => ?_) (fun hnone s hs => ?_)
  · obtain ⟨m, hm, rfl⟩ := Option.map_eq_some_iff.mp hn
    obtain ⟨hcontent, hlow, hhigh⟩ := wholeBetween?_eq_some.mp hm
    rw [hput _ (by omega), hcontent, Int.toNat_of_nonneg hlow]
  · obtain ⟨n, hn, hfield⟩ := hcontent s
    rw [hfield] at hs
    have hsome : v.wholeBetween? 0 (2 ^ bits - 1) = some (n : Int) :=
      wholeBetween?_eq_some.mpr ⟨hs, by omega, by omega⟩
    rw [hsome] at hnone
    cases hnone

end Json.Value

namespace Snapshot

/-- Reading a counter finds the snapshots in which it is what is written. -/
theorem readInto_write (s : Snapshot) (v : Value) (gap : Gap) {rest : List Char} (hrest : Ended rest)
    (field : SnapshotField) (set : Counters → UInt64 → Counters) (get : Counters → UInt64)
    (hfield : ∀ s, field.content s = .number (get s.counters).toNat)
    (hset : ∀ counters value, get (set counters value) = value) :
    Finds (s.readInto set (gap.chars ++ v.write rest)) (fun s => v.content? = some (field.content s))
      rest := by
  have hread : s.readInto set (gap.chars ++ v.write rest)
      = (readUnsigned 64 (gap.chars ++ v.write rest)).map fun (n, rest) =>
        ({ s with counters := set s.counters (UInt64.ofNat n) }, rest) := by
    rw [readInto, readCounter]
    cases readUnsigned 64 (gap.chars ++ v.write rest) <;> rfl
  rw [hread]
  refine v.finds_number gap hrest (Nat.le_refl 64) field
    (fun n => { s with counters := set s.counters (UInt64.ofNat n) })
    (fun s => ⟨_, (get s.counters).toNat_lt, hfield s⟩) fun n hn => ?_
  rw [hfield, hset, UInt64.toNat_ofNat_of_lt' hn]

/-- **Reading a field** finds the snapshots in which the field holds what is written. -/
theorem readField_write (s : Snapshot) (field : SnapshotField) (v : Value) (gap : Gap) {rest : List Char}
    (hrest : Ended rest) :
    Finds (s.readField field (gap.chars ++ v.write rest)) (fun s => v.content? = some (field.content s))
      rest := by
  have hcounter := fun field set => s.readInto_write v gap hrest field set
  cases field with
  | dictId =>
      refine v.finds_number gap hrest (by decide) .dictId
        (fun n => { s with dictId := UInt32.ofNat n }) (fun s => ⟨_, s.dictId.toNat_lt, rfl⟩) fun n hn => ?_
      rw [SnapshotField.content, UInt32.toNat_ofNat_of_lt' hn]
  | dictSize =>
      refine v.finds_number gap hrest (by decide) .dictSize
        (fun n => { s with dictSize := UInt64.ofNat n }) (fun s => ⟨_, s.dictSize.toNat_lt, rfl⟩)
        fun n hn => ?_
      rw [SnapshotField.content, UInt64.toNat_ofNat_of_lt' hn]
  | isRaw =>
      refine (v.readBool_write gap rest).finds (fun b => { s with isRaw := b })
        (fun b hb => Value.bool?_eq_some.mp hb) fun hnone s hs => ?_
      rw [Value.bool?_eq_some.mpr hs] at hnone
      cases hnone
  | cachedLevels =>
      refine (v.readArray_write (fun v _ hrest => v.readLevel_write .none hrest) gap rest).finds
        (fun levels => { s with cachedLevels := levels })
        (fun levels hlevels => Value.elements?_eq_some.mp hlevels) fun hnone s hs => ?_
      rw [Value.elements?_eq_some.mpr hs] at hnone
      cases hnone
  | formatChecks =>
      rw [readField]
      exact hcounter .formatChecks _ Counters.formatChecks (fun _ => rfl) fun _ _ => rfl
  | digestsBuilt =>
      rw [readField]
      exact hcounter .digestsBuilt _ Counters.digestsBuilt (fun _ => rfl) fun _ _ => rfl
  | digestHits =>
      rw [readField]
      exact hcounter .digestHits _ Counters.digestHits (fun _ => rfl) fun _ _ => rfl
  | digestFailures =>
      rw [readField]
      exact hcounter .digestFailures _ Counters.digestFailures (fun _ => rfl) fun _ _ => rfl
  | decoderDigestsBuilt =>
      rw [readField]
      exact hcounter .decoderDigestsBuilt _ Counters.decoderDigestsBuilt (fun _ => rfl) fun _ _ => rfl
  | undigestedLoads =>
      rw [readField]
      exact hcounter .undigestedLoads _ Counters.undigestedLoads (fun _ => rfl) fun _ _ => rfl
  | prefixLoads =>
      rw [readField]
      exact hcounter .prefixLoads _ Counters.prefixLoads (fun _ => rfl) fun _ _ => rfl

/-- Reading a field leaves the others as they are. -/
theorem content_of_readField {s s' : Snapshot} {field other : SnapshotField} {cs rest : List Char}
    (h : s.readField field cs = .ok (s', rest)) (hother : other ≠ field) :
    other.content s' = other.content s := by
  have hput : ∀ {α : Type} {outcome : Reading α} {put : α × List Char → Snapshot × List Char},
      outcome.map put = .ok (s', rest) → ∃ found, put found = (s', rest) := by
    rintro α (e | found) put h
    · cases h
    · exact ⟨found, Except.ok.inj h⟩
  cases field <;> simp only [readField, readInto] at h <;> obtain ⟨found, heq⟩ := hput h <;> cases heq <;>
    cases other <;> first | rfl | exact absurd rfl hother

/-! ### Reading arrays -/

end Snapshot

theorem Finds.congr {outcome : Reading Snapshot} {property property' : Snapshot → Prop} {rest : List Char}
    (h : Finds outcome property rest) (hiff : ∀ s, property s ↔ property' s) :
    Finds outcome property' rest := by
  rwa [show property' = property from funext fun s => propext (hiff s).symm]

/-- An array does not end where another element is found. -/
theorem Json.endArray_of_nextElement {first : Bool} {cs found : List Char}
    (h : nextElement first cs = .ok (some found)) : ∃ e, endArray cs = .error e := by
  rw [nextElement] at h
  rw [endArray]
  cases hcs : skipSpace cs with
  | nil =>
      rw [hcs] at h
      cases h
  | cons c tail =>
      by_cases hclose : c = ']'
      · rw [hcs, hclose] at h
        cases h
      · refine ⟨.malformed, ?_⟩
        split
        · cases ‹_›
        · exact absurd (List.cons.inj ‹_›).1 hclose
        · rfl

namespace Snapshot

/-- What is read from the elements of an array: the fields hold the elements, and others are as they were. -/
def Lists (s : Snapshot) (fields : List SnapshotField) (vs : List Value) (s' : Snapshot) : Prop :=
  List.Forall₂ (fun v (field : SnapshotField) => v.content? = some (field.content s')) vs fields
    ∧ ∀ field, field ∉ fields → field.content s' = field.content s

/-- Where a field holds its element, what is left to read does not depend on it. -/
theorem lists_cons_iff {s s₁ s' : Snapshot} {field : SnapshotField} {fields : List SnapshotField} {v : Value}
    {vs : List Value} (hnew : field ∉ fields) (hfield : v.content? = some (field.content s₁))
    (hothers : ∀ other, other ≠ field → other.content s₁ = other.content s) :
    s₁.Lists fields vs s' ↔ s.Lists (field :: fields) (v :: vs) s' := by
  constructor
  · rintro ⟨hlist, hkept⟩
    refine ⟨.cons (by rw [hfield, hkept field hnew]) hlist, fun other hother => ?_⟩
    rw [List.mem_cons, not_or] at hother
    rw [hkept other hother.2, hothers other hother.1]
  · rintro ⟨hlist, hkept⟩
    obtain ⟨hv, hlist⟩ := List.forall₂_cons.mp hlist
    refine ⟨hlist, fun other hother => ?_⟩
    by_cases hsame : other = field
    · rw [hsame]
      exact Option.some.inj (hv.symm.trans hfield)
    · rw [hkept other fun hmem => (List.mem_cons.mp hmem).elim hsame hother, hothers other hsame]

/-- An element is read for a field, and then the others. -/
theorem readListed_element {s : Snapshot} {field : SnapshotField} {fields : List SnapshotField}
    (hnew : field ∉ fields) {first : Bool} {cs tail rest : List Char} {v : Value} (htail : Ended tail)
    (hnext : nextElement first cs = .ok (some (v.write tail))) {vs : List Value}
    (hmore : ∀ s : Snapshot, Finds (s.readListed false tail fields) (s.Lists fields vs) rest) :
    Finds (s.readListed first cs (field :: fields)) (s.Lists (field :: fields) (v :: vs)) rest := by
  rcases s.readField_write field v .none htail with ⟨s₁, hread, hfield⟩ | ⟨⟨e, herror⟩, hnone⟩
  · have hread : s.readField field (v.write tail) = .ok (s₁, tail) := hread
    have hstep : s.readListed first cs (field :: fields) = s₁.readListed false tail fields := by
      simp only [readListed, hnext, hread]
    rw [hstep]
    exact (hmore s₁).congr fun s' =>
      lists_cons_iff hnew hfield fun other hother => content_of_readField hread hother
  · have herror : s.readField field (v.write tail) = .error e := herror
    refine .inr ⟨⟨e, by simp only [readListed, hnext, herror]⟩, fun s' ⟨hlist, _⟩ => ?_⟩
    exact hnone s' (List.forall₂_cons.mp hlist).1

/-- **Elements are read into as many fields**, and every other array is refused. -/
theorem readListed_write (s : Snapshot) {fields : List SnapshotField} (hnodup : fields.Nodup) (es : Elements)
    {first : Bool} {cs rest : List Char}
    (hnext : nextElement first cs = .ok (some (skipSpace (es.write (']' :: rest))))) :
    Finds (s.readListed first cs fields) (s.Lists fields es.toList) rest := by
  cases fields with
  | nil =>
      obtain ⟨e, hend⟩ := endArray_of_nextElement hnext
      refine .inr ⟨⟨e, by simp only [readListed, hend]; rfl⟩, fun s' ⟨hlist, _⟩ => ?_⟩
      cases es <;> cases hlist
  | cons field fields =>
      obtain ⟨hnew, hnodup⟩ := List.nodup_cons.mp hnodup
      cases es with
      | last before v after =>
          rw [Elements.write, skipSpace_gap, v.skipSpace_write] at hnext
          refine readListed_element hnew (after.ended (ended_cons rfl rest)) hnext fun s₁ => ?_
          cases fields with
          | nil =>
              refine .inl ⟨s₁, ?_, .nil, fun _ _ => rfl⟩
              simp only [readListed, endArray_gap]
              rfl
          | cons other fields =>
              refine .inr ⟨⟨.unfit, by simp only [readListed, nextElement_end]⟩, fun s' ⟨hlist, _⟩ => ?_⟩
              cases hlist
      | cons before v after es =>
          rw [Elements.write, skipSpace_gap, v.skipSpace_write] at hnext
          obtain ⟨c, tail, hcs, hend⟩ := es.exists_skipSpace_write (']' :: rest)
          refine readListed_element hnew (after.ended (ended_cons rfl _)) hnext fun s₁ => ?_
          exact s₁.readListed_write hnodup es ((nextElement_comma after hcs hend).trans (by rw [hcs]))

end Snapshot

/-! ### Reading objects -/

namespace SnapshotField

theorem ofName?_name (field : SnapshotField) : ofName? field.name = some field := by
  cases field <;> rfl

theorem name_of_ofName? {name : String} {field : SnapshotField} (h : ofName? name = some field) :
    field.name = name := by
  rw [ofName?] at h
  have hfound := List.find?_some h
  exact eq_of_beq hfound

/-- A member that is named as a field is named as no other. -/
theorem names_iff {field other : SnapshotField} {key : Key} {v : Value} (h : key.name? = some field.name) :
    other.names (key, v) = true ↔ other = field := by
  rw [names, h, beq_iff_eq]
  constructor
  · intro heq
    have hsame := other.ofName?_name
    rw [← Option.some.inj heq, field.ofName?_name] at hsame
    exact (Option.some.inj hsame).symm
  · rintro rfl
    rfl

/-- A member whose name is that of no field is named as none. -/
theorem not_names {key : Key} {name : String} (hname : key.name? = some name) (h : ofName? name = none)
    (field : SnapshotField) (v : Value) : field.names (key, v) = false := by
  rw [names, hname, beq_eq_false_iff_ne]
  rintro heq
  rw [Option.some.inj heq, field.ofName?_name] at h
  cases h

end SnapshotField

namespace Json

/-- The text of members after the opening quote of their first key, and the rest. -/
def Members.writeOpened (rest : List Char) : Members → List Char
  | .last key before v after => key.writeOpened (before.chars ++ v.write (after.chars ++ rest))
  | .cons key before v after ms =>
    key.writeOpened (before.chars ++ v.write (after.chars ++ ',' :: ms.write rest))

theorem Members.skipSpace_write (ms : Members) (rest : List Char) :
    skipSpace (ms.write rest) = '"' :: ms.writeOpened rest := by
  cases ms <;> rw [write, Key.write, skipSpace_gap, skipSpace_cons rfl] <;> rfl

theorem nextKey_first (ms : Members) (rest : List Char) :
    nextKey true (ms.write rest) = .ok (some (ms.writeOpened rest)) := by
  rw [nextKey, ms.skipSpace_write]
  rfl

theorem nextKey_comma (gap : Gap) (ms : Members) (rest : List Char) :
    nextKey false (gap.chars ++ ',' :: ms.write rest) = .ok (some (ms.writeOpened rest)) := by
  have hcomma : skipSpace (gap.chars ++ ',' :: ms.write rest) = ',' :: ms.write rest := by
    rw [skipSpace_gap, skipSpace_cons rfl]
  simp [nextKey, hcomma, ms.skipSpace_write]

theorem nextKey_end (first : Bool) (gap : Gap) (rest : List Char) :
    nextKey first (gap.chars ++ '\x7d' :: rest) = .ok none := by
  rw [nextKey, skipSpace_gap]
  rfl

end Json

namespace Snapshot

/-- What is read from the members of an object: every field that is not known yet has one member and holds
it, and those that are known have none and are as they were. -/
def Completes (s : Snapshot) (known : List SnapshotField) (ms : List (Key × Value)) (s' : Snapshot) : Prop :=
  (∀ m ∈ ms, m.1.name?.isSome = true)
    ∧ ∀ field : SnapshotField,
      (field ∈ known → ms.filter field.names = [] ∧ field.content s' = field.content s)
        ∧ (field ∉ known → ∃ m, ms.filter field.names = [m] ∧ m.2.content? = some (field.content s'))

section Members

variable {s s' : Snapshot} {known : List SnapshotField} {ms : List (Key × Value)} {key : Key} {v : Value}

/-- Nothing is left to read once every field is known. -/
theorem completes_nil_iff : s.Completes known [] s' ↔ (∀ field, field ∈ known) ∧ s' = s := by
  constructor
  · rintro ⟨-, hfields⟩
    have hknown : ∀ field : SnapshotField, field ∈ known := fun field => by
      by_contra hnew
      obtain ⟨m, hm, -⟩ := (hfields field).2 hnew
      cases hm
    exact ⟨hknown, ext_content fun field => ((hfields field).1 (hknown field)).2⟩
  · rintro ⟨hknown, rfl⟩
    exact ⟨nofun, fun field => ⟨fun _ => ⟨rfl, rfl⟩, fun hnew => absurd (hknown field) hnew⟩⟩

/-- A member that is named as no field makes no difference. -/
theorem completes_cons_of_not_names (hname : key.name?.isSome = true)
    (h : ∀ field : SnapshotField, field.names (key, v) = false) :
    s.Completes known ms s' ↔ s.Completes known ((key, v) :: ms) s' := by
  have hfilter : ∀ field : SnapshotField, ((key, v) :: ms).filter field.names = ms.filter field.names :=
    fun field => List.filter_cons_of_neg (Bool.eq_false_iff.mp (h field))
  simp only [Completes, hfilter, List.forall_mem_cons, hname, true_and]

/-- A field that is known must not come again. -/
theorem not_completes_of_known {field : SnapshotField} (hname : key.name? = some field.name)
    (hknown : field ∈ known) : ¬s.Completes known ((key, v) :: ms) s' := by
  rintro ⟨-, hfields⟩
  have hnone := ((hfields field).1 hknown).1
  rw [List.filter_cons_of_pos ((SnapshotField.names_iff hname).mpr rfl)] at hnone
  cases hnone

/-- A field has the content that its member has. -/
theorem content?_of_completes {field : SnapshotField} (hname : key.name? = some field.name)
    (hnew : field ∉ known) (h : s.Completes known ((key, v) :: ms) s') :
    v.content? = some (field.content s') ∧ ms.filter field.names = [] := by
  obtain ⟨m, hfilter, hcontent⟩ := (h.2 field).2 hnew
  rw [List.filter_cons_of_pos ((SnapshotField.names_iff hname).mpr rfl)] at hfilter
  obtain ⟨rfl, hrest⟩ := List.cons.inj hfilter
  exact ⟨hcontent, hrest⟩

/-- Where a field holds the value of its member, it is known from there on. -/
theorem completes_cons_iff {s₁ : Snapshot} {field : SnapshotField} (hname : key.name? = some field.name)
    (hnew : field ∉ known) (hfield : v.content? = some (field.content s₁))
    (hothers : ∀ other, other ≠ field → other.content s₁ = other.content s) :
    s₁.Completes (field :: known) ms s' ↔ s.Completes known ((key, v) :: ms) s' := by
  have hfilter : ∀ other, other ≠ field →
      ((key, v) :: ms).filter other.names = ms.filter other.names := fun other hother =>
    List.filter_cons_of_neg fun hnames => hother ((SnapshotField.names_iff hname).mp hnames)
  constructor
  · rintro ⟨hnames, hfields⟩
    refine ⟨List.forall_mem_cons.mpr ⟨by rw [hname]; rfl, hnames⟩, fun other => ?_⟩
    by_cases hsame : other = field
    · subst hsame
      obtain ⟨hnone, hkept⟩ := (hfields other).1 List.mem_cons_self
      refine ⟨fun hknown => absurd hknown hnew, fun _ => ⟨(key, v), ?_, ?_⟩⟩
      · rw [List.filter_cons_of_pos ((SnapshotField.names_iff hname).mpr rfl), hnone]
      · rw [hfield, hkept]
    · rw [hfilter other hsame, ← hothers other hsame]
      refine ⟨fun hknown => (hfields other).1 (List.mem_cons_of_mem _ hknown), fun hnew => ?_⟩
      exact (hfields other).2 (List.not_mem_cons_of_ne_of_not_mem hsame hnew)
  · intro h
    refine ⟨(List.forall_mem_cons.mp h.1).2, fun other => ?_⟩
    by_cases hsame : other = field
    · subst hsame
      obtain ⟨hcontent, hnone⟩ := content?_of_completes hname hnew h
      refine ⟨fun _ => ⟨hnone, ?_⟩, fun hother => absurd List.mem_cons_self hother⟩
      exact Option.some.inj (hcontent.symm.trans hfield)
    · have hother := h.2 other
      rw [hfilter other hsame, ← hothers other hsame] at hother
      refine ⟨fun hknown => hother.1 ((List.mem_cons.mp hknown).resolve_left hsame), fun hnew => ?_⟩
      exact hother.2 fun hmem => hnew (List.mem_cons_of_mem _ hmem)

end Members

/-- Reading ends with the object; no field may be missing. -/
theorem readMembers_end (s : Snapshot) (known : List SnapshotField) (gap : Gap) (rest : List Char)
    (fuel : Nat) :
    Finds (s.readMembers known false (gap.chars ++ '\x7d' :: rest) (fuel + 1)) (s.Completes known [])
      rest := by
  have hread : s.readMembers known false (gap.chars ++ '\x7d' :: rest) (fuel + 1)
      = if SnapshotField.all.all (known.contains ·) then .ok (s, rest) else .error .unfit := by
    simp only [readMembers, nextKey_end, skipSpace_gap]
    rfl
  rw [hread]
  by_cases hall : SnapshotField.all.all (known.contains ·) = true
  · have hknown : ∀ field : SnapshotField, field ∈ known := fun field =>
      List.contains_iff_mem.mp (List.all_eq_true.mp hall field field.mem_all)
    exact .inl ⟨s, if_pos hall, completes_nil_iff.mpr ⟨hknown, rfl⟩⟩
  · refine .inr ⟨⟨.unfit, if_neg hall⟩, fun s' h => hall ?_⟩
    exact List.all_eq_true.mpr fun field _ => List.contains_iff_mem.mpr ((completes_nil_iff.mp h).1 field)

/-- A member is read or skipped by its name, and then the others. -/
theorem readMembers_member {s : Snapshot} {known : List SnapshotField} {first : Bool}
    {cs tail rest : List Char} {key : Key} {before : Gap} {v : Value} (htail : Ended tail)
    (hnext : nextKey first cs = .ok (some (key.writeOpened (before.chars ++ v.write tail)))) {fuel : Nat}
    {ms : List (Key × Value)}
    (hmore : ∀ (s : Snapshot) known,
      Finds (s.readMembers known false tail fuel) (s.Completes known ms) rest) :
    Finds (s.readMembers known first cs (fuel + 1)) (s.Completes known ((key, v) :: ms)) rest := by
  have hkey : Reads (readString (key.writeOpened (before.chars ++ v.write tail))) key.name?
      (key.after.chars ++ ':' :: (before.chars ++ v.write tail)) := readString_writeString _ _
  cases hname : key.name? with
  | none =>
      rw [hname] at hkey
      obtain ⟨e, he⟩ := hkey
      refine .inr ⟨⟨e, by simp only [readMembers, hnext, he]⟩, fun s' h => ?_⟩
      have hsome := (List.forall_mem_cons.mp h.1).1
      rw [hname] at hsome
      cases hsome
  | some name =>
      rw [hname] at hkey
      have hkey : readString (key.writeOpened (before.chars ++ v.write tail))
          = .ok (name, key.after.chars ++ ':' :: (before.chars ++ v.write tail)) := hkey
      cases hfield : SnapshotField.ofName? name with
      | none =>
          have hstep : s.readMembers known first cs (fuel + 1) = s.readMembers known false tail fuel := by
            simp only [readMembers, hnext, hkey, hfield, readColon_gap, v.skipValue_write before htail]
          rw [hstep]
          refine (hmore s known).congr fun s' => completes_cons_of_not_names (by rw [hname]; rfl) ?_
          exact fun field => SnapshotField.not_names hname hfield field v
      | some field =>
          obtain rfl := SnapshotField.name_of_ofName? hfield
          by_cases hknown : field ∈ known
          · refine .inr ⟨⟨.unfit, ?_⟩, fun s' => not_completes_of_known hname hknown⟩
            simp only [readMembers, hnext, hkey, hfield, List.contains_iff_mem.mpr hknown, if_true]
          · have hcontains : known.contains field = false :=
              Bool.eq_false_iff.mpr fun h => hknown (List.contains_iff_mem.mp h)
            rcases s.readField_write field v before htail with ⟨s₁, hread, hcontent⟩ | ⟨⟨e, he⟩, hnone⟩
            · have hstep : s.readMembers known first cs (fuel + 1)
                  = s₁.readMembers (field :: known) false tail fuel := by
                simp only [readMembers, hnext, hkey, hfield, hcontains, Bool.false_eq_true, if_false,
                  readColon_gap, hread]
              rw [hstep]
              exact (hmore s₁ _).congr fun s' => completes_cons_iff hname hknown hcontent
                fun other hother => content_of_readField hread hother
            · refine .inr ⟨⟨e, ?_⟩, fun s' h => hnone s' (content?_of_completes hname hknown h).1⟩
              simp only [readMembers, hnext, hkey, hfield, hcontains, Bool.false_eq_true, if_false,
                readColon_gap, he]

/-- **Members are read up to the end of their object**, with every field once. -/
theorem readMembers_write (s : Snapshot) (known : List SnapshotField) (ms : Members) {first : Bool}
    {cs rest : List Char} (hnext : nextKey first cs = .ok (some (ms.writeOpened ('\x7d' :: rest))))
    {fuel : Nat} (hfuel : ms.toList.length < fuel) :
    Finds (s.readMembers known first cs fuel) (s.Completes known ms.toList) rest := by
  obtain ⟨fuel, rfl⟩ := Nat.exists_eq_add_one_of_ne_zero (Nat.ne_zero_of_lt hfuel)
  cases ms with
  | last key before v after =>
      obtain ⟨fuel, rfl⟩ :=
        Nat.exists_eq_add_one_of_ne_zero (Nat.ne_zero_of_lt (Nat.lt_of_succ_lt_succ hfuel))
      exact readMembers_member (after.ended (ended_cons rfl rest)) hnext fun s known =>
        s.readMembers_end known after rest fuel
  | cons key before v after ms =>
      exact readMembers_member (after.ended (ended_cons rfl _)) hnext fun s known =>
        s.readMembers_write known ms (nextKey_comma after ms _) (Nat.lt_of_succ_lt_succ hfuel)

end Snapshot

/-! ### Reading documents -/

/-- Every member takes a character. -/
theorem Json.Members.length_le_write (ms : Members) (rest : List Char) :
    ms.toList.length + rest.length ≤ (ms.write rest).length := by
  cases ms with
  | last key before v after =>
      have hkey := key.length_lt_write (before.chars ++ v.write (after.chars ++ rest))
      have hvalue := v.steps_lt (after.chars ++ rest)
      rw [List.length_append] at hkey hvalue
      rw [toList, write, List.length_singleton]
      omega
  | cons key before v after ms =>
      have hkey := key.length_lt_write (before.chars ++ v.write (after.chars ++ ',' :: ms.write rest))
      have hvalue := v.steps_lt (after.chars ++ ',' :: ms.write rest)
      have hrest := ms.length_le_write rest
      rw [List.length_append] at hkey
      rw [List.length_append, List.length_cons] at hvalue
      rw [toList, write, List.length_cons]
      omega

namespace Snapshot

/-- **A value is read as what it denotes.** -/
theorem read_write (v : Value) (gap : Gap) (rest : List Char) :
    Finds (read (gap.chars ++ v.write rest)) v.Denotes rest := by
  rw [read, skipSpace_gap, v.skipSpace_write]
  cases v with
  | array es =>
      obtain ⟨c, tail, hcs, hend⟩ := es.exists_skipSpace_write (']' :: rest)
      refine (readListed_write default (by decide) es
        ((nextElement_first hcs hend).trans (by rw [hcs]))).congr fun s => ?_
      exact and_iff_left fun field hfield => absurd field.mem_all hfield
  | object ms =>
      refine (readMembers_write default [] ms (nextKey_first ms _)
        (Nat.lt_succ_of_le (Nat.le_of_add_right_le (ms.length_le_write _)))).congr fun s => ?_
      refine and_congr_right fun _ => forall_congr' fun field => ?_
      exact ⟨fun h => h.2 List.not_mem_nil, fun h => ⟨nofun, fun _ => h⟩⟩
  | emptyArray inner =>
      refine .inr ⟨⟨.unfit, ?_⟩, nofun⟩
      simp only [Value.write, SnapshotField.all, readListed, nextElement_end]
  | emptyObject inner =>
      refine .inr ⟨⟨.unfit, ?_⟩, nofun⟩
      simp only [Value.write, readMembers, nextKey_end]
      rfl
  | number n =>
      refine .inr ⟨?_, nofun⟩
      rw [Value.write]
      split
      · exact absurd ‹_› (n.write_ne rfl (by decide) rest _)
      · exact absurd ‹_› (n.write_ne rfl (by decide) rest _)
      · exact ⟨_, rfl⟩
  | bool b => cases b <;> exact .inr ⟨⟨_, rfl⟩, nofun⟩
  | _ => exact .inr ⟨⟨_, rfl⟩, nofun⟩

/-- Elements that are listed determine the fields. -/
theorem content_eq_of_forall₂ {s s' : Snapshot} {vs : List Value} {fields : List SnapshotField}
    (h : List.Forall₂ (fun v (field : SnapshotField) => v.content? = some (field.content s)) vs fields)
    (h' : List.Forall₂ (fun v (field : SnapshotField) => v.content? = some (field.content s')) vs fields) :
    ∀ field ∈ fields, field.content s = field.content s' := by
  induction h with
  | nil => exact nofun
  | @cons v field vs fields hfield _ ih =>
      obtain ⟨hfield', hrest⟩ := List.forall₂_cons.mp h'
      exact List.forall_mem_cons.mpr ⟨Option.some.inj (hfield.symm.trans hfield'), ih hrest⟩

/-- A value denotes at most one snapshot. -/
theorem eq_of_denotes {v : Value} {s s' : Snapshot} (h : v.Denotes s) (h' : v.Denotes s') : s = s' := by
  cases v with
  | array es => exact ext_content fun field => content_eq_of_forall₂ h h' field field.mem_all
  | object ms =>
      refine ext_content fun field => ?_
      obtain ⟨m, hm, hcontent⟩ := h.2 field
      obtain ⟨m', hm', hcontent'⟩ := h'.2 field
      obtain ⟨rfl, -⟩ := List.cons.inj (hm.symm.trans hm')
      exact Option.some.inj (hcontent.symm.trans hcontent')
  | _ => exact absurd h nofun

/-- **A document is parsed to the snapshot that it denotes**, and refused if it denotes none. -/
theorem parse_document (d : Document) :
    (∃ s, parse d.text = .ok s ∧ d.value.Denotes s)
      ∨ (∃ e, parse d.text = .error e) ∧ ∀ s, ¬d.value.Denotes s := by
  have hchars : d.text.toList = d.before.chars ++ d.value.write d.after.chars := String.toList_ofList
  have hend : skipSpace d.after.chars = [] := by
    have hskip := skipSpace_gap d.after []
    rwa [List.append_nil] at hskip
  rw [parse, hchars]
  rcases read_write d.value d.before d.after.chars with ⟨s, hread, hdenotes⟩ | ⟨⟨e, he⟩, hnone⟩
  · refine .inl ⟨s, ?_, hdenotes⟩
    simp only [hread, hend]
    rfl
  · exact .inr ⟨⟨e, by simp only [he]⟩, hnone⟩

theorem parse_document_eq_ok_iff (d : Document) (s : Snapshot) :
    parse d.text = .ok s ↔ d.value.Denotes s := by
  rcases parse_document d with ⟨s', hparse, hdenotes⟩ | ⟨⟨e, he⟩, hnone⟩
  · rw [hparse]
    constructor
    · rintro h
      cases h
      exact hdenotes
    · exact fun h => congrArg Except.ok (eq_of_denotes hdenotes h)
  · rw [he]
    exact ⟨nofun, fun h => absurd h (hnone s)⟩

end Snapshot

end SharedDictionary
