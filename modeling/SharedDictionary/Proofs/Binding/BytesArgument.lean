import SharedDictionary.Proofs.Binding.RoundTrip
import SharedDictionary.Proofs.Binding.RowMajor

/-!
# What a call takes for a byte string

Making a dictionary, compressing and decompressing each want a byte string.  A value is taken for one
(`ScriptValue.TakenFor`) or refused (`ScriptValue.Refused`), by all three calls alike and whatever their other
arguments are.

A value that exports memory is taken for its items in row-major order, provided that these pass for unsigned
bytes.  Which formats pass is up to the test: it knows the two formats of unsigned bytes in the byte order of
the machine, and none of other items (`OctetTest.Lawful`).  So strides, extents, pointers and the number of
dimensions decide on nothing but the order, and the format and the size of the items on everything else
(`ExportedMemory.bytes_classified`).  An array of numbers of two bytes is refused, although it has bytes like
any other (`ExportedMemory.shorts_refused`).
-/

namespace SharedDictionary

/-- What is raised for a value of a type that is taken for no byte string. -/
def Raised.notBytes (type : String) : Raised :=
  ⟨.wrongType, "dict_content must be a bytes-like object, got " ++ ("<class '" ++ type ++ "'>")⟩

namespace ScriptStore

variable {store : ScriptStore} {bound : List (String × ScriptValue)} {v : ScriptValue}

/-- Compressing looks at the level before the data. -/
theorem compressArguments_eq (hv : bound.lookup "data" = some v) {level : Int32}
    (hlevel : levelArgument bound = .ok level) :
    compressArguments bound = v.bytes.map (level, ·) := by
  simp only [compressArguments, hv, bind, Except.bind, Option.getD_some]
  cases hgiven : bound.lookup "level" with
  | none =>
      simp only [levelArgument, hgiven] at hlevel
      cases hlevel
      cases v.bytes <;> rfl
  | some given =>
      simp only [levelArgument, hgiven] at hlevel
      simp only [hlevel]
      cases v.bytes <;> rfl

/-- A dictionary of some content shows it and has its length, whatever was asked of it. -/
theorem Has.shows {name : String} {content : ByteArray} {isRaw : Bool}
    (h : store.Has name content isRaw) :
    store.attributeOf name "dict_content" = .ok (.bytes content)
      ∧ (store.find name).map (·.handle.content.size) = .ok content.size := by
  obtain ⟨w, hlookup, hw⟩ := h
  obtain ⟨hcontent, -⟩ := hw.sameContent
  have hfind : store.find name = .ok w := by
    rw [find, hlookup]
  constructor
  · rw [attributeOf, hfind, ← hcontent]
    rfl
  · rw [hfind, ← hcontent]
    rfl

end ScriptStore

/-! ### Values -/

namespace ScriptValue

variable {v : ScriptValue} {content : ByteArray}

/-- A value is taken for a byte string by all calls that want one. -/
structure TakenFor (v : ScriptValue) (content : ByteArray) : Prop where
  /-- A dictionary is made of the byte string. -/
  made : ∀ {store : ScriptStore} {positional named bound isRaw},
    Signature.makeDictionary.bind positional named = .ok bound →
    bound.lookup "dict_content" = some v → store.rawArgument bound = .ok isRaw →
    store.makeDictionary positional named = .ok (.new content isRaw)
  /-- The dictionary shows the byte string and has its length, whatever is asked of it. -/
  shown : ∀ {store : ScriptStore} {name isRaw}, store.Has name content isRaw →
    store.attributeOf name "dict_content" = .ok (.bytes content)
      ∧ (store.find name).map (·.handle.content.size) = .ok content.size
  /-- The byte string is compressed. -/
  compressed : ∀ {store : ScriptStore} {positional named bound level},
    Signature.compress.bind positional named = .ok bound → bound.lookup "data" = some v →
    ScriptStore.levelArgument bound = .ok level →
    store.compress positional named = store.compressBytes bound level content
  /-- The byte string is decompressed. -/
  decompressed : ∀ {store : ScriptStore} {positional named bound},
    Signature.decompress.bind positional named = .ok bound → bound.lookup "data" = some v →
    store.decompress positional named = store.decompressBytes bound content

/-- A value is refused by all calls that want a byte string, before any dictionary is asked. -/
structure Refused (v : ScriptValue) : Prop where
  made : ∀ {store : ScriptStore} {positional named bound isRaw},
    Signature.makeDictionary.bind positional named = .ok bound →
    bound.lookup "dict_content" = some v → store.rawArgument bound = .ok isRaw →
    store.makeDictionary positional named = .error (.notBytes v.typeName)
  compressed : ∀ {store : ScriptStore} {positional named bound level},
    Signature.compress.bind positional named = .ok bound → bound.lookup "data" = some v →
    ScriptStore.levelArgument bound = .ok level →
    store.compress positional named = (.error (.notBytes v.typeName), store)
  decompressed : ∀ {store : ScriptStore} {positional named bound},
    Signature.decompress.bind positional named = .ok bound → bound.lookup "data" = some v →
    store.decompress positional named = (.error (.notBytes v.typeName), store)

theorem takenFor_of_bytes (h : v.bytes = .ok content) : v.TakenFor content where
  made hbind hv hraw := by
    rw [ScriptStore.makeDictionary_eq hbind hv hraw, h]
    rfl
  shown hhas := hhas.shows
  compressed hbind hv hlevel := by
    rw [ScriptStore.compress_eq_session hbind, ScriptStore.compressArguments_eq hv hlevel, h]
    rfl
  decompressed hbind hv := by
    rw [ScriptStore.decompress_eq_session hbind, hv, Option.getD_some, h]

theorem refused_of_bytes (h : v.bytes = .error (.notBytes v.typeName)) : v.Refused where
  made hbind hv hraw := by
    rw [ScriptStore.makeDictionary_eq hbind hv hraw, h]
    rfl
  compressed hbind hv hlevel := by
    rw [ScriptStore.compress_eq_session hbind, ScriptStore.compressArguments_eq hv hlevel, h]
    rfl
  decompressed hbind hv := by
    rw [ScriptStore.decompress_eq_session hbind, hv, Option.getD_some, h]

/-- A value exports memory. -/
inductive Exports : ScriptValue → Prop
  | buffer (type : String) (octets occupied : Bool) (content : ByteArray) :
      Exports (.buffer type octets occupied content)

/-- **A value that exports nothing is refused.** -/
theorem refused_of_not_exports (h : ¬v.Exports) : v.Refused := by
  refine refused_of_bytes ?_
  cases v with
  | buffer type octets occupied content => exact absurd (.buffer type octets occupied content) h
  | _ => rfl

end ScriptValue

/-! ### Exported memory -/

/-- A format of unsigned bytes: one of their letters, behind a mark of the byte order if there is one. -/
def IsOctetFormat (format : String) : Prop :=
  ∃ mark ∈ ["", "@", "=", "<", ">", "!"], ∃ letter ∈ ["B", "c"], format = mark ++ letter

/-- What is known of a test for unsigned bytes. -/
structure OctetTest.Lawful (test : OctetTest) : Prop where
  /-- Unsigned bytes in the byte order of the machine pass, in any number of dimensions from one on. -/
  passes : ∀ {rank format}, 0 < rank → format ∈ nativeOctets → test rank format 1 = true
  /-- Nothing passes but unsigned bytes, however their byte order is marked. -/
  octets : ∀ {rank format itemSize}, test rank format itemSize = true →
    itemSize = 1 ∧ IsOctetFormat format

theorem octetTest_lawful : octetTest.Lawful where
  passes {rank format} hrank hformat := by
    simp only [octetTest, decide_eq_true hrank, Bool.true_and, beq_self_eq_true]
    exact List.contains_iff_mem.mpr hformat
  octets {rank format itemSize} h := by
    simp only [octetTest, Bool.and_eq_true, decide_eq_true_iff, beq_iff_eq] at h
    obtain ⟨⟨-, hsize⟩, hformat⟩ := h
    refine ⟨hsize, ?_⟩
    have hmem := List.contains_iff_mem.mp hformat
    simp only [nativeOctets, List.mem_cons, List.not_mem_nil, or_false] at hmem
    rcases hmem with rfl | rfl | rfl | rfl
    · exact ⟨"", by decide, "B", by decide, rfl⟩
    · exact ⟨"", by decide, "c", by decide, rfl⟩
    · exact ⟨"@", by decide, "B", by decide, rfl⟩
    · exact ⟨"@", by decide, "c", by decide, rfl⟩

namespace ExportedMemory

variable {test : OctetTest}

/-- A byte string is what the calls see of the memory that it exports. -/
theorem value_linear (h : test.Lawful) (type : String) (content : ByteArray) :
    (linear type "B" 1 content).value test = .buffer type true (!content.isEmpty) content := by
  have hpasses : test 1 "B" 1 = true := h.passes Nat.one_pos (by decide)
  have hoccupied : (content.size / 1 != 0) = !content.isEmpty := by
    rw [Nat.div_one]
    rfl
  have hcopy := copy_linear type "B" (Nat.one_dvd content.size)
  show ScriptValue.buffer type (test 1 "B" 1) (content.size / 1 != 0) (linear type "B" 1 content).copy = _
  rw [hpasses, hoccupied, hcopy]

/-- Memory that passes the test is taken for its items. -/
theorem takenFor_copy {e : ExportedMemory} (h : test e.dimensions.length e.format e.itemSize = true) :
    (e.value test).TakenFor e.copy := by
  apply ScriptValue.takenFor_of_bytes
  rw [value, h]
  rfl

/-- Memory that fails the test is refused. -/
theorem refused_of_test {e : ExportedMemory} (h : test e.dimensions.length e.format e.itemSize = false) :
    (e.value test).Refused := by
  apply ScriptValue.refused_of_bytes
  rw [value, h]
  rfl

/-- **What calls take for a byte string.**  Let a value export memory of any number of dimensions, with any
extents, strides and pointers.  There is exactly one byte string that is its items in row-major order, and
all calls that want a byte string take the value for that one, or they all refuse it.  They take it if the
items are unsigned bytes in the byte order of the machine, in at least one dimension.  They refuse it if the
items have another size or another format, and they refuse every value that exports nothing. -/
theorem bytes_classified (h : test.Lawful) :
    (∀ e : ExportedMemory, ∃ content, (∀ other, e.RowMajor other ↔ other = content)
      ∧ ((e.value test).TakenFor content ∨ (e.value test).Refused)
      ∧ (e.dimensions ≠ [] → e.itemSize = 1 → e.format ∈ nativeOctets →
        (e.value test).TakenFor content)
      ∧ (e.itemSize ≠ 1 ∨ ¬IsOctetFormat e.format → (e.value test).Refused))
    ∧ ∀ v : ScriptValue, ¬v.Exports → v.Refused := by
  refine ⟨fun e => ⟨e.copy, fun other => rowMajor_iff, ?_, ?_, ?_⟩,
    fun v hv => ScriptValue.refused_of_not_exports hv⟩
  · cases htest : test e.dimensions.length e.format e.itemSize with
    | true => exact .inl (takenFor_copy htest)
    | false => exact .inr (refused_of_test htest)
  · intro hdimensions hsize hformat
    have hpasses := h.passes (List.length_pos_iff.mpr hdimensions) hformat
    rw [← hsize] at hpasses
    exact takenFor_copy hpasses
  · intro hother
    have hfails : test e.dimensions.length e.format e.itemSize = false := by
      rw [← Bool.not_eq_true]
      intro htest
      obtain ⟨hsize, hformat⟩ := h.octets htest
      rcases hother with hne | hnot
      · exact hne hsize
      · exact hnot hformat
    exact refused_of_test hfails

/-- The columns of a table, whose items are not in row-major order, are made a dictionary of; a text is
refused. -/
theorem bytes_classified_columns :
    octetTest.Lawful
    ∧ ScriptStore.makeDictionary []
        [value octetTest { linear "memoryview" "c" 1 ⟨#[97, 98, 99, 100, 101, 102]⟩ with
          dimensions := [⟨3, 1, none⟩, ⟨2, 3, none⟩] }, .bool true] []
      = .ok (.new ⟨#[97, 100, 98, 101, 99, 102]⟩ true)
    ∧ ScriptStore.makeDictionary [] [.text "abcdef", .bool true] []
      = .error ⟨.wrongType, "dict_content must be a bytes-like object, got <class 'str'>"⟩ := by
  obtain ⟨hexported, hother⟩ := bytes_classified octetTest_lawful
  refine ⟨octetTest_lawful, ?_, ?_⟩
  · obtain ⟨content, hcontent, -, htaken, -⟩ :=
      hexported { linear "memoryview" "c" 1 ⟨#[97, 98, 99, 100, 101, 102]⟩ with
        dimensions := [⟨3, 1, none⟩, ⟨2, 3, none⟩] }
    have hcolumns : ⟨#[97, 100, 98, 101, 99, 102]⟩ = content :=
      (hcontent _).mp (rowMajor_iff.mpr (by decide))
    rw [hcolumns]
    exact (htaken (by decide) rfl (by decide)).made rfl rfl rfl
  · have hmessage : Raised.notBytes "str"
        = ⟨.wrongType, "dict_content must be a bytes-like object, got <class 'str'>"⟩ := by
      decide +kernel
    rw [← hmessage]
    exact (hother (.text "abcdef") nofun).made rfl rfl rfl

/-- **An array of numbers of two bytes is refused**, although it exports eight bytes. -/
theorem shorts_refused :
    RowMajor (linear "array.array" "H" 2 ⟨#[97, 98, 99, 100, 101, 102, 103, 104]⟩)
        ⟨#[97, 98, 99, 100, 101, 102, 103, 104]⟩
    ∧ ScriptStore.makeDictionary []
        [value octetTest (linear "array.array" "H" 2 ⟨#[97, 98, 99, 100, 101, 102, 103, 104]⟩),
          .bool true] []
      = .error ⟨.wrongType, "dict_content must be a bytes-like object, got <class 'array.array'>"⟩ := by
  have hmessage : Raised.notBytes "array.array"
      = ⟨.wrongType, "dict_content must be a bytes-like object, got <class 'array.array'>"⟩ := by
    decide +kernel
  refine ⟨rowMajor_iff.mpr (copy_linear _ _ (by decide)).symm, ?_⟩
  have hfails : octetTest 1 "H" 2 = false := rfl
  have hrefused := refused_of_test (e := linear "array.array" "H" 2
    ⟨#[97, 98, 99, 100, 101, 102, 103, 104]⟩) hfails
  rw [← hmessage]
  exact hrefused.made rfl rfl rfl

end ExportedMemory

end SharedDictionary
