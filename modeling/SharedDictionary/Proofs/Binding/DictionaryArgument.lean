import SharedDictionary.Proofs.Binding.Sessions

/-!
# What a call takes for a dictionary

Of all the values that a script can hand to a call as its dictionary, some designate one and the mode to
load it in: the dictionary itself, and a pair of it and the tag of a mode (`ScriptValue.Designates`).  The
tag may be any value that stands for a whole number.  It is read as an octet; of the octets, all above the
tags are refused as modes (`ScriptValue.Misnumbered`).  Every other value is refused for what it is, and so
is a pair with a whole number that is no octet (`ScriptValue.dictAndMode_otherwise`).

Compressing and decompressing have this in common; they differ in the mode that is the default.  What they
do with any value is `ScriptStore.dictionary_classified`: a value that designates a dictionary has it loaded
in its mode, and for every other value an error is raised before any dictionary is asked, so nothing is
counted.
-/

namespace SharedDictionary

/-! ### Values that designate a dictionary -/

/-- What is raised for a pair whose number is the tag of no mode. -/
def Raised.unknownMode (n : Int) : Raised :=
  ⟨.wrongValue, "unknown dictionary mode " ++ toString n⟩

/-- What is raised for a value that is neither a dictionary nor a pair of one and an octet. -/
def Raised.noDictionary : Raised :=
  ⟨.wrongType, "zstd_dict argument should be a ZstdDict object or a (ZstdDict, mode) tuple"⟩

namespace ScriptValue

/-- A value designates the dictionary of a name, to be loaded in a mode. -/
inductive Designates (standard : DictMode) : ScriptValue → String → DictMode → Prop
  /-- The dictionary itself is to be loaded in the default mode. -/
  | bare (name : String) : Designates standard (.dict name) name standard
  /-- A pair has the tag of its own mode. -/
  | pair (name : String) (mode : DictMode) {tag : ScriptValue} (htag : tag.whole? = some (mode.tag : Int)) :
      Designates standard (.tuple [.dict name, tag]) name mode

/-- A value is a pair of a dictionary and an octet that is the tag of no mode. -/
inductive Misnumbered : ScriptValue → Int → Prop
  | pair (name : String) {tag : ScriptValue} {n : Int} (htag : tag.whole? = some n) (hlow : 3 ≤ n)
      (hhigh : n ≤ 255) : Misnumbered (.tuple [.dict name, tag]) n

variable {standard mode : DictMode} {v tag : ScriptValue} {name : String} {n : Int}

/-- A pair with an octet: the modes are looked up by their tags. -/
theorem dictAndMode_pair (htag : tag.whole? = some n) (hlow : 0 ≤ n) (hhigh : n ≤ 255) :
    (ScriptValue.tuple [.dict name, tag]).dictAndMode standard
      = match DictMode.ofTag? n.toNat with
        | some mode => .ok (name, mode)
        | none => .error (.unknownMode n) := by
  simp only [dictAndMode, htag]
  rw [if_neg (by omega)]
  rfl

theorem Designates.dictAndMode_eq (h : v.Designates standard name mode) :
    v.dictAndMode standard = .ok (name, mode) := by
  cases h with
  | bare => rfl
  | pair _ _ htag =>
      have htag_le : mode.tag ≤ 2 := by cases mode <;> decide
      rw [dictAndMode_pair htag (by omega) (by omega), Int.toNat_natCast, DictMode.ofTag?_tag]

theorem Misnumbered.dictAndMode_eq (h : v.Misnumbered n) (standard : DictMode) :
    v.dictAndMode standard = .error (.unknownMode n) := by
  cases h with
  | pair _ htag hlow hhigh =>
      have hnone : DictMode.ofTag? n.toNat = none := DictMode.ofTag?_eq_none_iff.mpr (by omega)
      rw [dictAndMode_pair htag (by omega) hhigh, hnone]

/-- **Every other value is refused for what it is.** -/
theorem dictAndMode_otherwise (hnone : ∀ name mode, ¬v.Designates standard name mode)
    (hfine : ∀ n, ¬v.Misnumbered n) : v.dictAndMode standard = .error .noDictionary := by
  unfold dictAndMode
  dsimp only
  split
  · rename_i name
    exact absurd (.bare name) (hnone name standard)
  · rename_i name tag
    split
    · rfl
    · rename_i n htag
      split
      · rfl
      · rename_i hoctet
        split
        · rename_i mode hmode
          have hn : n = mode.tag := by
            have htag_eq := DictMode.ofTag?_eq_some_iff.mp hmode
            omega
          rw [hn] at htag
          exact absurd (.pair name mode htag) (hnone name mode)
        · rename_i hmode
          have hlow := DictMode.ofTag?_eq_none_iff.mp hmode
          exact absurd (.pair name htag (by omega) (by omega)) (hfine n)
  · rfl

end ScriptValue

/-! ### Calls that are given one -/

namespace SharedDict

/-- Compresses bytes in a session of its own, with the dictionary loaded in a mode. -/
def compressOnce (level : Int32) (data : ByteArray) (mode : DictMode) (w : SharedDict) :
    Except Raised ByteArray × SharedDict :=
  match view codecEngine codecDepth mode level w with
  | (.error fault, w) => (.error (.ofFault fault), w)
  | (.ok v, w) =>
    match Compressor.new (.withLevel level) (some v.unstamped) with
    | .error e => (.error (.ofError e), w)
    | .ok c => ((c.encode data).mapError Raised.ofError, w)

/-- Decompresses frames in a session of its own, with the dictionary loaded in a mode. -/
def decompressOnce (input : ByteArray) (mode : DictMode) (w : SharedDict) :
    Except Raised ByteArray × SharedDict :=
  match viewForDecompression codecEngine codecDepth mode w with
  | (.error fault, w) => (.error (.ofFault fault), w)
  | (.ok v, w) =>
    ((Decompressor.decompressFrames ⟨.standard, some v.unstamped⟩ input).1.mapError Raised.ofFault, w)

end SharedDict

namespace ScriptStore

/-- What a call comes to that is given a value as its dictionary, if `session` is what it does with one
that is loaded in a mode. -/
structure Classified (store : ScriptStore) (standard : DictMode) (v : ScriptValue)
    (session : DictMode → SharedDict → Except Raised ByteArray × SharedDict)
    (result : Except Raised ByteArray × ScriptStore) : Prop where
  /-- A dictionary that is designated is loaded in its mode. -/
  loaded : ∀ {name mode w}, v.Designates standard name mode → store.lookup name = some w →
    result = ((session mode w).1, store.put name (session mode w).2)
  /-- An octet that is no tag is refused, and no dictionary is asked. -/
  misnumbered : ∀ {n}, v.Misnumbered n → result = (.error (.unknownMode n), store)
  /-- All else is refused, and no dictionary is asked. -/
  otherwise : (∀ name mode, ¬v.Designates standard name mode) → (∀ n, ¬v.Misnumbered n) →
    result = (.error .noDictionary, store)

section ViewArgument

variable {α : Type} {store : ScriptStore} {bound : List (String × ScriptValue)} {v : ScriptValue}
  {standard mode : DictMode} {name : String} {w : SharedDict} {e : Raised}
  {take : DictMode → SharedDict → Except Fault (DictView (Built α)) × SharedDict}

theorem givenArgument_of_ne_absent {parameter : String} (hv : bound.lookup parameter = some v)
    (hgiven : v ≠ .absent) : givenArgument? bound parameter = some v := by
  rw [givenArgument?, hv]
  cases v <;> first | rfl | exact absurd rfl hgiven

/-- The view of a dictionary that is designated. -/
theorem viewArgument_loaded (hv : bound.lookup "zstd_dict" = some v) (hgiven : v ≠ .absent)
    (h : v.Designates standard name mode) (hlookup : store.lookup name = some w) :
    store.viewArgument bound standard take
      = match take mode w with
        | (.error fault, w') => (.error (.ofFault fault), store.put name w')
        | (.ok found, w') => (.ok (some found.unstamped), store.put name w') := by
  simp only [viewArgument, givenArgument_of_ne_absent hv hgiven, h.dictAndMode_eq, takeView, hlookup]
  rcases take mode w with ⟨outcome, w'⟩
  cases outcome <;> rfl

/-- A value that is refused leaves the dictionaries alone. -/
theorem viewArgument_refused (hv : bound.lookup "zstd_dict" = some v) (hgiven : v ≠ .absent)
    (h : v.dictAndMode standard = .error e) :
    store.viewArgument bound standard take = (.error e, store) := by
  simp only [viewArgument, givenArgument_of_ne_absent hv hgiven, h]

end ViewArgument

variable {store : ScriptStore} {positional : List ScriptValue}
  {named bound : List (String × ScriptValue)} {v : ScriptValue}

/-- **A call to compress** loads undigested by default. -/
theorem compress_classified {level : Int32} {data : ByteArray}
    (hv : bound.lookup "zstd_dict" = some v) (hgiven : v ≠ .absent)
    (hbind : Signature.compress.bind positional named = .ok bound)
    (harguments : compressArguments bound = .ok (level, data)) :
    store.Classified .undigested v (SharedDict.compressOnce level data)
      (store.compress positional named) where
  loaded {name mode w} h hlookup := by
    simp only [compress_eq_session hbind, harguments, compressBytes,
      viewArgument_loaded hv hgiven h hlookup, SharedDict.compressOnce]
    rcases view codecEngine codecDepth mode level w with ⟨fault | found, w'⟩
    · rfl
    · dsimp only
      rcases Compressor.new (.withLevel level) (some found.unstamped) with e | c <;> rfl
  misnumbered h := by
    simp only [compress_eq_session hbind, harguments, compressBytes,
      viewArgument_refused hv hgiven (h.dictAndMode_eq _)]
  otherwise hnone hfine := by
    simp only [compress_eq_session hbind, harguments, compressBytes,
      viewArgument_refused hv hgiven (ScriptValue.dictAndMode_otherwise hnone hfine)]

/-- **A call to decompress** loads digested by default. -/
theorem decompress_classified {input : ByteArray}
    (hv : bound.lookup "zstd_dict" = some v) (hgiven : v ≠ .absent)
    (hbind : Signature.decompress.bind positional named = .ok bound)
    (hinput : ((bound.lookup "data").getD .absent).bytes = .ok input) :
    store.Classified .digested v (SharedDict.decompressOnce input)
      (store.decompress positional named) where
  loaded {name mode w} h hlookup := by
    simp only [decompress_eq_session hbind, hinput, decompressBytes,
      viewArgument_loaded hv hgiven h hlookup, SharedDict.decompressOnce]
    rcases viewForDecompression codecEngine codecDepth mode w with ⟨fault | found, w'⟩ <;> rfl
  misnumbered h := by
    simp only [decompress_eq_session hbind, hinput, decompressBytes,
      viewArgument_refused hv hgiven (h.dictAndMode_eq _)]
  otherwise hnone hfine := by
    simp only [decompress_eq_session hbind, hinput, decompressBytes,
      viewArgument_refused hv hgiven (ScriptValue.dictAndMode_otherwise hnone hfine)]

/-- **What a call takes for a dictionary.**  Whatever value a call is given for one, it loads the dictionary
that the value designates in the mode that it designates, and in the default mode of the call if that is
none; it refuses a pair with an octet that is the tag of no mode; and it refuses all other values for what
they are.  Where it refuses a value, all dictionaries stay as they are, with everything they have counted. -/
theorem dictionary_classified (store : ScriptStore) {v : ScriptValue} (hgiven : v ≠ .absent) :
    (∀ {positional named bound level data},
      Signature.compress.bind positional named = .ok bound → bound.lookup "zstd_dict" = some v →
      compressArguments bound = .ok (level, data) →
      store.Classified .undigested v (SharedDict.compressOnce level data)
        (store.compress positional named))
    ∧ ∀ {positional named bound input},
      Signature.decompress.bind positional named = .ok bound → bound.lookup "zstd_dict" = some v →
      ((bound.lookup "data").getD .absent).bytes = .ok input →
      store.Classified .digested v (SharedDict.decompressOnce input)
        (store.decompress positional named) :=
  ⟨fun hbind hv harguments => compress_classified hv hgiven hbind harguments,
    fun hbind hv hinput => decompress_classified hv hgiven hbind hinput⟩

/-- A pair with an object that stands for one loads undigested, and a pair with seven is refused. -/
theorem dictionary_classified_pairs :
    compress [("d", .new ⟨#[1, 2, 3]⟩ true)]
        [.buffer "bytes" true true ⟨#[104, 105]⟩, .int 3, .tuple [.dict "d", .index 1]] []
      = ((SharedDict.compressOnce 3 ⟨#[104, 105]⟩ .undigested (.new ⟨#[1, 2, 3]⟩ true)).1,
        [("d", (SharedDict.compressOnce 3 ⟨#[104, 105]⟩ .undigested (.new ⟨#[1, 2, 3]⟩ true)).2)])
    ∧ decompress [("d", .new ⟨#[1, 2, 3]⟩ true)]
        [.buffer "bytes" true true ⟨#[104, 105]⟩, .tuple [.dict "d", .int 7]] []
      = (.error ⟨.wrongValue, "unknown dictionary mode 7"⟩, [("d", .new ⟨#[1, 2, 3]⟩ true)]) := by
  have hone : ScriptValue.tuple [.dict "d", .index 1] ≠ .absent := nofun
  have hseven : ScriptValue.tuple [.dict "d", .int 7] ≠ .absent := nofun
  refine ⟨?_, ?_⟩
  · exact ((dictionary_classified [("d", .new ⟨#[1, 2, 3]⟩ true)] hone).1 rfl rfl rfl).loaded
      (.pair "d" .undigested rfl) rfl
  · have hmessage : Raised.unknownMode 7 = ⟨.wrongValue, "unknown dictionary mode 7"⟩ := by
      decide +kernel
    rw [← hmessage]
    exact ((dictionary_classified [("d", .new ⟨#[1, 2, 3]⟩ true)] hseven).2 rfl rfl rfl).misnumbered
      (.pair "d" rfl (by decide) (by decide))

/-- **A whole number that is no octet is not refused as a mode**, neither one above the octets nor one below
zero. -/
theorem beyond_octet_not_unknownMode :
    (compress [("d", .new ⟨#[1, 2, 3]⟩ true)]
        [.buffer "bytes" true true ⟨#[104, 105]⟩, .int 3, .tuple [.dict "d", .int 256]] []).1
      ≠ .error (.unknownMode 256)
    ∧ (decompress [("d", .new ⟨#[1, 2, 3]⟩ true)]
        [.buffer "bytes" true true ⟨#[104, 105]⟩, .tuple [.dict "d", .int (-1)]] []).1
      ≠ .error (.unknownMode (-1)) := by
  have habove : Raised.noDictionary ≠ .unknownMode 256 := by decide +kernel
  have hbelow : Raised.noDictionary ≠ .unknownMode (-1) := by decide +kernel
  exact ⟨fun h => habove (Except.error.inj h), fun h => hbelow (Except.error.inj h)⟩

end ScriptStore

end SharedDictionary
