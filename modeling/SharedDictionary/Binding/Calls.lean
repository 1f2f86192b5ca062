import SharedDictionary.Binding.Value
import SharedDictionary.Handle.Engine
import SharedDictionary.Session.Compressor
import SharedDictionary.Session.Decompressor

/-!
# The calls of a scripting interface

A script can make a dictionary, compress and decompress with one, and look at its attributes.
Dictionaries are kept under names.

## Main definitions

* `Signature`, `Signature.bind` — the arguments that a call takes
* `ScriptStore` — the dictionaries of a script
* `ScriptStore.makeDictionary`, `ScriptStore.compress`, `ScriptStore.decompress` — the calls
* `ScriptStore.attributeOf`, `ScriptStore.setAttribute` — the attributes of a dictionary
-/

namespace SharedDictionary

/-- The arguments that a call takes: its name in messages and its parameters, of which the first is
required. -/
structure Signature where
  name : String
  required : String
  optional : List String

namespace Signature

/-- All parameters. -/
def parameters (s : Signature) : List String := s.required :: s.optional

/-- The arguments of making a dictionary. -/
def makeDictionary : Signature := ⟨"ZstdDict.__new__()", "dict_content", ["is_raw"]⟩

/-- The arguments of compressing. -/
def compress : Signature := ⟨"compress()", "data", ["level", "zstd_dict"]⟩

/-- The arguments of decompressing. -/
def decompress : Signature := ⟨"decompress()", "data", ["zstd_dict"]⟩

/-- Adds an argument that is given by name. -/
def bindNamed (s : Signature) (bound : List (String × ScriptValue))
    (argument : String × ScriptValue) : Except Raised (List (String × ScriptValue)) :=
  if !s.parameters.contains argument.1 then
    .error ⟨.wrongType,
      s.name ++ " got an unexpected keyword argument '" ++ argument.1 ++ "'"⟩
  else if (bound.lookup argument.1).isSome then
    .error ⟨.wrongType, s.name ++ " got multiple values for argument '" ++ argument.1 ++ "'"⟩
  else .ok (argument :: bound)

/-- What is said of too many arguments. -/
def tooMany (s : Signature) (given : Nat) : Raised :=
  let most := s.parameters.length
  ⟨.wrongType, s.name ++ " takes from 1 to " ++ toString most ++ " positional arguments but "
    ++ toString given ++ (if given = 1 then " was given" else " were given")⟩

/-- Matches arguments with parameters: those given by position, then those given by name, and at
last the required one must be there. -/
def bind (s : Signature) (positional : List ScriptValue) (named : List (String × ScriptValue)) :
    Except Raised (List (String × ScriptValue)) := do
  if s.parameters.length < positional.length then throw (s.tooMany positional.length)
  let bound ← named.foldlM s.bindNamed (s.parameters.zip positional)
  if (bound.lookup s.required).isNone then
    throw ⟨.wrongType,
      s.name ++ " missing 1 required positional argument: '" ++ s.required ++ "'"⟩
  return bound

end Signature

/-- An argument that is given and is not the absent value. -/
def givenArgument? (bound : List (String × ScriptValue)) (parameter : String) :
    Option ScriptValue :=
  match bound.lookup parameter with
  | some .absent => none
  | found => found

/-- The dictionaries of a script, by name. -/
abbrev ScriptStore := List (String × SharedDict)

/-- What an attribute of a dictionary is. -/
inductive AttributeValue where
  | number (n : Nat)
  | bytes (content : ByteArray)
  | text (s : String)
  /-- A pair of the dictionary itself and the tag of a mode. -/
  | withMode (mode : DictMode)

namespace ScriptStore

/-- Replaces a dictionary. -/
def put (store : ScriptStore) (name : String) (d : SharedDict) : ScriptStore :=
  (name, d) :: store.filter (·.1 != name)

/-- A dictionary has content. -/
def hasContent (store : ScriptStore) (name : String) : Bool :=
  (store.lookup name).any fun d => !d.handle.content.isEmpty

/-- What is raised for a name without a dictionary. -/
def unknownName (name : String) : Raised := ⟨.missingKey, "'" ++ name ++ "'"⟩

/-- The dictionary of a name. -/
def find (store : ScriptStore) (name : String) : Except Raised SharedDict :=
  match store.lookup name with
  | some d => .ok d
  | none => .error (unknownName name)

/-- Makes a dictionary (`ZstdDict`).  Whether it is raw is looked at before the content. -/
def makeDictionary (store : ScriptStore) (positional : List ScriptValue)
    (named : List (String × ScriptValue)) : Except Raised SharedDict := do
  let bound ← Signature.makeDictionary.bind positional named
  let isRaw ← match givenArgument? bound "is_raw" with
    | some v => v.truth store.hasContent
    | none => pure false
  let content ← ((bound.lookup "dict_content").getD .absent).bytes
  return .new content isRaw

/-- Takes a view of the dictionary of a name, which counts it. -/
def takeView {α : Type} (store : ScriptStore) (name : String)
    (take : SharedDict → Except Fault (DictView (Built α)) × SharedDict) :
    Except Raised (DictView α) × ScriptStore :=
  match store.lookup name with
  | none => (.error (unknownName name), store)
  | some d =>
    let (outcome, d) := take d
    ((outcome.mapError Raised.ofFault).map (·.unstamped), store.put name d)

/-- The view that an argument asks for, if there is one. -/
def viewArgument {α : Type} (store : ScriptStore) (bound : List (String × ScriptValue))
    (standard : DictMode)
    (take : DictMode → SharedDict → Except Fault (DictView (Built α)) × SharedDict) :
    Except Raised (Option (DictView α)) × ScriptStore :=
  match givenArgument? bound "zstd_dict" with
  | none => (.ok none, store)
  | some v =>
    match v.dictAndMode standard with
    | .error e => (.error e, store)
    | .ok (name, mode) =>
      let (outcome, store) := store.takeView name (take mode)
      (outcome.map some, store)

/-- The level and the bytes of a call to compress, in the order in which they are looked at. -/
def compressArguments (bound : List (String × ScriptValue)) :
    Except Raised (Int32 × ByteArray) := do
  let level ← match bound.lookup "level" with
    | some v => v.level
    | none => pure SessionConfig.defaultLevel
  let data ← ((bound.lookup "data").getD .absent).bytes
  return (level, data)

/-- Compresses bytes into a frame (`compress`).  A dictionary without a mode is loaded undigested. -/
def compress (store : ScriptStore) (positional : List ScriptValue)
    (named : List (String × ScriptValue)) : Except Raised ByteArray × ScriptStore :=
  match Signature.compress.bind positional named with
  | .error e => (.error e, store)
  | .ok bound =>
    match compressArguments bound with
    | .error e => (.error e, store)
    | .ok (level, data) =>
      match store.viewArgument bound .undigested
          fun mode d => view codecEngine codecDepth mode level d with
      | (.error e, store) => (.error e, store)
      | (.ok dict, store) =>
        match Compressor.new (.withLevel level) dict with
        | .error e => (.error (.ofError e), store)
        | .ok compressor =>
          match compressor.compressFrame data ByteArray.empty with
          | (.error e, _, _) => (.error (.ofError e), store)
          | (.ok (), _, frame) => (.ok frame, store)

/-- Decompresses frames (`decompress`).  A dictionary without a mode is loaded digested. -/
def decompress (store : ScriptStore) (positional : List ScriptValue)
    (named : List (String × ScriptValue)) : Except Raised ByteArray × ScriptStore :=
  match Signature.decompress.bind positional named with
  | .error e => (.error e, store)
  | .ok bound =>
    match ((bound.lookup "data").getD .absent).bytes with
    | .error e => (.error e, store)
    | .ok data =>
      match store.viewArgument bound .digested
          fun mode d => viewForDecompression codecEngine codecDepth mode d with
      | (.error e, store) => (.error e, store)
      | (.ok dict, store) =>
        let decompressor : Decompressor := ⟨.standard, dict⟩
        ((decompressor.decompressFrames data).1.mapError Raised.ofFault, store)

/-- The attributes that are read without a call. -/
def readAttribute? (d : SharedDict) (name : String) : Option AttributeValue :=
  match name with
  | "dict_id" => some (.number d.handle.dictId)
  | "dict_content" => some (.bytes d.handle.content)
  | "as_digested_dict" => some (.withMode .digested)
  | "as_undigested_dict" => some (.withMode .undigested)
  | "as_prefix" => some (.withMode .prefixed)
  | "telemetry_json" => some (.text d.handle.snapshot.json)
  | _ => none

/-- The attribute of a dictionary. -/
def attributeOf (store : ScriptStore) (object name : String) : Except Raised AttributeValue := do
  let d ← store.find object
  match readAttribute? d name with
  | some v => return v
  | none =>
    throw ⟨.missingAttribute,
      "'zstd_dict.ZstdDict' object has no attribute '" ++ name ++ "'"⟩

/-- The attribute of a dictionary as an argument of a call: a pair with a mode, or a plain value.
An object that is not there has no attributes. -/
def attributeArgument (store : ScriptStore) (object name : String) : Except Raised ScriptValue :=
  match store.lookup object with
  | none =>
    .error ⟨.missingAttribute, "'NoneType' object has no attribute '" ++ name ++ "'"⟩
  | some _ => do
    match ← store.attributeOf object name with
    | .number n => return .int n
    | .bytes content => return .buffer "bytes" true (!content.isEmpty) content
    | .text _ => return .object "builtin_function_or_method"
    | .withMode mode => return .tuple [.dict object, .int mode.tag]

/-- No attribute can be set. -/
def setAttribute (store : ScriptStore) (object name : String) : Except Raised Unit := do
  let d ← store.find object
  match readAttribute? d name with
  | some (.text _) =>
    throw ⟨.missingAttribute,
      "'zstd_dict.ZstdDict' object attribute '" ++ name ++ "' is read-only"⟩
  | some _ =>
    throw ⟨.missingAttribute,
      "attribute '" ++ name ++ "' of 'zstd_dict.ZstdDict' objects is not writable"⟩
  | none =>
    throw ⟨.missingAttribute,
      "'zstd_dict.ZstdDict' object has no attribute '" ++ name ++ "'"⟩

end ScriptStore

end SharedDictionary
