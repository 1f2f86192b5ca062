import SharedDictionary.Binding.Calls

/-!
# The sessions of calls

A call matches its arguments with its parameters and looks at them one after the other.  Once they are what
it wants, it makes a dictionary of the content, or it compresses or decompresses the data in a session of its
own.  Each call is stated as one equation here (`ScriptStore.makeDictionary_eq`,
`ScriptStore.compress_eq_session`, `ScriptStore.decompress_eq_session`), so that what is proved of arguments
and of sessions needs nothing else of the calls.
-/

namespace SharedDictionary

namespace ScriptStore

variable {store : ScriptStore} {positional : List ScriptValue} {named bound : List (String × ScriptValue)}

/-- Whether a dictionary is to be raw. -/
def rawArgument (store : ScriptStore) (bound : List (String × ScriptValue)) : Except Raised Bool :=
  match givenArgument? bound "is_raw" with
  | some v => v.truth store.hasContent
  | none => .ok false

/-- The level to compress at. -/
def levelArgument (bound : List (String × ScriptValue)) : Except Raised Int32 :=
  match bound.lookup "level" with
  | some v => v.level
  | none => .ok SessionConfig.defaultLevel

/-- Compresses a byte string in a session of its own, with the dictionary that is among the arguments. -/
def compressBytes (store : ScriptStore) (bound : List (String × ScriptValue)) (level : Int32)
    (data : ByteArray) : Except Raised ByteArray × ScriptStore :=
  match store.viewArgument bound .undigested fun mode w => view codecEngine codecDepth mode level w with
  | (.error e, store) => (.error e, store)
  | (.ok dict, store) =>
    (((Compressor.new (.withLevel level) dict).bind (·.encode data)).mapError Raised.ofError, store)

/-- Decompresses a byte string in a session of its own, with the dictionary that is among the arguments. -/
def decompressBytes (store : ScriptStore) (bound : List (String × ScriptValue)) (input : ByteArray) :
    Except Raised ByteArray × ScriptStore :=
  match store.viewArgument bound .digested
      fun mode w => viewForDecompression codecEngine codecDepth mode w with
  | (.error e, store) => (.error e, store)
  | (.ok dict, store) =>
    ((Decompressor.decompressFrames ⟨.standard, dict⟩ input).1.mapError Raised.ofFault, store)

/-- Making a dictionary looks at whether it is raw, then at the content. -/
theorem makeDictionary_eq (hbind : Signature.makeDictionary.bind positional named = .ok bound)
    {v : ScriptValue} (hv : bound.lookup "dict_content" = some v) {isRaw : Bool}
    (hraw : store.rawArgument bound = .ok isRaw) :
    store.makeDictionary positional named = v.bytes.map (SharedDict.new · isRaw) := by
  simp only [makeDictionary, hbind, hv, bind, Except.bind, Option.getD_some]
  cases hgiven : givenArgument? bound "is_raw" with
  | none =>
      simp only [rawArgument, hgiven] at hraw
      cases hraw
      cases v.bytes <;> rfl
  | some flag =>
      simp only [rawArgument, hgiven] at hraw
      simp only [hraw]
      cases v.bytes <;> rfl

/-- Compressing looks at the level and the data, then at the dictionary. -/
theorem compress_eq_session (hbind : Signature.compress.bind positional named = .ok bound) :
    store.compress positional named
      = match compressArguments bound with
        | .error e => (.error e, store)
        | .ok (level, data) => store.compressBytes bound level data := by
  simp only [compress, hbind]
  rcases compressArguments bound with e | ⟨level, data⟩
  · rfl
  · unfold compressBytes
    dsimp only
    rcases store.viewArgument bound .undigested
      (fun mode w => view codecEngine codecDepth mode level w) with ⟨e | dict, store'⟩
    · rfl
    · dsimp only
      cases Compressor.new (.withLevel level) dict with
      | error e => rfl
      | ok c =>
          simp only [Compressor.compressFrame, Except.bind]
          cases c.encode data with
          | error e => rfl
          | ok frame =>
              show (Except.ok (ByteArray.empty ++ frame), _) = (Except.ok frame, _)
              rw [ByteArray.empty_append]

/-- Decompressing looks at the data, then at the dictionary. -/
theorem decompress_eq_session (hbind : Signature.decompress.bind positional named = .ok bound) :
    store.decompress positional named
      = match ((bound.lookup "data").getD .absent).bytes with
        | .error e => (.error e, store)
        | .ok input => store.decompressBytes bound input := by
  simp only [decompress, hbind]
  cases ((bound.lookup "data").getD .absent).bytes with
  | error e => rfl
  | ok input =>
      unfold decompressBytes
      rcases store.viewArgument bound .digested
        (fun mode w => viewForDecompression codecEngine codecDepth mode w) with ⟨e | dict, store'⟩ <;> rfl

end ScriptStore

end SharedDictionary
