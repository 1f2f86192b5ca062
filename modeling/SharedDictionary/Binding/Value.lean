import SharedDictionary.Bytes
import SharedDictionary.Error
import SharedDictionary.Session.Config

/-!
# Values of a scripting interface

Scripts call this library with values of many kinds, most of which it has no use for.  What
matters of a value is whether it is a byte string, a truth value, a whole number, a dictionary or
a pair, and what its kind is called when it is refused.

## Main definitions

* `ScriptValue` — the values
* `Raised` — what a call raises
* `ScriptValue.bytes`, `ScriptValue.truth`, `ScriptValue.level` — the conversions of arguments
-/

namespace SharedDictionary

/-- The kinds of what a call raises. -/
inductive RaisedKind where
  | wrongType
  | wrongValue
  | noMemory
  | codec
  | overflow
  | failedRun
  | missingAttribute
  | missingKey
  deriving Repr, DecidableEq

/-- The name of a kind. -/
def RaisedKind.name : RaisedKind → String
  | wrongType => "TypeError"
  | wrongValue => "ValueError"
  | noMemory => "MemoryError"
  | codec => "ZstdError"
  | overflow => "OverflowError"
  | failedRun => "RuntimeError"
  | missingAttribute => "AttributeError"
  | missingKey => "KeyError"

/-- What a call raises. -/
structure Raised where
  kind : RaisedKind
  message : String
  deriving Repr, DecidableEq

/-- What an error raises. -/
def Raised.ofError (e : DictError) : Raised :=
  let kind := match e with
    | .wrongType _ => RaisedKind.wrongType
    | .badFormat _ => .wrongValue
    | .allocation _ => .noMemory
    | _ => .codec
  ⟨kind, e.message⟩

/-- What a fault raises. -/
def Raised.ofFault : Fault → Raised
  | .error e => .ofError e
  | .panic text => ⟨.failedRun, text⟩

/-- A value of a script. -/
inductive ScriptValue where
  /-- A value that exports memory: its type, whether its items are unsigned bytes, whether it has
  items, and the items as bytes. -/
  | buffer (type : String) (octets : Bool) (occupied : Bool) (content : ByteArray)
  /-- A text. -/
  | text (s : String)
  /-- A list. -/
  | list (items : List ScriptValue)
  /-- A tuple. -/
  | tuple (items : List ScriptValue)
  /-- A mapping without entries. -/
  | emptyMapping
  /-- A truth value. -/
  | bool (b : Bool)
  /-- The absent value. -/
  | absent
  /-- A whole number. -/
  | int (n : Int)
  /-- A number that need not be whole. -/
  | float (isZero : Bool)
  /-- An object that can stand for a whole number. -/
  | index (n : Int)
  /-- An object whose truth value cannot be had. -/
  | untruthful (reason : String)
  /-- An object of which only the type counts. -/
  | object (type : String)
  /-- The dictionary of a name. -/
  | dict (name : String)
  deriving Inhabited

namespace ScriptValue

/-- The name of the type of a value. -/
def typeName : ScriptValue → String
  | buffer type _ _ _ => type
  | text _ => "str"
  | list _ => "list"
  | tuple _ => "tuple"
  | emptyMapping => "dict"
  | bool _ => "bool"
  | absent => "NoneType"
  | int _ => "int"
  | float _ => "float"
  | index _ => "Index"
  | untruthful _ => "BadBool"
  | object type => type
  | dict _ => "zstd_dict.ZstdDict"

/-- The bytes of a value whose items are unsigned bytes (`buffer_bytes`). -/
def bytes : ScriptValue → Except Raised ByteArray
  | buffer _ true _ content => .ok content
  | v => .error (.ofError (.wrongType ("<class '" ++ v.typeName ++ "'>")))

/-- The truth value of a value; that of a dictionary is whether it has content. -/
def truth (hasContent : String → Bool) : ScriptValue → Except Raised Bool
  | buffer _ _ occupied _ => .ok occupied
  | text s => .ok (!s.isEmpty)
  | list items => .ok (!items.isEmpty)
  | tuple items => .ok (!items.isEmpty)
  | emptyMapping => .ok false
  | bool b => .ok b
  | absent => .ok false
  | int n => .ok (n != 0)
  | float isZero => .ok (!isZero)
  | index _ => .ok true
  | untruthful reason => .error ⟨.failedRun, reason⟩
  | object _ => .ok true
  | dict name => .ok (hasContent name)

/-- The whole number that a value is or stands for. -/
def whole? : ScriptValue → Option Int
  | bool b => some (if b then 1 else 0)
  | int n => some n
  | index n => some n
  | _ => none

/-- The level that a value gives: a whole number of 32 bits.  Numbers of more than 64 bits are
refused before those of more than 32. -/
def level (v : ScriptValue) : Except Raised Int32 :=
  match v.whole? with
  | none =>
    .error ⟨.wrongType, "argument 'level': '" ++ v.typeName
      ++ "' object cannot be interpreted as an integer"⟩
  | some n =>
    if n < -2 ^ 63 ∨ 2 ^ 63 ≤ n then
      .error ⟨.overflow, "Python int too large to convert to C long"⟩
    else if 2 ^ 31 ≤ n then .error ⟨.overflow, "number too large to fit in target type"⟩
    else if n < -2 ^ 31 then .error ⟨.overflow, "number too small to fit in target type"⟩
    else .ok (Int32.ofInt n)

/-- A dictionary and a mode of its own, or the default mode: a value that is a dictionary, or a pair
of one and a number of at most eight bits (`resolve_dict`). -/
def dictAndMode (v : ScriptValue) (standard : DictMode) : Except Raised (String × DictMode) :=
  let refused : Raised := ⟨.wrongType,
    "zstd_dict argument should be a ZstdDict object or a (ZstdDict, mode) tuple"⟩
  match v with
  | dict name => .ok (name, standard)
  | tuple [dict name, mode] =>
    match mode.whole? with
    | none => .error refused
    | some n =>
      if n < 0 ∨ 256 ≤ n then .error refused
      else
        match DictMode.ofTag? n.toNat with
        | some mode => .ok (name, mode)
        | none => .error ⟨.wrongValue, "unknown dictionary mode " ++ toString n⟩
  | _ => .error refused

end ScriptValue

end SharedDictionary
