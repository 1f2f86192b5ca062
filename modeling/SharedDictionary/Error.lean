import SharedDictionary.Frame.CodecError
import SharedDictionary.Mode
import SharedDictionary.Text.Quoted

/-!
# Errors of dictionaries and sessions

Every operation of this library that can fail does so with a `DictError`.  A few operations break
off instead, because they were asked for something that no caller may ask for; that is a `Fault`
too, and leaves everything as it was at that moment.

## Main definitions

* `DictError`, `DictError.message`, `DictError.diagnostic` — the errors and their texts
* `Fault` — an error, or that the operation broke off
-/

namespace SharedDictionary

/-- Why an operation failed. -/
inductive DictError where
  /-- The content was no byte string. -/
  | wrongType (got : String)
  /-- The content is no dictionary of the format. -/
  | badFormat (reason : String)
  /-- There is no memory for something. -/
  | allocation (what : String)
  /-- A frame was made with another prefix. -/
  | contentMismatch (text : String)
  /-- The mode excludes long distance matching. -/
  | incompatible (mode : DictMode)
  /-- The codec failed in an operation. -/
  | codec (operation text : String)
  /-- An internal failure. -/
  | state (text : String)
  deriving Repr, DecidableEq, Inhabited

namespace DictError

/-- The failure of an operation with a failure of the codec (`engine`). -/
def ofCodec (operation : String) (e : CodecError) : DictError := .codec operation e.message

/-- The text of an error. -/
def message : DictError → String
  | wrongType got => "dict_content must be a bytes-like object, got " ++ got
  | badFormat reason => "invalid zstd dictionary: " ++ reason
  | allocation what => "unable to allocate " ++ what
  | contentMismatch text => "prefix content mismatch: " ++ text
  | incompatible mode =>
    mode.name ++ " dictionary cannot be combined with long distance matching, use a prefix"
  | codec operation text => "zstd " ++ operation ++ " failed: " ++ text
  | state text => "dictionary state error: " ++ text

/-- The name of the kind of an error. -/
def kind : DictError → String
  | wrongType _ => "Type"
  | badFormat _ => "Format"
  | allocation _ => "Allocation"
  | contentMismatch _ => "ContentMismatch"
  | incompatible _ => "Incompatible"
  | codec _ _ => "Engine"
  | state _ => "State"

/-- The diagnostic text of an error. -/
def diagnostic : DictError → String
  | e@(wrongType got) => Text.fields e.kind [("got", Text.quote got)]
  | e@(badFormat reason) => Text.fields e.kind [("reason", Text.quote reason)]
  | e@(allocation what) => Text.fields e.kind [("what", Text.quote what)]
  | e@(contentMismatch text) => Text.fields e.kind [("msg", Text.quote text)]
  | e@(incompatible mode) => Text.fields e.kind [("mode", mode.diagnostic)]
  | e@(codec operation text) =>
    Text.fields e.kind [("op", Text.quote operation), ("msg", Text.quote text)]
  | e@(state text) => Text.applied e.kind (Text.quote text)

end DictError

/-- An operation failed, or it broke off. -/
inductive Fault where
  | error (e : DictError)
  | panic (text : String)
  deriving Repr, DecidableEq, Inhabited

end SharedDictionary
