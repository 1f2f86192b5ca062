import SharedDictionary.Mode
import SharedDictionary.Text.Quoted

/-!
# Views of a dictionary

A view is what a dictionary hands to a session: a digested artifact, or its content together with
the way to load it.

## Main definitions

* `DictView` — a view whose digested form is an artifact of a given type
* `DictView.mode` — how it is loaded
-/

namespace SharedDictionary

/-- What a dictionary hands to a session. -/
inductive DictView (α : Type) where
  /-- An artifact, which for a compressor is built for a level. -/
  | digested (level : Option Int32) (artifact : α)
  /-- Content to prepare for each frame. -/
  | undigested (content : ByteArray)
  /-- Content that serves a single frame as plain history. -/
  | prefixed (content : ByteArray)

namespace DictView

variable {α : Type}

/-- How a view is loaded. -/
def mode : DictView α → DictMode
  | digested _ _ => .digested
  | undigested _ => .undigested
  | prefixed _ => .prefixed

/-- The view serves a single frame. -/
def isPrefixed (v : DictView α) : Bool :=
  match v with
  | prefixed _ => true
  | _ => false

/-- The diagnostic text of a view.  Of an artifact only the level is shown. -/
def diagnostic (v : DictView α) : String :=
  Text.applied v.mode.diagnostic
    (match v with
    | digested level _ =>
      Text.someFields "DigestedDict" [("level", Text.option (level.map fun l => toString l.toInt))]
    | undigested content => Text.fields "UndigestedDict" [("content", Text.bytes content)]
    | prefixed content => Text.fields "PrefixDict" [("content", Text.bytes content)])

end DictView

end SharedDictionary
