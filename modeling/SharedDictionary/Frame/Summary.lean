import SharedDictionary.Frame.Boundary

/-!
# What a frame shows of itself

## Main definitions

* `FrameSummary`, `FrameSummary.of` — the fields of a frame that can be told without decoding it
-/

namespace SharedDictionary

/-- What a frame shows of itself. -/
structure FrameSummary where
  /-- The bytes of the magic number. -/
  magic : ByteArray
  /-- The frame ends where the bytes end. -/
  whole : Bool
  contentSize : Option Nat
  dictId : Nat
  /-- The bytes of the checksum, if there is one. -/
  checksum : Option ByteArray

/-- The summary of the frame that some bytes start with. -/
def FrameSummary.of (frame : ByteArray) : FrameSummary :=
  let magic := frame.extract 0 4
  let whole := match frameSize frame 0 frame.size with
    | .ok size => size == frame.size
    | .error _ => false
  match HeaderScan.read frame 0 frame.size with
  | .ok (.frame header) =>
    ⟨magic, whole, header.contentSize, header.dictId,
      if header.checksum then some (frame.extract (frame.size - 4) frame.size) else none⟩
  | _ => ⟨magic, whole, none, 0, none⟩

end SharedDictionary
