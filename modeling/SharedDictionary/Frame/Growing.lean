import SharedDictionary.Frame.Stream

/-!
# An output that grows

The content of frames that do not declare its size goes into an output whose capacity starts small.  A decoder
is called with the room that is left, and called again as long as it has more to hand out.  An output that is
full grows by a fixed step, or by what is left up to a limit, and at the limit the loop ends.  This is the loop of
`stream_unsized`, turn by turn.

What the loop asks of a decoder is a call that reads on in the input and hands out so many bytes at most
(`StreamDecoder`).  The codec's decoder is one of them (`codecDecoder`): a frame has a course, which is settled
where the frame starts, and calls hand out the content as far as there is room for it.

## Main definitions

* `StreamCall`, `StreamDecoder` — what a call comes to, and a decoder
* `Growing`, `Growing.turn`, `Growing.run` — the loop
* `Course`, `frameCourse` — what a frame comes to
* `codecDecoder` — the codec's decoder
-/

namespace SharedDictionary

/-- What a call of a decoder comes to. -/
structure StreamCall (σ : Type) where
  state : σ
  /-- How far the input was read. -/
  position : Nat
  /-- The bytes that were handed out. -/
  written : ByteArray
  /-- A frame has ended, and all its content was handed out. -/
  complete : Bool

/-- A decoder with states `σ`, and what it does when it is called (`decompress_stream`). -/
structure StreamDecoder (σ : Type) where
  initial : σ
  /-- Reads on in an input from a position, with room for some bytes. -/
  call : (input : ByteArray) → (position room : Nat) → σ → Except CodecError (StreamCall σ)

/-! ### The loop -/

/-- The loop between two calls. -/
structure Growing (σ : Type) where
  state : σ
  position : Nat
  /-- The output so far. -/
  bytes : ByteArray
  /-- What the output can hold before it must grow. -/
  capacity : Nat

/-- What a turn of the loop comes to. -/
inductive Turn (σ : Type) where
  | again (g : Growing σ)
  | ended (result : Except StreamFailure ByteArray)

namespace Growing

variable {σ : Type}

/-- The loop at its start. -/
def start (D : StreamDecoder σ) (max : Nat) : Growing σ :=
  ⟨D.initial, 0, ByteArray.empty, min StreamOutput.growth max⟩

/-- Lets an output grow that is full. -/
def makeRoom (max : Nat) (g : Growing σ) : Except StreamFailure (Growing σ) :=
  if g.bytes.size = g.capacity then
    if max ≤ g.bytes.size then .error .limit
    else .ok { g with capacity := g.bytes.size + min StreamOutput.growth (max - g.bytes.size) }
  else .ok g

/-- How the loop goes on after a call. -/
def proceed (input : ByteArray) (g : Growing σ) (c : StreamCall σ) : Turn σ :=
  let bytes := g.bytes ++ c.written
  let drained := c.position == input.size
  if c.complete && drained then .ended (.ok bytes)
  else if drained && bytes.size < g.capacity then .ended (.error .truncated)
  else .again ⟨c.state, c.position, bytes, g.capacity⟩

/-- One turn of the loop. -/
def turn (D : StreamDecoder σ) (input : ByteArray) (max : Nat) (g : Growing σ) : Turn σ :=
  match g.makeRoom max with
  | .error e => .ended (.error e)
  | .ok g =>
    match D.call input g.position (g.capacity - g.bytes.size) g.state with
    | .error e => .ended (.error (.codec e))
    | .ok c => g.proceed input c

/-- The loop after some turns, or its result if it ends before. -/
def run (D : StreamDecoder σ) (input : ByteArray) (max : Nat) : (turns : Nat) → Growing σ → Turn σ
  | 0, g => .again g
  | turns + 1, g =>
    match g.turn D input max with
    | .again g => run D input max turns g
    | .ended result => .ended result

end Growing

/-! ### The decoder of the codec -/

/-- How a frame ends. -/
inductive CourseEnd where
  /-- It is complete, and leaves some buffers. -/
  | complete (next : Nat) (buffers : StreamBuffers)
  /-- The input ends inside it. -/
  | starved
  | failed (e : CodecError)

/-- What a frame comes to: its content up to where it ends, and how it ends. -/
structure Course where
  content : ByteArray
  ending : CourseEnd

/-- How a frame ends that cannot be read on. -/
def CourseEnd.ofFailure : StreamFailure → CourseEnd
  | .codec e => .failed e
  | _ => .starved

/-- An output with room for another block. -/
def StreamOutput.ample (content : ByteArray) (blockLimit : Nat) : StreamOutput :=
  ⟨content, content.size + blockLimit + 1⟩

/-- The end of a frame behind its last block. -/
def Course.close (f : StreamFrame) (bytes : ByteArray) (position stop : Nat) (content : ByteArray)
    (buffers : StreamBuffers) : Course :=
  match f.finish bytes position stop (.ample content f.header.blockLimit) with
  | .error failure => ⟨content, .ofFailure failure⟩
  | .ok (next, _) => ⟨content, .complete next buffers⟩

/-- The course of a frame from some block on, of which some content has been decoded. -/
def courseBlocks (f : StreamFrame) (bytes : ByteArray) (stop start : Nat) (d : BlockDecoder)
    (w : StreamWindow) (content : ByteArray) (buffers : StreamBuffers) : Course :=
  if stop < start + BlockHeader.size then ⟨content, .starved⟩
  else
    match BlockHeader.read bytes start stop with
    | .error e => ⟨content, .failed e⟩
    | .ok block =>
      if f.header.blockLimit < block.stored then ⟨content, .failed .corruption⟩
      else if block.stored = 0 then
        if block.last then .close f bytes (block.endAfter start) stop content buffers
        else courseBlocks f bytes stop (block.endAfter start) d w content buffers
      else
        match streamBlock f d w block bytes (start + BlockHeader.size) stop
            (.ample content f.header.blockLimit) with
        | .error failure => ⟨content, .ofFailure failure⟩
        | .ok (complete, d, w, o) =>
          if !complete then ⟨o.bytes, .starved⟩
          else if block.last then .close f bytes (block.endAfter start) stop o.bytes buffers
          else courseBlocks f bytes stop (block.endAfter start) d w o.bytes buffers
termination_by stop - start
decreasing_by
  all_goals
    have := block.lt_endAfter start
    simp only [BlockHeader.size] at *
    omega

/-- The course of a frame that is decoded through buffers, or in one go if it fits the room. -/
def dataCourse (dict : Option LoadedDictionary) (cold : Bool) (header : FrameHeader) (bytes : ByteArray)
    (start stop : Nat) (buffers : StreamBuffers) (room : Nat) : Course :=
  match inOneGo header bytes start stop ⟨ByteArray.empty, room⟩ with
  | some size =>
    match decodeConcatenated dict cold bytes start (start + size) room false ByteArray.empty with
    | .error e => ⟨ByteArray.empty, .failed e⟩
    | .ok content => ⟨content, .complete (start + size) buffers⟩
  | none =>
    match checkDictionary dict header with
    | .error e => ⟨ByteArray.empty, .failed e⟩
    | .ok () =>
      if StreamBuffers.maxWindow < header.windowSize then ⟨ByteArray.empty, .failed .windowTooLarge⟩
      else
        let buffers := buffers.adapt (.needed header.windowSize header.blockLimit header.contentSize)
        let (history, state) := startingPoint dict
        courseBlocks ⟨header, buffers.output, 0⟩ bytes stop (start + header.size) ⟨state, cold⟩
          ⟨history, history.size⟩ ByteArray.empty buffers

/-- The course of the frame at a position. -/
def frameCourse (dict : Option LoadedDictionary) (cold : Bool) (bytes : ByteArray) (start stop : Nat)
    (buffers : StreamBuffers) (room : Nat) : Course :=
  match HeaderScan.read bytes start stop with
  | .error e => ⟨ByteArray.empty, .failed e⟩
  | .ok (.needs _) => ⟨ByteArray.empty, .starved⟩
  | .ok (.skippable length) =>
    if stop < start + 8 + length then ⟨ByteArray.empty, .starved⟩
    else ⟨ByteArray.empty, .complete (start + 8 + length) (buffers.adapt (.needed 0 0 (some length)))⟩
  | .ok (.frame header) => dataCourse dict cold header bytes start stop buffers room

/-- The state of the codec's decoder. -/
structure CodecState where
  /-- The dictionary of the next frame. -/
  dict : Option LoadedDictionary
  /-- No frame has been decoded with the dictionary yet. -/
  cold : Bool
  buffers : StreamBuffers
  /-- What is left of the frame that is being decoded. -/
  course : Option Course

namespace CodecState

/-- What is left of the frame at a position. -/
def courseAt (s : CodecState) (input : ByteArray) (position room : Nat) : Course :=
  s.course.getD (frameCourse s.dict s.cold input position input.size s.buffers room)

/-- Hands out what is left of a frame, as far as there is room, and goes on to its end if there is room for all
of it.  A dictionary that serves one frame only is gone after the first. -/
def handOut (once : Bool) (input : ByteArray) (position room : Nat) (s : CodecState) (course : Course) :
    Except CodecError (StreamCall CodecState) :=
  if room < course.content.size then
    .ok ⟨{ s with course := some ⟨course.content.extract room course.content.size, course.ending⟩ }, position,
      course.content.extract 0 room, false⟩
  else
    match course.ending with
    | .complete next buffers =>
      .ok ⟨⟨if once then none else s.dict, false, buffers, none⟩, next, course.content, true⟩
    | .starved =>
      .ok ⟨{ s with course := some ⟨ByteArray.empty, .starved⟩ }, input.size, course.content, false⟩
    | .failed e => .error e

end CodecState

/-- The codec's decoder, with a dictionary. -/
def codecDecoder (dict : Option LoadedDictionary) (once : Bool) : StreamDecoder CodecState where
  initial := ⟨dict, dict.isSome, ⟨0, 0⟩, none⟩
  call input position room s := s.handOut once input position room (s.courseAt input position room)

end SharedDictionary
