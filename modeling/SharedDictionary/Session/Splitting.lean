import SharedDictionary.Session.Decompressor

/-!
# An input that is split into frames

A run over an input holds what is left of it.  As long as there is something left, a turn of the run scans for the
end of the next frame, splits what is left there, and hands the frame to the session.  A frame that were longer
than what is left could not be split off, and would end the program.  This is `decompress_frames`, turn by turn.

## Main definitions

* `Splitting` — a run between two frames
* `Splitting.turn`, `Splitting.run` — the run, turn by turn
-/

namespace SharedDictionary

/-- A run over the frames of an input, between two frames. -/
structure Splitting where
  session : Decompressor
  /-- What is left of the input. -/
  rest : ByteArray
  /-- The output so far. -/
  out : ByteArray

/-- What a turn of a run comes to. -/
inductive SplittingTurn where
  | again (s : Splitting)
  | ended (result : Except Fault ByteArray × Decompressor)

namespace Splitting

/-- A run in front of an input. -/
def start (d : Decompressor) (input : ByteArray) : Splitting := ⟨d, input, ByteArray.empty⟩

/-- Splits bytes at a position, which must lie within them (`split_at`). -/
def splitAt (bytes : ByteArray) (middle : Nat) : Except Fault (ByteArray × ByteArray) :=
  if bytes.size < middle then .error (.panic "mid > len")
  else .ok (bytes.extract 0 middle, bytes.extract middle bytes.size)

/-- One turn of a run. -/
def turn (s : Splitting) : SplittingTurn :=
  match frameSize s.rest 0 s.rest.size with
  | .error e => .ended (.error (.error (.ofCodec "find frame boundary" e)), s.session)
  | .ok size =>
    match splitAt s.rest size with
    | .error fault => .ended (.error fault, s.session)
    | .ok (frame, rest) =>
      match s.session.decompressFrame frame s.out with
      | (.error fault, session, _) => .ended (.error fault, session)
      | (.ok (), session, out) => .again ⟨session, rest, out⟩

/-- A run after some turns, or its result if it ends before. -/
def run (turns : Nat) (s : Splitting) : SplittingTurn :=
  if s.rest.isEmpty then .ended (.ok s.out, s.session)
  else
    match turns with
    | 0 => .again s
    | turns + 1 =>
      match s.turn with
      | .again s => run turns s
      | .ended result => .ended result

end Splitting

end SharedDictionary
