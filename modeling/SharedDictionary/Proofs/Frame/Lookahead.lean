import SharedDictionary.Frame.Stream

/-!
# A cold dictionary changes one error only

The first compressed block behind a dictionary that is *cold* looks at the end of its bit string before
it executes its last sequences, any other block does so after it.  So there is one thing that tells
them apart: where the string does not end properly and the last sequences are too long for the output,
a cold dictionary has damage reported, and another a range that is too small (`executeChecked_cold`).

This is carried from the sequences of a block to whole inputs.  Empty content that was digested is a
dictionary, a cold one, although it adds nothing to any frame.  So it decodes like no dictionary at all
up to that one error (`decodeWhole_plain_empty`, `decodeStream_plain_empty`).
-/

namespace SharedDictionary

/-- Two results are the same, or they are two certain failures. -/
def SameOr {ε α : Type} (e e' : ε) (r r' : Except ε α) : Prop :=
  r = r' ∨ r = .error e ∧ r' = .error e'

/-- Failures may be reported as others. -/
theorem SameOr.mapError {ε ε' α : Type} {e e' : ε} {r r' : Except ε α} (h : SameOr e e' r r')
    (f : ε → ε') : SameOr (f e) (f e') (r.mapError f) (r'.mapError f) := by
  rcases h with rfl | ⟨rfl, rfl⟩
  · exact .inl rfl
  · exact .inr ⟨rfl, rfl⟩

/-- The results of decoders of which the first has a cold dictionary. -/
abbrev ColdSame {α : Type} (r r' : Except CodecError α) : Prop :=
  SameOr .corruption .outputTooSmall r r'

/-! ### Sequences -/

section Sequences

variable (literals : ByteArray) (limit : Nat)

theorem executeAll_append (first second : List Sequence) (x : Execution) :
    executeAll literals limit (first ++ second) x
      = (executeAll literals limit first x).bind (executeAll literals limit second) := by
  induction first generalizing x with
  | nil => rfl
  | cons s first ih =>
      rw [List.cons_append, executeAll, executeAll]
      rcases s.execute literals limit x with e | x'
      · rfl
      · exact ih x'

variable {literals limit} in
/-- Sequences that cannot be executed are damaged, or the output is too small for them. -/
theorem executeAll_eq_error {sequences : List Sequence} {x : Execution} {e : CodecError}
    (h : executeAll literals limit sequences x = .error e) : e = .corruption ∨ e = .outputTooSmall := by
  induction sequences generalizing x with
  | nil => cases h
  | cons s sequences ih =>
      rw [executeAll] at h
      rcases hexecute : s.execute literals limit x with e' | x' <;> rw [hexecute] at h
      · cases h
        rw [Sequence.execute] at hexecute
        repeat' split at hexecute
        all_goals cases hexecute
        · exact .inr rfl
        · exact .inl rfl
        · exact .inl rfl
      · exact ih h

/-- What sequences come to that are executed in two parts, with a look at the end of their bit string
between them. -/
private theorem executeChecked_eq (cold : Bool) (sequences : List Sequence) (ended : Bool)
    (x : Execution) :
    executeChecked literals limit cold sequences ended x
      = (executeAll literals limit
            (sequences.take (if cold then sequences.length - lookahead else sequences.length)) x).bind
          fun x => if ended then executeAll literals limit
            (sequences.drop (if cold then sequences.length - lookahead else sequences.length)) x
            else .error .corruption := by
  rw [executeChecked]
  cases ended <;> rfl

/-- **The end of the bit string is looked at before or after the last sequences are executed.** -/
theorem executeChecked_cold (sequences : List Sequence) (ended : Bool) (x : Execution) :
    ColdSame (executeChecked literals limit true sequences ended x)
      (executeChecked literals limit false sequences ended x) := by
  rw [executeChecked_eq, executeChecked_eq]
  simp only [if_true, Bool.false_eq_true, if_false, List.take_length, List.drop_length]
  generalize sequences.length - lookahead = early
  have hsplit : executeAll literals limit sequences x
      = (executeAll literals limit (sequences.take early) x).bind
          (executeAll literals limit (sequences.drop early)) := by
    rw [← executeAll_append, List.take_append_drop]
  rw [hsplit]
  rcases executeAll literals limit (sequences.take early) x with e | x'
  · exact .inl rfl
  · simp only [Except.bind]
    rcases hlate : executeAll literals limit (sequences.drop early) x' with e | x''
    · cases ended with
      | true => exact .inl rfl
      | false =>
          rcases executeAll_eq_error hlate with rfl | rfl
          · exact .inl rfl
          · exact .inr ⟨rfl, rfl⟩
    · cases ended with
      | true => exact .inl rfl
      | false => exact .inl rfl

end Sequences

/-! ### Blocks -/

section Blocks

variable (state : Entropy.CodingState) (bytes : ByteArray)

theorem decodeCompressed_cold (space : BlockSpace) (window : ByteArray) (start stop : Nat) :
    ColdSame (decodeCompressed space ⟨state, true⟩ window bytes start stop)
      (decodeCompressed space ⟨state, false⟩ window bytes start stop) := by
  unfold decodeCompressed
  by_cases hlong : space.blockLimit < stop - start
  · rw [if_pos hlong, if_pos hlong]
    show ColdSame (.error .wrongInputSize) (.error .wrongInputSize)
    exact .inl rfl
  · rw [if_neg hlong, if_neg hlong]
    rcases Literals.read space state bytes start stop with e | ⟨literals, state⟩
    · show ColdSame (.error e) (.error e)
      exact .inl rfl
    · dsimp only [bind, Except.bind, pure, Except.pure]
      rcases SequenceHeader.read state.sequences bytes (start + literals.size) stop with e | header
      · exact .inl rfl
      · dsimp only
        rcases header.tables with _ | tables
        · exact .inl rfl
        · dsimp only
          by_cases hroom : space.room = 0
          · rw [if_pos hroom, if_pos hroom]
            show ColdSame (.error .outputTooSmall) (.error .outputTooSmall)
            exact .inl rfl
          · rw [if_neg hroom, if_neg hroom]
            rcases Bits.Backward.open? bytes (start + literals.size + header.size) stop with _ | r
            · exact .inl rfl
            · dsimp only
              rcases executeChecked_cold literals.content (window.size + literals.room)
                (Sequence.readAll tables state.recent r header.count).1
                (Sequence.readAll tables state.recent r header.count).2.2 ⟨window, 0⟩
                with hsame | ⟨hcold, hwarm⟩
              · rw [hsame]
                exact .inl rfl
              · rw [hcold, hwarm]
                exact .inr ⟨rfl, rfl⟩

/-- A block that is not compressed leaves a dictionary as cold as it was. -/
theorem decodeBlock_cold (space : BlockSpace) (window : ByteArray) (block : BlockHeader)
    (start : Nat) :
    ColdSame (decodeBlock space ⟨state, true⟩ window block bytes start)
        (decodeBlock space ⟨state, false⟩ window block bytes start)
      ∨ ∃ window', decodeBlock space ⟨state, true⟩ window block bytes start
            = .ok (⟨state, true⟩, window')
          ∧ decodeBlock space ⟨state, false⟩ window block bytes start
            = .ok (⟨state, false⟩, window') := by
  unfold decodeBlock
  cases block.kind with
  | raw =>
      dsimp only
      split
      · exact .inl (.inl rfl)
      · exact .inr ⟨_, rfl, rfl⟩
  | run =>
      dsimp only
      split
      · exact .inl (.inl rfl)
      · exact .inr ⟨_, rfl, rfl⟩
  | compressed => exact .inl (decodeCompressed_cold state bytes space window _ _)

/-- **The blocks of a frame**: the dictionary is cold up to the first block that is compressed. -/
theorem decodeBlocks_cold (stop limit blockLimit start : Nat) (window : ByteArray) :
    ColdSame (decodeBlocks bytes stop limit blockLimit start ⟨state, true⟩ window)
      (decodeBlocks bytes stop limit blockLimit start ⟨state, false⟩ window) := by
  induction hleft : stop - start using Nat.strongRecOn generalizing start window with
  | ind left ih =>
      rw [decodeBlocks, decodeBlocks]
      rcases hread : BlockHeader.read bytes start stop with e | block
      · exact .inl rfl
      · dsimp only
        by_cases hlong : stop < block.endAfter start
        · rw [if_pos hlong, if_pos hlong]
          exact .inl rfl
        · rw [if_neg hlong, if_neg hlong]
          have hlt := block.lt_endAfter start
          rcases decodeBlock_cold state bytes
            ⟨limit - window.size, blockLimit, true⟩ window block (start + BlockHeader.size)
            with (hsame | ⟨hcold, hwarm⟩) | ⟨window', hcold, hwarm⟩
          · rw [hsame]
            exact .inl rfl
          · rw [hcold, hwarm]
            exact .inr ⟨rfl, rfl⟩
          · rw [hcold, hwarm]
            dsimp only
            cases block.last with
            | true => exact .inl rfl
            | false => exact ih _ (by omega) _ _ rfl

end Blocks

/-! ### Whole inputs -/

section Inputs

variable (bytes : ByteArray)

/-- A frame finds no more in empty content than without a dictionary. -/
theorem decodeFrame_plain_empty (cold : Bool) (start stop capacity : Nat) :
    decodeFrame (some (.plain ByteArray.empty)) cold bytes start stop capacity
      = decodeFrame none cold bytes start stop capacity := rfl

theorem decodeFrame_cold (dict : Option LoadedDictionary) (start stop capacity : Nat) :
    ColdSame (decodeFrame dict true bytes start stop capacity)
      (decodeFrame dict false bytes start stop capacity) := by
  unfold decodeFrame
  rcases readFrameHeader bytes start stop with e | header
  · exact .inl rfl
  · dsimp only
    rcases checkDictionary dict header with e | ⟨⟨⟩⟩
    · exact .inl rfl
    · dsimp only
      rcases decodeBlocks_cold (startingPoint dict).2 bytes stop
        ((startingPoint dict).1.size + capacity) header.blockLimit (start + header.size)
        (startingPoint dict).1 with hsame | ⟨hcold, hwarm⟩
      · rw [hsame]
        exact .inl rfl
      · rw [hcold, hwarm]
        exact .inr ⟨rfl, rfl⟩

/-- What the rest of an input comes to, by its first frame. -/
private theorem decodeConcatenated_eq (dict : Option LoadedDictionary) (cold : Bool)
    (start stop capacity : Nat) (later : Bool) (out : ByteArray) :
    decodeConcatenated dict cold bytes start stop capacity later out
      = if start + shortestInput ≤ stop then
          match skippableAt bytes start stop with
          | some (.error e) => .error e
          | some (.ok size) =>
            decodeConcatenated dict cold bytes (start + size) stop capacity later out
          | none =>
            match decodeFrame dict cold bytes start stop (capacity - out.size) with
            | .error e => .error (if later && e == .unknownMagic then .wrongInputSize else e)
            | .ok frame =>
              decodeConcatenated dict false bytes frame.next stop capacity true
                (out ++ frame.content)
        else if start < stop then .error .wrongInputSize
        else .ok out := by
  rw [decodeConcatenated]
  split
  · split
    · rename_i hskip
      rw [hskip]
    · rename_i hskip
      rw [hskip]
    · rename_i hskip
      rw [hskip]
      dsimp only
      split
      · rename_i hframe
        rw [hframe]
      · rename_i hframe
        rw [hframe]
  · rfl

/-- Empty content makes no difference if it is not cold. -/
theorem decodeConcatenated_plain_empty (start stop capacity : Nat) (later : Bool) (out : ByteArray) :
    decodeConcatenated (some (.plain ByteArray.empty)) false bytes start stop capacity later out
      = decodeConcatenated none false bytes start stop capacity later out := by
  induction hleft : stop - start using Nat.strongRecOn generalizing start later out with
  | ind left ih =>
      rw [decodeConcatenated_eq, decodeConcatenated_eq bytes none]
      split
      · rename_i hlong
        simp only [shortestInput] at hlong
        rcases hskip : skippableAt bytes start stop with _ | (e | size)
        · simp only [decodeFrame_plain_empty]
          rcases hframe : decodeFrame none false bytes start stop (capacity - out.size) with e | frame
          · rfl
          · have hlt := lt_of_decodeFrame hframe
            exact ih _ (by omega) _ _ _ rfl
        · rfl
        · have hpos := pos_of_skippableAt hskip
          exact ih _ (by omega) _ _ _ rfl
      · rfl

/-- **The frames of an input**: the dictionary is cold for the first one only. -/
theorem decodeConcatenated_cold (start stop capacity : Nat) (later : Bool) (out : ByteArray) :
    ColdSame
      (decodeConcatenated (some (.plain ByteArray.empty)) true bytes start stop capacity later out)
      (decodeConcatenated none false bytes start stop capacity later out) := by
  induction hleft : stop - start using Nat.strongRecOn generalizing start later out with
  | ind left ih =>
      rw [decodeConcatenated_eq, decodeConcatenated_eq bytes none]
      split
      · rename_i hlong
        simp only [shortestInput] at hlong
        rcases hskip : skippableAt bytes start stop with _ | (e | size)
        · simp only [decodeFrame_plain_empty, decodeConcatenated_plain_empty]
          rcases decodeFrame_cold bytes none start stop (capacity - out.size)
            with hsame | ⟨hcold, hwarm⟩
          · rw [hsame]
            exact .inl rfl
          · rw [hcold, hwarm]
            cases later
            · exact .inr ⟨rfl, rfl⟩
            · exact .inr ⟨rfl, rfl⟩
        · exact .inl rfl
        · have hpos := pos_of_skippableAt hskip
          exact ih _ (by omega) _ _ _ rfl
      · exact .inl rfl

/-- Empty content that was digested decodes an input like no dictionary does, up to one error. -/
theorem decodeWhole_plain_empty (capacity : Nat) :
    ColdSame (decodeWhole (some (.plain ByteArray.empty)) bytes capacity)
      (decodeWhole none bytes capacity) :=
  decodeConcatenated_cold bytes _ _ _ _ _

/-! ### Decoding through buffers -/

/-- The results of decoders through buffers of which the first has a cold dictionary. -/
abbrev StreamSame {α : Type} (r r' : Except StreamFailure α) : Prop :=
  SameOr (.codec .corruption) (.codec .outputTooSmall) r r'

theorem streamBlock_cold (f : StreamFrame) (state : Entropy.CodingState) (w : StreamWindow)
    (block : BlockHeader) (start stop : Nat) (o : StreamOutput) :
    StreamSame (streamBlock f ⟨state, true⟩ w block bytes start stop o)
        (streamBlock f ⟨state, false⟩ w block bytes start stop o)
      ∨ ∃ complete w' o', streamBlock f ⟨state, true⟩ w block bytes start stop o
            = .ok (complete, ⟨state, true⟩, w', o')
          ∧ streamBlock f ⟨state, false⟩ w block bytes start stop o
            = .ok (complete, ⟨state, false⟩, w', o') := by
  obtain ⟨window, segment⟩ := w
  unfold streamBlock
  dsimp only
  split
  · exact .inl (.inl rfl)
  · generalize (if (min block.stored (stop - start) == block.stored) = true then block
      else { block with length := min block.stored (stop - start) }) = part
    rcases decodeBlock_cold state bytes
      ⟨f.buffer - (window.size - segment), f.header.blockLimit, false⟩ window part start
      with (hsame | ⟨hcold, hwarm⟩) | ⟨window', hcold, hwarm⟩
    · rw [hsame]
      exact .inl (.inl rfl)
    · rw [hcold, hwarm]
      exact .inl (.inr ⟨rfl, rfl⟩)
    · rw [hcold, hwarm]
      dsimp only
      split
      · exact .inl (.inl rfl)
      · split
        · exact .inl (.inl rfl)
        · split
          · exact .inr ⟨_, _, _, rfl, rfl⟩
          · rcases o.flush window' window.size with e | o'
            · exact .inl (.inl rfl)
            · exact .inr ⟨_, _, _, rfl, rfl⟩

theorem streamBlocks_cold (f : StreamFrame) (state : Entropy.CodingState) (stop start : Nat)
    (w : StreamWindow) (o : StreamOutput) :
    StreamSame (streamBlocks f bytes stop start ⟨state, true⟩ w o)
      (streamBlocks f bytes stop start ⟨state, false⟩ w o) := by
  induction hleft : stop - start using Nat.strongRecOn generalizing start w o with
  | ind left ih =>
      rw [streamBlocks, streamBlocks]
      by_cases hshort : stop < start + BlockHeader.size
      · rw [if_pos hshort, if_pos hshort]
        exact .inl rfl
      · rw [if_neg hshort, if_neg hshort]
        rcases BlockHeader.read bytes start stop with e | block
        · exact .inl rfl
        · have hlt := block.lt_endAfter start
          simp only [BlockHeader.size] at hshort
          dsimp only
          split
          · exact .inl rfl
          · split
            · cases block.last with
              | true => exact .inl rfl
              | false => exact ih _ (by omega) _ _ _ rfl
            · rcases streamBlock_cold bytes f state w block (start + BlockHeader.size) stop o
                with (hsame | ⟨hcold, hwarm⟩) | ⟨complete, w', o', hcold, hwarm⟩
              · rw [hsame]
                exact .inl rfl
              · rw [hcold, hwarm]
                exact .inr ⟨rfl, rfl⟩
              · rw [hcold, hwarm]
                dsimp only
                cases complete with
                | false => exact .inl rfl
                | true =>
                    cases block.last with
                    | true => exact .inl rfl
                    | false => exact ih _ (by omega) _ _ _ rfl

/-- A frame through buffers finds no more in empty content than without a dictionary, if that is not
cold. -/
theorem streamFrame_plain_empty (start stop : Nat) (buffers : StreamBuffers) (o : StreamOutput) :
    streamFrame (some (.plain ByteArray.empty)) false bytes start stop buffers o
      = streamFrame none false bytes start stop buffers o := by
  unfold streamFrame streamDataFrame
  simp only [decodeConcatenated_plain_empty]
  rfl

theorem streamFrame_cold (start stop : Nat) (buffers : StreamBuffers) (o : StreamOutput) :
    StreamSame (streamFrame (some (.plain ByteArray.empty)) true bytes start stop buffers o)
      (streamFrame none false bytes start stop buffers o) := by
  unfold streamFrame
  rcases HeaderScan.read bytes start stop with e | (length | length | header)
  · exact .inl rfl
  · exact .inl rfl
  · exact .inl rfl
  · dsimp only
    unfold streamDataFrame
    rcases inOneGo header bytes start stop o with _ | size
    · dsimp only
      rw [show checkDictionary (some (.plain ByteArray.empty)) header = checkDictionary none header
        from rfl]
      rcases checkDictionary none header with e | ⟨⟨⟩⟩
      · exact .inl rfl
      · dsimp only
        split
        · exact .inl rfl
        · rcases streamBlocks_cold bytes
            ⟨header, (buffers.adapt (.needed header.windowSize header.blockLimit
              header.contentSize)).output, o.bytes.size⟩
            Entropy.CodingState.initial stop (start + header.size)
            ⟨ByteArray.empty, ByteArray.empty.size⟩ o with hsame | ⟨hcold, hwarm⟩
          · simp only [startingPoint, LoadedDictionary.plain, hsame]
            exact .inl rfl
          · simp only [startingPoint, LoadedDictionary.plain, hcold, hwarm]
            exact .inr ⟨rfl, rfl⟩
    · dsimp only
      rcases decodeConcatenated_cold bytes start (start + size) o.room false ByteArray.empty
        with hsame | ⟨hcold, hwarm⟩
      · rw [hsame]
        exact .inl rfl
      · rw [hcold, hwarm]
        exact .inr ⟨rfl, rfl⟩

theorem streamFrames_plain_empty (start stop : Nat) (buffers : StreamBuffers) (o : StreamOutput)
    (fuel : Nat) :
    streamFrames (some (.plain ByteArray.empty)) false false bytes start stop buffers o fuel
      = streamFrames none false false bytes start stop buffers o fuel := by
  induction fuel generalizing start buffers o with
  | zero => rfl
  | succ fuel ih =>
      rw [streamFrames, streamFrames, streamFrame_plain_empty]
      simp only [Bool.false_eq_true, if_false, ih]

theorem streamFrames_cold (start stop : Nat) (buffers : StreamBuffers) (o : StreamOutput)
    (fuel : Nat) :
    StreamSame
      (streamFrames (some (.plain ByteArray.empty)) false true bytes start stop buffers o fuel)
      (streamFrames none false false bytes start stop buffers o fuel) := by
  cases fuel with
  | zero => exact .inl rfl
  | succ fuel =>
      rw [streamFrames, streamFrames]
      split
      · exact .inl rfl
      · rcases streamFrame_cold bytes start stop buffers o with hsame | ⟨hcold, hwarm⟩
        · -- Whatever the first frame was, the dictionary is not cold behind it.
          rw [hsame]
          simp only [Bool.false_eq_true, if_false, streamFrames_plain_empty]
          exact .inl rfl
        · rw [hcold, hwarm]
          exact .inr ⟨rfl, rfl⟩

/-- Empty content that was digested decodes an input through buffers like no dictionary does, up to one
error. -/
theorem decodeStream_plain_empty (max : Nat) :
    StreamSame (decodeStream (some (.plain ByteArray.empty)) false bytes max)
      (decodeStream none false bytes max) :=
  streamFrames_cold bytes _ _ _ _ _

end Inputs

end SharedDictionary
