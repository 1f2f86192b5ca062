import SharedDictionary.Proofs.Frame.Courses

/-!
# How an output grows

The capacity of an output that grows is known from its size: it is the next multiple of the step, or the limit
(`Growing.Stepwise`).  Every turn keeps that, whatever decoder is called, if only it hands out no more than there
is room for.  So there is always room for a call, the output never holds more than its capacity, and the
capacity never exceeds the limit (`Growing.stepwise_run`).

Where the decoder is the codec's, what the loop does with a frame is settled by the course of the frame
(`Growing.Poised.ends_of_course`): how often the output has to grow on the way makes no difference.
-/

namespace SharedDictionary

/-- A decoder hands out no more than there is room for. -/
def StreamDecoder.Fits {σ : Type} (D : StreamDecoder σ) (input : ByteArray) : Prop :=
  ∀ position room s c, D.call input position room s = .ok c → c.written.size ≤ room

namespace Growing

open StreamOutput (growth)

variable {σ : Type} {D : StreamDecoder σ} {input : ByteArray} {max : Nat} {g g' : Growing σ}

/-! ### Steps of growth -/

/-- The capacity of an output is the next multiple of the step, or the limit, if there is room left; and an output
without room is at a multiple of the step, or at the limit. -/
structure Stepwise (max : Nat) (g : Growing σ) : Prop where
  size_le : g.bytes.size ≤ g.capacity
  capacity_le : g.capacity ≤ max
  next : g.bytes.size < g.capacity → g.capacity = min max (growth * (g.bytes.size / growth + 1))
  full : g.bytes.size = g.capacity → g.capacity < max → growth ∣ g.bytes.size

theorem stepwise_start (D : StreamDecoder σ) (max : Nat) : (start D max).Stepwise max where
  size_le := Nat.zero_le _
  capacity_le := Nat.min_le_right _ _
  next _ := by
    show min growth max = min max (growth * (0 / growth + 1))
    rw [Nat.zero_div, Nat.zero_add, Nat.mul_one, Nat.min_comm]
  full _ _ := Nat.dvd_zero _

/-- **Making room fails only at the limit.** -/
theorem Stepwise.makeRoom_error (hg : g.Stepwise max) {e : StreamFailure} (h : g.makeRoom max = .error e) :
    e = .limit ∧ g.bytes.size = max := by
  have hsize := hg.size_le
  have hcapacity := hg.capacity_le
  unfold makeRoom at h
  split at h
  · split at h
    · cases h
      exact ⟨rfl, by omega⟩
    · cases h
  · cases h

/-- **Where room is made, there is some**, up to the next step. -/
theorem Stepwise.makeRoom_ok (hg : g.Stepwise max) (h : g.makeRoom max = .ok g') :
    g'.state = g.state ∧ g'.position = g.position ∧ g'.bytes = g.bytes ∧ g'.Stepwise max
      ∧ g'.bytes.size < g'.capacity := by
  have hsize := hg.size_le
  have hcapacity := hg.capacity_le
  unfold makeRoom at h
  split at h
  · rename_i hfull
    split at h
    · cases h
    · rename_i hlimit
      cases h
      obtain ⟨k, hk⟩ := hg.full hfull (by omega)
      have hgrowth : 0 < growth := by decide
      have hstep : growth * (g.bytes.size / growth + 1) = g.bytes.size + growth := by
        rw [hk, Nat.mul_div_cancel_left k hgrowth, Nat.mul_add, Nat.mul_one]
      have hmore : g.bytes.size < g.bytes.size + min growth (max - g.bytes.size) := by omega
      refine ⟨rfl, rfl, rfl, ⟨?_, ?_, ?_, ?_⟩, ?_⟩ <;> dsimp only
      · omega
      · omega
      · intro _
        rw [hstep]
        omega
      · omega
      · exact hmore
  · rename_i hroom
    cases h
    exact ⟨rfl, rfl, rfl, hg, by omega⟩

/-- What a call hands out keeps the steps, if there is room for it. -/
theorem Stepwise.write (hg : g.Stepwise max) (hroom : g.bytes.size < g.capacity) {written : ByteArray}
    (hwritten : written.size ≤ g.capacity - g.bytes.size) (s : σ) (position : Nat) :
    (Growing.mk s position (g.bytes ++ written) g.capacity).Stepwise max := by
  have hnext := hg.next hroom
  have hsize : (g.bytes ++ written).size = g.bytes.size + written.size := ByteArray.size_append
  have hgrowth : growth = 131072 := rfl
  rw [hgrowth] at hnext
  refine ⟨?_, hg.capacity_le, ?_, ?_⟩ <;> dsimp only <;> rw [hsize]
  · omega
  · intro hless
    -- The output stays below the multiple of the step that bounds it.
    have hsame : (g.bytes.size + written.size) / 131072 = g.bytes.size / 131072 := by omega
    rw [hgrowth, hsame]
    exact hnext
  · intro hfull hlimit
    exact ⟨g.bytes.size / 131072 + 1, by rw [hgrowth]; omega⟩

/-- What a call hands out is not lost, and a result is what was handed out. -/
theorem Stepwise.proceed (hg : g.Stepwise max) (hroom : g.bytes.size < g.capacity) {c : StreamCall σ}
    (hwritten : c.written.size ≤ g.capacity - g.bytes.size) :
    (∀ g', g.proceed input c = .again g' → g'.Stepwise max)
      ∧ ∀ bytes, g.proceed input c = .ended (.ok bytes) → bytes.size ≤ max := by
  have hsize : (g.bytes ++ c.written).size = g.bytes.size + c.written.size := ByteArray.size_append
  have hcapacity := hg.capacity_le
  unfold Growing.proceed
  dsimp only
  split
  · refine ⟨nofun, fun bytes h => ?_⟩
    cases h
    omega
  · split
    · exact ⟨nofun, nofun⟩
    · refine ⟨fun g' h => ?_, nofun⟩
      cases h
      exact hg.write hroom hwritten c.state c.position

/-- **A turn keeps the steps**, whatever decoder is called. -/
theorem Stepwise.turn (hfits : D.Fits input) (hg : g.Stepwise max) :
    (∀ g', g.turn D input max = .again g' → g'.Stepwise max)
      ∧ ∀ bytes, g.turn D input max = .ended (.ok bytes) → bytes.size ≤ max := by
  unfold Growing.turn
  cases hmake : g.makeRoom max with
  | error e => exact ⟨nofun, nofun⟩
  | ok made =>
      obtain ⟨-, -, -, hmade, hroom⟩ := hg.makeRoom_ok hmake
      dsimp only
      cases hcall : D.call input made.position (made.capacity - made.bytes.size) made.state with
      | error e => exact ⟨nofun, nofun⟩
      | ok c => exact hmade.proceed hroom (hfits _ _ _ _ hcall)

/-- **So does every run**: the output never holds more than its capacity, and neither exceeds the limit. -/
theorem stepwise_run (hfits : D.Fits input) (hg : g.Stepwise max) (turns : Nat) :
    (∀ g', g.run D input max turns = .again g' → g'.Stepwise max)
      ∧ ∀ bytes, g.run D input max turns = .ended (.ok bytes) → bytes.size ≤ max := by
  induction turns generalizing g with
  | zero =>
      refine ⟨fun g' h => ?_, nofun⟩
      cases h
      exact hg
  | succ turns ih =>
      obtain ⟨hagain, hended⟩ := hg.turn hfits
      unfold Growing.run
      cases hturn : g.turn D input max with
      | again g' => exact ih (hagain g' hturn)
      | ended result =>
          refine ⟨nofun, fun bytes h => ?_⟩
          cases h
          exact hended bytes hturn

/-! ### The codec's decoder -/

/-- The codec hands out no more than there is room for. -/
theorem fits_codecDecoder (dict : Option LoadedDictionary) (once : Bool) (input : ByteArray) :
    (codecDecoder dict once).Fits input := by
  intro position room s c h
  have hhand : s.handOut once input position room (s.courseAt input position room) = .ok c := h
  unfold CodecState.handOut at hhand
  split at hhand
  · cases hhand
    rw [ByteArray.size_extract]
    omega
  · rename_i hroom
    split at hhand
    · cases hhand
      exact Nat.not_lt.mp hroom
    · cases hhand
      exact Nat.not_lt.mp hroom
    · cases hhand

/-- The loop ends with a result. -/
def Ends (D : StreamDecoder σ) (input : ByteArray) (max : Nat) (g : Growing σ)
    (result : Except StreamFailure ByteArray) : Prop := ∃ turns, g.run D input max turns = .ended result

theorem ends_of_again {result : Except StreamFailure ByteArray} (hturn : g.turn D input max = .again g')
    (h : g'.Ends D input max result) : g.Ends D input max result := by
  obtain ⟨turns, hrun⟩ := h
  refine ⟨turns + 1, ?_⟩
  rw [run, hturn]
  exact hrun

theorem ends_of_ended {result : Except StreamFailure ByteArray} (hturn : g.turn D input max = .ended result) :
    g.Ends D input max result := by
  refine ⟨1, ?_⟩
  rw [run, hturn]

/-- The loop stands in front of a frame. -/
structure Fresh (max : Nat) (dict : Option LoadedDictionary) (cold : Bool) (step : StreamStep)
    (g : Growing CodecState) : Prop where
  state_eq : g.state = ⟨dict, cold, step.buffers, none⟩
  position_eq : g.position = step.next
  bytes_eq : g.bytes = step.output.bytes
  stepwise : g.Stepwise max

/-- A result follows from what a frame has come to: it is its failure, or its output if nothing is behind it, or
what the loop comes to in front of the next frame. -/
def Follows (D : StreamDecoder CodecState) (input : ByteArray) (max : Nat) (dict : Option LoadedDictionary)
    (outcome : Except StreamFailure StreamStep) (result : Except StreamFailure ByteArray) : Prop :=
  match outcome with
  | .error e => result = .error e
  | .ok step =>
    if step.next = input.size then result = .ok step.output.bytes
    else ∀ g : Growing CodecState, g.Fresh max dict false step → g.Ends D input max result

/-- Content can be handed out in two parts. -/
theorem onto_split {pre content : ByteArray} {count : Nat} (hcount : count ≤ content.size) (ending : CourseEnd) :
    Course.onto ⟨content.extract count content.size, ending⟩ ⟨pre ++ content.extract 0 count, max⟩
      = Course.onto ⟨content, ending⟩ ⟨pre, max⟩ := by
  have hsize : (pre ++ content.extract 0 count).size + (content.extract count content.size).size
      = pre.size + content.size := by
    rw [ByteArray.size_append, ByteArray.size_extract, ByteArray.size_extract]
    omega
  have hbytes : pre ++ content.extract 0 count ++ content.extract count content.size = pre ++ content := by
    rw [ByteArray.append_assoc, ← ByteArray.extract_eq_extract_append_extract _ (Nat.zero_le _) hcount,
      ByteArray.extract_zero_size]
  unfold Course.onto
  dsimp only
  rw [hsize, hbytes]

section Codec

variable {dict : Option LoadedDictionary} {once : Bool} {result : Except StreamFailure ByteArray}
  {g made : Growing CodecState} {c : Course} {content : ByteArray}

/-- After a call that has filled the output, the loop goes on. -/
theorem proceed_of_full {call : StreamCall CodecState} (g : Growing CodecState)
    (hcomplete : call.complete = false) (hfull : (g.bytes ++ call.written).size = g.capacity) :
    g.proceed input call = .again ⟨call.state, call.position, g.bytes ++ call.written, g.capacity⟩ := by
  unfold proceed
  simp [hcomplete, hfull]

/-- A turn without room is the last. -/
theorem ends_limit (h : g.makeRoom max = .error .limit) :
    g.Ends (codecDecoder dict once) input max (.error .limit) := by
  apply ends_of_ended
  unfold turn
  rw [h]

/-- Room is made in front of a call, which is going to hand out what is left of a frame. -/
structure Poised (input : ByteArray) (max : Nat) (c : Course) (g made : Growing CodecState) : Prop where
  makeRoom_eq : g.makeRoom max = .ok made
  stepwise : made.Stepwise max
  room : made.bytes.size < made.capacity
  course_eq : made.state.courseAt input made.position (made.capacity - made.bytes.size) = c

/-- Where a frame was left off, it goes on. -/
theorem Stepwise.poised (hg : g.Stepwise max) (hmake : g.makeRoom max = .ok made)
    (hcourse : g.state.course = some c) : Poised input max c g made := by
  obtain ⟨hstate, -, -, hmade, hroom⟩ := hg.makeRoom_ok hmake
  refine ⟨hmake, hmade, hroom, ?_⟩
  rw [CodecState.courseAt, hstate, hcourse]
  rfl

theorem Poised.call_eq (h : Poised input max c g made) :
    (codecDecoder dict once).call input made.position (made.capacity - made.bytes.size) made.state
      = made.state.handOut once input made.position (made.capacity - made.bytes.size) c := by
  rw [← h.course_eq]
  rfl

/-- What is handed out is put behind the output. -/
theorem Poised.turn_of_call (h : Poised input max c g made) {call : StreamCall CodecState}
    (hcall : made.state.handOut once input made.position (made.capacity - made.bytes.size) c = .ok call) :
    g.turn (codecDecoder dict once) input max = made.proceed input call := by
  simp only [turn, h.makeRoom_eq, h.call_eq, hcall]

/-- A failure of the codec is the end of the loop. -/
theorem Poised.turn_of_failed (h : Poised input max c g made) {e : CodecError}
    (hcall : made.state.handOut once input made.position (made.capacity - made.bytes.size) c = .error e) :
    g.turn (codecDecoder dict once) input max = .ended (.error (.codec e)) := by
  simp only [turn, h.makeRoom_eq, h.call_eq, hcall]

/-- A loop that has handed out some content of a frame, and has more. -/
structure Paused (made : Growing CodecState) (c : Course) (g : Growing CodecState) : Prop where
  course_eq : g.state.course
    = some ⟨c.content.extract (made.capacity - made.bytes.size) c.content.size, c.ending⟩
  dict_eq : g.state.dict = made.state.dict
  bytes_eq : g.bytes = made.bytes ++ c.content.extract 0 (made.capacity - made.bytes.size)
  full : g.bytes.size = made.capacity

/-- Where there is room for some of the content only, the output is full after the call. -/
theorem Poised.exists_paused (h : Poised input max c g made)
    (hmore : made.capacity - made.bytes.size < c.content.size) :
    ∃ g', g.turn (codecDecoder dict once) input max = .again g' ∧ g'.Stepwise max ∧ Paused made c g' := by
  have hroom := h.room
  have hcall : made.state.handOut once input made.position (made.capacity - made.bytes.size) c
      = .ok ⟨{ made.state with course := some ⟨c.content.extract (made.capacity - made.bytes.size)
          c.content.size, c.ending⟩ }, made.position,
          c.content.extract 0 (made.capacity - made.bytes.size), false⟩ := if_pos hmore
  have hsize : (c.content.extract 0 (made.capacity - made.bytes.size)).size
      = made.capacity - made.bytes.size := by
    rw [ByteArray.size_extract]
    omega
  have hfull : (made.bytes ++ c.content.extract 0 (made.capacity - made.bytes.size)).size = made.capacity := by
    rw [ByteArray.size_append, hsize]
    omega
  exact ⟨_, (h.turn_of_call hcall).trans (proceed_of_full made rfl hfull),
    h.stepwise.write h.room (Nat.le_of_eq hsize) _ _, ⟨rfl, rfl, rfl, hfull⟩⟩

/-- A turn in which the input ends, and the output is not full after it, is the last. -/
theorem Poised.ends_truncated (h : Poised input max ⟨content, .starved⟩ g made)
    (hless : (made.bytes ++ content).size < made.capacity) :
    g.Ends (codecDecoder dict once) input max (.error (StreamOutput.starved ⟨made.bytes ++ content, max⟩)) := by
  have hsize : (made.bytes ++ content).size = made.bytes.size + content.size := ByteArray.size_append
  have hcall : made.state.handOut once input made.position (made.capacity - made.bytes.size)
      ⟨content, .starved⟩ = .ok ⟨{ made.state with course := some ⟨ByteArray.empty, .starved⟩ },
        input.size, content, false⟩ := if_neg (by dsimp only; omega)
  have hstarved : StreamOutput.starved ⟨made.bytes ++ content, max⟩ = .truncated :=
    StreamOutput.starved_of_lt (Nat.lt_of_lt_of_le hless h.stepwise.capacity_le)
  rw [hstarved]
  apply ends_of_ended
  rw [h.turn_of_call hcall]
  unfold proceed
  simp only [Bool.false_and, Bool.false_eq_true, if_false, beq_self_eq_true, Bool.true_and,
    decide_eq_true hless, if_true]

/-- Where the input ends inside a frame, the loop ends **whether or not the output is full by then**. -/
theorem Poised.ends_starved (h : Poised input max ⟨content, .starved⟩ g made)
    (hfits : content.size ≤ made.capacity - made.bytes.size) :
    g.Ends (codecDecoder dict once) input max (.error (StreamOutput.starved ⟨made.bytes ++ content, max⟩)) := by
  have hroom := h.room
  have hsize : (made.bytes ++ content).size = made.bytes.size + content.size := ByteArray.size_append
  rcases Nat.lt_or_ge (made.bytes ++ content).size made.capacity with hless | hmore
  · exact h.ends_truncated hless
  · -- The output is full, so the loop asks once more, if it may.
    have hfull : (made.bytes ++ content).size = made.capacity := by omega
    let next : Growing CodecState := ⟨{ made.state with course := some ⟨ByteArray.empty, .starved⟩ },
      input.size, made.bytes ++ content, made.capacity⟩
    have hcall : made.state.handOut once input made.position (made.capacity - made.bytes.size)
        ⟨content, .starved⟩ = .ok ⟨next.state, input.size, content, false⟩ := if_neg (Nat.not_lt.mpr hfits)
    have hturn : g.turn (codecDecoder dict once) input max = .again next :=
      (h.turn_of_call hcall).trans (proceed_of_full made rfl hfull)
    have hstep : next.Stepwise max := h.stepwise.write h.room hfits _ _
    apply ends_of_again hturn
    cases hmake : next.makeRoom max with
    | error e =>
        obtain ⟨rfl, hmax⟩ := hstep.makeRoom_error hmake
        rw [StreamOutput.starved_of_full hmax]
        exact ends_limit hmake
    | ok made' =>
        obtain ⟨-, -, hbytes, -, hless⟩ := hstep.makeRoom_ok hmake
        have hpoised : Poised input max ⟨ByteArray.empty, .starved⟩ next made' := hstep.poised hmake rfl
        have hends : next.Ends (codecDecoder dict once) input max
            (.error (StreamOutput.starved ⟨made'.bytes ++ ByteArray.empty, max⟩)) :=
          hpoised.ends_truncated (by rwa [ByteArray.append_empty])
        rwa [ByteArray.append_empty, hbytes] at hends

/-- A frame that is complete is the end of the loop, or the next frame follows. -/
theorem Poised.ends_complete {next : Nat} {buffers : StreamBuffers}
    (h : Poised input max ⟨content, .complete next buffers⟩ g made)
    (hfits : content.size ≤ made.capacity - made.bytes.size)
    (hfollows : Follows (codecDecoder dict once) input max (if once then none else made.state.dict)
      (.ok ⟨next, buffers, ⟨made.bytes ++ content, max⟩⟩) result) :
    g.Ends (codecDecoder dict once) input max result := by
  have hcall : made.state.handOut once input made.position (made.capacity - made.bytes.size)
      ⟨content, .complete next buffers⟩
      = .ok ⟨⟨if once then none else made.state.dict, false, buffers, none⟩, next, content, true⟩ :=
    if_neg (Nat.not_lt.mpr hfits)
  have hturn : g.turn (codecDecoder dict once) input max = made.proceed input
      ⟨⟨if once then none else made.state.dict, false, buffers, none⟩, next, content, true⟩ := h.turn_of_call hcall
  unfold Follows at hfollows
  dsimp only at hfollows
  by_cases hdrained : next = input.size
  · rw [if_pos hdrained] at hfollows
    rw [hfollows]
    refine ends_of_ended (hturn.trans ?_)
    simp [proceed, hdrained]
  · rw [if_neg hdrained] at hfollows
    refine ends_of_again (hturn.trans ?_) (hfollows _ ⟨rfl, rfl, rfl, h.stepwise.write h.room hfits _ _⟩)
    simp [proceed, hdrained]

/-- Where there is room for all of its content, a course does to the output what it says. -/
theorem Poised.ends_of_fits (h : Poised input max c g made)
    (hfits : c.content.size ≤ made.capacity - made.bytes.size)
    (hfollows : Follows (codecDecoder dict once) input max (if once then none else made.state.dict)
      (c.onto ⟨made.bytes, max⟩) result) :
    g.Ends (codecDecoder dict once) input max result := by
  have hroom := h.room
  have hlimit := h.stepwise.capacity_le
  obtain ⟨content, ending⟩ := c
  dsimp only at hfits
  have hwithin : made.bytes.size + content.size ≤ max := by omega
  cases ending with
  | failed e =>
      have hcall : made.state.handOut once input made.position (made.capacity - made.bytes.size)
          ⟨content, .failed e⟩ = .error e := if_neg (Nat.not_lt.mpr hfits)
      have hfailed : Course.onto ⟨content, .failed e⟩ ⟨made.bytes, max⟩ = .error (.codec e) :=
        Course.onto_ofFailure hwithin (.codec e)
      rw [hfailed] at hfollows
      rw [show result = .error (.codec e) from hfollows]
      exact ends_of_ended (h.turn_of_failed hcall)
  | complete next buffers =>
      rw [Course.onto_complete hwithin] at hfollows
      exact h.ends_complete hfits hfollows
  | starved =>
      have hstarved : Course.onto ⟨content, .starved⟩ ⟨made.bytes, max⟩
          = .error (StreamOutput.starved ⟨made.bytes ++ content, max⟩) :=
        Course.onto_ofFailure hwithin .truncated
      rw [hstarved] at hfollows
      rw [show result = .error (StreamOutput.starved ⟨made.bytes ++ content, max⟩) from hfollows]
      exact h.ends_starved hfits

/-- A course does to the output what it says, **however often the output has to grow for it**. -/
theorem Poised.ends_of_course (h : Poised input max c g made)
    (hfollows : Follows (codecDecoder dict once) input max (if once then none else made.state.dict)
      (c.onto ⟨made.bytes, max⟩) result) :
    g.Ends (codecDecoder dict once) input max result := by
  -- Every call hands out some content, so less is left of it.
  induction hleft : c.content.size using Nat.strongRecOn generalizing g made c with
  | ind left ih =>
      subst hleft
      have hroom := h.room
      have hlimit := h.stepwise.capacity_le
      rcases Nat.lt_or_ge (made.capacity - made.bytes.size) c.content.size with hmore | hfits
      · obtain ⟨g', hturn, hstep, hpaused⟩ := h.exists_paused hmore
        apply ends_of_again hturn
        have hfull := hpaused.full
        cases hmake : g'.makeRoom max with
        | error e =>
            -- The output cannot grow, and does not hold what is left.
            obtain ⟨rfl, hmax⟩ := hstep.makeRoom_error hmake
            have hover : max < made.bytes.size + c.content.size := by omega
            rw [Course.onto_limit hover] at hfollows
            rw [show result = .error .limit from hfollows]
            exact ends_limit hmake
        | ok made' =>
            obtain ⟨hstate, -, hbytes, -, -⟩ := hstep.makeRoom_ok hmake
            have hrest : (c.content.extract (made.capacity - made.bytes.size) c.content.size).size
                < c.content.size := by
              rw [ByteArray.size_extract]
              omega
            refine ih _ hrest (hstep.poised hmake hpaused.course_eq) ?_ rfl
            rw [hstate, hbytes, hpaused.dict_eq, hpaused.bytes_eq, onto_split (Nat.le_of_lt hmore)]
            exact hfollows
      · exact h.ends_of_fits hfits hfollows

/-- **In front of a frame the loop is about to hand out the course of that frame**, with the room that the frame finds
when it is decoded on its own. -/
theorem Fresh.streamFrame_eq {cold : Bool} {step : StreamStep} (hg : g.Fresh max dict cold step)
    (hmake : g.makeRoom max = .ok made) :
    streamFrame dict cold input step.next input.size step.buffers ⟨made.bytes, max⟩
      = (made.state.courseAt input made.position (made.capacity - made.bytes.size)).onto ⟨made.bytes, max⟩ := by
  obtain ⟨hstate, hposition, -, hmade, hroom⟩ := hg.stepwise.makeRoom_ok hmake
  have hlimit := hmade.capacity_le
  have hfits : made.bytes.size ≤ max := by omega
  have hfree : StreamOutput.room ⟨made.bytes, max⟩ = made.capacity - made.bytes.size := by
    rw [StreamOutput.room, hmade.next hroom]
  rw [CodecState.courseAt, hstate, hg.state_eq, hposition, hg.position_eq, ← hfree]
  exact streamFrame_onto hfits

end Codec

end Growing

end SharedDictionary
