import SharedDictionary.Proofs.Frame.Growth

/-!
# A loop that moves on

The loop that lets an output grow ends because its turns move on: they read some of the input or hand out some of
the content, and there is only so much of either.  A turn may also come to nothing, if the call of the decoder does.
How often in a row that can happen is up to the decoder.  One that can be relied on has a patience
(`StreamDecoder.Reliable`): so many calls that come to nothing, though there is input left and room, and then an
error.

Calls without input left or without room are not counted.  The loop makes room in front of every call, and ends
behind a call that leaves some of it where the input has ended.

So with a decoder that can be relied on the loop ends, and how many turns it takes at most is known in front of it
(`Growing.ends_of_reliable`, `Growing.Terminates`).
-/

namespace SharedDictionary

namespace StreamDecoder

variable {σ : Type} (D : StreamDecoder σ) (input : ByteArray)

/-- Calls that have room lead from the start of an input to a position and a state. -/
inductive Reaches : (position : Nat) → σ → Prop
  | initial : Reaches 0 D.initial
  | call {position room : Nat} {s : σ} {c : StreamCall σ} (h : Reaches position s) (hroom : 0 < room)
      (hcall : D.call input position room s = .ok c) : Reaches c.position c.state

/-- So many calls in a row come to nothing, though there is input left and room. -/
inductive Idles (position : Nat) : σ → (calls : Nat) → Prop
  | never (s : σ) : Idles position s 0
  | call {room calls : Nat} {s : σ} {c : StreamCall σ} (hleft : position < input.size) (hroom : 0 < room)
      (hcall : D.call input position room s = .ok c) (hposition : c.position = position)
      (hwritten : c.written.size = 0) (rest : Idles position c.state calls) : Idles position s (calls + 1)

/-- A decoder hands out no more than there is room for, reads forward within the input, and reports an error
before more calls in a row come to nothing than its patience allows. -/
structure Reliable (patience : Nat) : Prop where
  fits : D.Fits input
  forward : ∀ {position room s c}, D.Reaches input position s → 0 < room →
    D.call input position room s = .ok c → position ≤ c.position ∧ c.position ≤ input.size
  patient : ∀ {position s calls}, D.Reaches input position s → D.Idles input position s calls →
    calls ≤ patience

end StreamDecoder

namespace Growing

/-! ### Turns -/

section Turns

variable {σ : Type} {D : StreamDecoder σ} {input : ByteArray} {max patience : Nat} {g g' : Growing σ}

/-- The loop goes on where it has made room, and a call has left input behind it or has filled the output. -/
theorem turn_eq_again (h : g.turn D input max = .again g') :
    ∃ made c, g.makeRoom max = .ok made
      ∧ D.call input made.position (made.capacity - made.bytes.size) made.state = .ok c
      ∧ g' = ⟨c.state, c.position, made.bytes ++ c.written, made.capacity⟩
      ∧ (c.position = input.size → made.capacity ≤ (made.bytes ++ c.written).size) := by
  unfold turn at h
  rcases hmake : g.makeRoom max with e | made
  · rw [hmake] at h
    cases h
  · rw [hmake] at h
    dsimp only at h
    rcases hcall : D.call input made.position (made.capacity - made.bytes.size) made.state with e | c
    · rw [hcall] at h
      cases h
    · rw [hcall] at h
      dsimp only at h
      unfold proceed at h
      dsimp only at h
      split at h
      · cases h
      · split at h
        · cases h
        · rename_i hroom
          cases h
          refine ⟨made, c, rfl, hcall, rfl, fun hdrained => Nat.not_lt.mp fun hless => hroom ?_⟩
          rw [beq_iff_eq.mpr hdrained, decide_eq_true hless, Bool.and_self]

/-- The loop stands where calls of its decoder have led, within the input. -/
structure Reached (D : StreamDecoder σ) (input : ByteArray) (max : Nat) (g : Growing σ) : Prop where
  stepwise : g.Stepwise max
  reaches : D.Reaches input g.position g.state
  position_le : g.position ≤ input.size

theorem reached_start (D : StreamDecoder σ) (input : ByteArray) (max : Nat) :
    (start D max).Reached D input max :=
  ⟨stepwise_start D max, .initial, Nat.zero_le _⟩

/-- The loop has read or handed out something. -/
def Moves (g g' : Growing σ) : Prop := g.position < g'.position ∨ g.bytes.size < g'.bytes.size

/-- How much was read and handed out. -/
def moved (g : Growing σ) : Nat := g.position + g.bytes.size

/-- The loop has come from one place to another: it has not gone back, and stays within the input and the limit. -/
structure Follow (input : ByteArray) (max : Nat) (g g' : Growing σ) : Prop where
  position_le : g.position ≤ g'.position
  size_le : g.bytes.size ≤ g'.bytes.size
  within_input : g'.position ≤ input.size
  within_limit : g'.bytes.size ≤ max

theorem Follow.trans {g'' : Growing σ} (h : Follow input max g g') (h' : Follow input max g' g'') :
    Follow input max g g'' :=
  ⟨Nat.le_trans h.position_le h'.position_le, Nat.le_trans h.size_le h'.size_le, h'.within_input,
    h'.within_limit⟩

theorem Follow.moved_le (h : Follow input max g g') : g.moved ≤ g'.moved :=
  Nat.add_le_add h.position_le h.size_le

theorem moves_of_moved_lt (h : g.moved < g'.moved) : g.Moves g' := by
  unfold moved at h
  unfold Moves
  omega

/-- There is only so much to read and to hand out. -/
theorem Reached.moved_le (hg : g.Reached D input max) : g.moved ≤ input.size + max :=
  Nat.add_le_add hg.position_le (Nat.le_trans hg.stepwise.size_le hg.stepwise.capacity_le)

/-- **A turn reads or hands out something, or its call comes to nothing.** -/
theorem Reached.turn (hD : D.Reliable input patience) (hg : g.Reached D input max)
    (h : g.turn D input max = .again g') :
    g'.Reached D input max ∧ Follow input max g g'
      ∧ (g.moved < g'.moved
        ∨ g'.position = g.position ∧ ∀ calls, D.Idles input g.position g'.state calls →
          D.Idles input g.position g.state (calls + 1)) := by
  obtain ⟨made, c, hmake, hcall, rfl, hdrained⟩ := turn_eq_again h
  obtain ⟨hstate, hposition, hbytes, hmade, hroom⟩ := hg.stepwise.makeRoom_ok hmake
  rw [hposition, hstate] at hcall
  have hfree : 0 < made.capacity - made.bytes.size := Nat.sub_pos_of_lt hroom
  have hwritten := hD.fits _ _ _ _ hcall
  obtain ⟨hforward, hwithin⟩ := hD.forward hg.reaches hfree hcall
  have hnext := hmade.write hroom hwritten c.state c.position
  have hsize : (made.bytes ++ c.written).size = g.bytes.size + c.written.size := by
    rw [ByteArray.size_append, hbytes]
  refine ⟨⟨hnext, .call hg.reaches hfree hcall, hwithin⟩,
    ⟨hforward, ?_, hwithin, Nat.le_trans hnext.size_le hnext.capacity_le⟩, ?_⟩
  · rw [hsize]
    exact Nat.le_add_right _ _
  · by_cases hnothing : c.position = g.position ∧ c.written.size = 0
    · -- Where the input has ended the output is full, so that the call has handed out something.
      refine .inr ⟨hnothing.1, fun calls hidles => ?_⟩
      have hleft : g.position < input.size := by
        refine Nat.lt_of_le_of_ne hg.position_le fun hend => ?_
        have hfull := hdrained (hnothing.1.trans hend)
        rw [ByteArray.size_append, hnothing.2] at hfull
        omega
      exact .call hleft hfree hcall hnothing.1 hnothing.2 (hnothing.1 ▸ hidles)
    · left
      simp only [moved, hsize]
      omega

/-! ### Runs -/

theorem run_succ (turns : Nat) (g : Growing σ) :
    g.run D input max (turns + 1) = match g.turn D input max with
      | .again g => g.run D input max turns
      | .ended result => .ended result := rfl

/-- A run that goes on goes on after each of its turns. -/
theorem run_add_eq_again {turns more : Nat} (h : g.run D input max (turns + more) = .again g') :
    ∃ g₁, g.run D input max turns = .again g₁ ∧ g₁.run D input max more = .again g' := by
  induction turns generalizing g with
  | zero =>
      rw [Nat.zero_add] at h
      exact ⟨g, rfl, h⟩
  | succ turns ih =>
      rw [Nat.succ_add, run_succ] at h
      rw [run_succ]
      rcases hturn : g.turn D input max with g₁ | result
      · rw [hturn] at h
        exact ih h
      · rw [hturn] at h
        cases h

/-- The result of a run stays its result. -/
theorem run_add_eq_ended {turns : Nat} {result : Except StreamFailure ByteArray}
    (h : g.run D input max turns = .ended result) (more : Nat) :
    g.run D input max (turns + more) = .ended result := by
  induction turns generalizing g with
  | zero => cases h
  | succ turns ih =>
      rw [run_succ] at h
      rw [Nat.succ_add, run_succ]
      rcases hturn : g.turn D input max with g₁ | result'
      · rw [hturn] at h
        exact ih h
      · rw [hturn] at h
        exact h

/-- The loop has one result. -/
theorem Ends.eq_of_run {turns : Nat} {result result' : Except StreamFailure ByteArray}
    (h : g.Ends D input max result) (hrun : g.run D input max turns = .ended result') : result' = result := by
  obtain ⟨more, hmore⟩ := h
  have hlong := run_add_eq_ended hrun more
  rw [Nat.add_comm, run_add_eq_ended hmore turns] at hlong
  cases hlong
  rfl

/-- **A run reads or hands out something, or all its calls come to nothing.** -/
theorem Reached.run (hD : D.Reliable input patience) (hg : g.Reached D input max) {turns : Nat}
    (h : g.run D input max turns = .again g') :
    g'.Reached D input max ∧ (0 < turns → Follow input max g g') ∧ g.moved ≤ g'.moved
      ∧ (g.moved < g'.moved ∨ D.Idles input g.position g.state turns) := by
  induction turns generalizing g with
  | zero =>
      cases h
      exact ⟨hg, fun hpos => absurd hpos (Nat.lt_irrefl 0), Nat.le_refl _, .inr (.never _)⟩
  | succ turns ih =>
      rw [run_succ] at h
      rcases hturn : g.turn D input max with g₁ | result
      · rw [hturn] at h
        obtain ⟨hg₁, hfollow, hstep⟩ := hg.turn hD hturn
        obtain ⟨hg', hrest, hmoved, hrun⟩ := ih hg₁ h
        have hfirst := hfollow.moved_le
        refine ⟨hg', fun _ => ?_, Nat.le_trans hfirst hmoved, ?_⟩
        · rcases Nat.eq_zero_or_pos turns with rfl | hpos
          · cases h
            exact hfollow
          · exact hfollow.trans (hrest hpos)
        · rcases hstep with hmore | ⟨hposition, hidle⟩
          · exact .inl (Nat.lt_of_lt_of_le hmore hmoved)
          · rcases hrun with hmore | hidles
            · exact .inl (Nat.lt_of_le_of_lt hfirst hmore)
            · exact .inr (hidle turns (hposition ▸ hidles))
      · rw [hturn] at h
        cases h

/-- **Among more turns than the patience allows one moves on.** -/
theorem Reached.moved_lt (hD : D.Reliable input patience) (hg : g.Reached D input max)
    (h : g.run D input max (patience + 1) = .again g') : g.moved < g'.moved := by
  obtain ⟨-, -, -, hmore | hidles⟩ := hg.run hD h
  · exact hmore
  · exact absurd (hD.patient hg.reaches hidles) (Nat.not_succ_le_self patience)

theorem Reached.add_le_moved (hD : D.Reliable input patience) {rounds : Nat} (hg : g.Reached D input max)
    (h : g.run D input max ((patience + 1) * rounds) = .again g') : g.moved + rounds ≤ g'.moved := by
  induction rounds generalizing g with
  | zero => exact (hg.run hD h).2.2.1
  | succ rounds ih =>
      rw [Nat.mul_succ, Nat.add_comm] at h
      obtain ⟨g₁, hfirst, hrest⟩ := run_add_eq_again h
      have hmore := hg.moved_lt hD hfirst
      have hg₁ := (hg.run hD hfirst).1
      have hothers := ih hg₁ hrest
      omega

/-- **With a decoder that can be relied on the loop ends**, after no more turns than are known in front of it. -/
theorem ends_of_reliable (hD : D.Reliable input patience) (max : Nat) :
    ∃ result, (start D max).run D input max ((patience + 1) * (input.size + max + 1)) = .ended result := by
  rcases hrun : (start D max).run D input max ((patience + 1) * (input.size + max + 1)) with g | result
  · have hstart := reached_start D input max
    have hrounds := hstart.add_le_moved hD hrun
    have hend := (hstart.run hD hrun).1.moved_le
    omega
  · exact ⟨result, rfl⟩

/-- What is asked of a loop with a decoder of some patience, wherever it stands. -/
structure Terminates (D : StreamDecoder σ) (input : ByteArray) (max patience : Nat) : Prop where
  /-- A turn stays within the input and the limit, and reads or hands out something unless its call comes to
  nothing. -/
  turn : ∀ turns g g', (start D max).run D input max turns = .again g → g.turn D input max = .again g' →
    Follow input max g g' ∧ (g.Moves g' ∨ D.Idles input g.position g.state 1)
  /-- Among more turns in a row than the patience allows one reads or hands out something. -/
  moves : ∀ turns g g', (start D max).run D input max turns = .again g →
    g.run D input max (patience + 1) = .again g' → g.Moves g'
  ends : ∃ result,
    (start D max).run D input max ((patience + 1) * (input.size + max + 1)) = .ended result

theorem terminates_of_reliable (hD : D.Reliable input patience) (max : Nat) :
    Terminates D input max patience where
  turn turns g g' hrun hturn := by
    have hg : g.Reached D input max := ((reached_start D input max).run hD hrun).1
    obtain ⟨-, hfollow, hmore | ⟨-, hidle⟩⟩ := hg.turn hD hturn
    · exact ⟨hfollow, .inl (moves_of_moved_lt hmore)⟩
    · exact ⟨hfollow, .inr (hidle 0 (.never _))⟩
  moves turns g g' hrun hruns := by
    have hg : g.Reached D input max := ((reached_start D input max).run hD hrun).1
    exact moves_of_moved_lt (hg.moved_lt hD hruns)
  ends := ends_of_reliable hD max

end Turns

end Growing

end SharedDictionary
