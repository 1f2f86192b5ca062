import SharedDictionary.Frame.Decode
import SharedDictionary.Proofs.Bytes.Standing
import SharedDictionary.Proofs.Frame.Lookahead

/-!
# The room of a block

Both decoders hand every block to the same function, with different space and different history: one range
for a whole frame, or a buffer that is flushed and starts over.  Two facts about that function are all they
need to agree.

* **A block fills its room at most** (`size_le_of_decodeBlock`).  So a frame fits the range that it is decoded
  into, and so do all the frames of an input together (`size_le_of_decodeConcatenated`).
* **More room and more history change nothing** (`decodeBlock_widen`).  A block that fits some room is decoded
  to the same content with more room, with more bytes in front of the window, and behind a cold dictionary
  as behind any other.
-/

namespace SharedDictionary

open SharedDictionary.Entropy

/-! ### Steps that may fail -/

section Steps

variable {ε α β : Type}

/-- What two steps come to comes from what the first of them comes to. -/
theorem bind_eq_ok_iff {x : Except ε α} {f : α → Except ε β} {r : β} :
    x >>= f = .ok r ↔ ∃ a, x = .ok a ∧ f a = .ok r := by
  cases x with
  | error e => exact ⟨nofun, nofun⟩
  | ok a =>
      constructor
      · exact fun h => ⟨a, rfl, h⟩
      · rintro ⟨_, ⟨⟩, h⟩
        exact h

/-- What stands behind a check is reached if the check finds nothing. -/
theorem check_eq_ok_iff {c : Prop} [Decidable c] {e : ε} {f : PUnit → Except ε α} {r : α} :
    (if c then throw e >>= f else f ⟨⟩) = .ok r ↔ ¬c ∧ f ⟨⟩ = .ok r := by
  by_cases hc : c
  · rw [if_pos hc]
    exact ⟨nofun, fun h => absurd hc h.1⟩
  · rw [if_neg hc]
    exact ⟨fun h => ⟨hc, h⟩, fun h => h.2⟩

theorem map_eq_ok_iff {x : Except ε α} {f : α → β} {r : β} :
    x.map f = .ok r ↔ ∃ a, x = .ok a ∧ f a = r := by
  cases x with
  | error e => exact ⟨nofun, nofun⟩
  | ok a =>
      constructor
      · exact fun h => ⟨a, rfl, Except.ok.inj h⟩
      · rintro ⟨_, ⟨⟩, rfl⟩
        rfl

theorem mapError_eq_ok_iff {ε' : Type} {x : Except ε α} {f : ε → ε'} {r : α} :
    x.mapError f = .ok r ↔ x = .ok r := by
  cases x with
  | error e => exact ⟨nofun, nofun⟩
  | ok a =>
      exact ⟨fun h => congrArg Except.ok (Except.ok.inj h), fun h => congrArg Except.ok (Except.ok.inj h)⟩

end Steps

/-! ### Literals -/

namespace BlockSpace

/-- Literals that wait inside the output take up some of the room. -/
theorem roomBeside_le (space : BlockSpace) (count : Nat) : space.roomBeside count ≤ space.room := by
  unfold roomBeside
  split
  · rename_i happart
    simp only [holdsApart, Bool.and_eq_true, decide_eq_true_eq] at happart
    simp only [beside]
    omega
  · exact Nat.le_refl _

/-- What fits a block has room beside any literals. -/
theorem le_roomBeside {space : BlockSpace} {room : Nat} (hlimit : room ≤ space.blockLimit)
    (hroom : room ≤ space.room) (count : Nat) : room ≤ space.roomBeside count := by
  unfold roomBeside
  split
  · simp only [beside]
    omega
  · exact hroom

/-- The same block with as much room as it needs, where its literals take up none. -/
abbrev narrowed (space : BlockSpace) (room : Nat) : BlockSpace := ⟨room, space.blockLimit, false⟩

@[simp] theorem roomBeside_narrowed (space : BlockSpace) (room count : Nat) :
    (space.narrowed room).roomBeside count = room := rfl

end BlockSpace

namespace Literals

variable {space : BlockSpace} {state state' : CodingState} {fresh : Bool} {bytes : ByteArray}
  {start stop room : Nat} {l : Literals}

theorem checkCount_eq_ok_iff {count : Nat} {u : Unit} :
    checkCount space count = .ok u ↔ count ≤ space.blockLimit ∧ count ≤ space.room := by
  unfold checkCount BlockSpace.literalLimit
  split
  · exact ⟨nofun, fun h => by omega⟩
  · split
    · exact ⟨nofun, fun h => by omega⟩
    · exact ⟨fun _ => by omega, fun _ => rfl⟩

/-! #### What is left of the room -/

theorem room_le_of_readRaw (h : readRaw space bytes start stop = .ok l) : l.room ≤ space.room := by
  unfold readRaw at h
  simp only [check_eq_ok_iff, bind_eq_ok_iff] at h
  obtain ⟨-, -, -, -, ⟨⟩⟩ := h
  dsimp only
  split
  · exact space.roomBeside_le _
  · exact Nat.le_refl _

theorem room_le_of_readRun (h : readRun space bytes start stop = .ok l) : l.room ≤ space.room := by
  unfold readRun at h
  simp only [check_eq_ok_iff, bind_eq_ok_iff] at h
  obtain ⟨-, -, -, ⟨⟩⟩ := h
  exact space.roomBeside_le _

theorem room_le_of_readCoded (h : readCoded space state fresh bytes start stop = .ok (l, state')) :
    l.room ≤ space.room := by
  unfold readCoded at h
  simp only [check_eq_ok_iff] at h
  obtain ⟨-, -, -, -, -, -, h⟩ := h
  split at h
  · cases h
  · split at h
    · cases h
    · cases h
      exact space.roomBeside_le _

/-- **Literals leave their block no more room than it was given.** -/
theorem room_le_of_read (h : read space state bytes start stop = .ok (l, state')) :
    l.room ≤ space.room := by
  unfold read at h
  split at h
  · cases h
  · split at h
    · obtain ⟨l', hread, ⟨⟩⟩ := map_eq_ok_iff.mp h
      exact room_le_of_readRaw hread
    · obtain ⟨l', hread, ⟨⟩⟩ := map_eq_ok_iff.mp h
      exact room_le_of_readRun hread
    · exact room_le_of_readCoded h
    · exact room_le_of_readCoded h

/-! #### More room -/

section Widen

variable (hlimit : room ≤ space.blockLimit) (hroom : room ≤ space.room)

include hlimit hroom

theorem readRaw_widen (h : readRaw (space.narrowed room) bytes start stop = .ok l) :
    ∃ more, room ≤ more ∧ readRaw space bytes start stop = .ok { l with room := more } := by
  have hbeside := BlockSpace.le_roomBeside hlimit hroom
  unfold readRaw at h ⊢
  simp only [check_eq_ok_iff, bind_eq_ok_iff, checkCount_eq_ok_iff] at h ⊢
  obtain ⟨hheader, ⟨⟩, ⟨hblock, hcount⟩, hcontent, ⟨⟩⟩ := h
  refine ⟨_, ?_, hheader, (), ⟨hblock, Nat.le_trans hcount hroom⟩, hcontent, rfl⟩
  split
  · exact hbeside _
  · exact hroom

theorem readRun_widen (h : readRun (space.narrowed room) bytes start stop = .ok l) :
    ∃ more, room ≤ more ∧ readRun space bytes start stop = .ok { l with room := more } := by
  unfold readRun at h ⊢
  simp only [check_eq_ok_iff, bind_eq_ok_iff, checkCount_eq_ok_iff] at h ⊢
  obtain ⟨hheader, ⟨⟩, ⟨hblock, hcount⟩, ⟨⟩⟩ := h
  exact ⟨_, BlockSpace.le_roomBeside hlimit hroom _, hheader, (),
    ⟨hblock, Nat.le_trans hcount hroom⟩, rfl⟩

theorem readCoded_widen
    (h : readCoded (space.narrowed room) state fresh bytes start stop = .ok (l, state')) :
    ∃ more, room ≤ more
      ∧ readCoded space state fresh bytes start stop = .ok ({ l with room := more }, state') := by
  unfold readCoded at h ⊢
  simp only [check_eq_ok_iff] at h ⊢
  obtain ⟨htable, hheader, hblock, hfour, hstored, hcount, h⟩ := h
  have hcount : ¬space.literalLimit < (codedForm bytes start).count := by
    simp only [BlockSpace.literalLimit] at hcount ⊢
    omega
  split at h
  · cases h
  · split at h
    · cases h
    · cases h
      exact ⟨_, BlockSpace.le_roomBeside hlimit hroom _, htable, hheader, hblock, hfour, hstored,
        hcount, rfl⟩

/-- **More room changes the literals of a block only in the room they leave.** -/
theorem read_widen (h : read (space.narrowed room) state bytes start stop = .ok (l, state')) :
    ∃ more, room ≤ more ∧ read space state bytes start stop = .ok ({ l with room := more }, state') := by
  unfold read at h ⊢
  split at h
  · cases h
  · rename_i hlong
    rw [if_neg hlong]
    split at h
    · obtain ⟨l', hread, ⟨⟩⟩ := map_eq_ok_iff.mp h
      obtain ⟨more, hmore, hwide⟩ := readRaw_widen hlimit hroom hread
      exact ⟨more, hmore, by rw [hwide]; rfl⟩
    · obtain ⟨l', hread, ⟨⟩⟩ := map_eq_ok_iff.mp h
      obtain ⟨more, hmore, hwide⟩ := readRun_widen hlimit hroom hread
      exact ⟨more, hmore, by rw [hwide]; rfl⟩
    · exact readCoded_widen hlimit hroom h
    · exact readCoded_widen hlimit hroom h

end Widen

end Literals

/-! ### Sequences -/

section Sequences

variable {literals : ByteArray} {limit limit' : Nat} {x x' : Execution}

theorem Sequence.execute_eq_ok_iff {s : Sequence} :
    s.execute literals limit x = .ok x' ↔
      x.window.size + s.literals + s.length ≤ limit ∧ x.used + s.literals ≤ literals.size
        ∧ s.distance ≤ x.window.size + s.literals
        ∧ x' = ⟨copyBack (pushRange x.window literals x.used s.literals) s.distance s.length,
            x.used + s.literals⟩ := by
  unfold Sequence.execute
  dsimp only
  split
  · exact ⟨nofun, fun h => by omega⟩
  · split
    · exact ⟨nofun, fun h => by omega⟩
    · split
      · exact ⟨nofun, fun h => by omega⟩
      · rw [Except.ok.injEq]
        exact ⟨fun h => ⟨by omega, by omega, by omega, h.symm⟩, fun h => h.2.2.2.symm⟩

theorem Execution.finish_eq_ok_iff {window : ByteArray} :
    x.finish literals limit = .ok window ↔
      x.window.size + (literals.size - x.used) ≤ limit
        ∧ window = pushRange x.window literals x.used (literals.size - x.used) := by
  unfold Execution.finish
  dsimp only
  split
  · exact ⟨nofun, fun h => by omega⟩
  · rw [Except.ok.injEq]
    exact ⟨fun h => ⟨by omega, h.symm⟩, fun h => h.2.symm⟩

/-- Sequences that are checked are executed, whatever the dictionary, and their bit string ends. -/
theorem executeChecked_eq_ok_iff {cold ended : Bool} {sequences : List Sequence} :
    executeChecked literals limit cold sequences ended x = .ok x'
      ↔ ended = true ∧ executeAll literals limit sequences x = .ok x' := by
  have hsplit : ∀ early, executeAll literals limit sequences x = .ok x'
      ↔ ∃ y, executeAll literals limit (sequences.take early) x = .ok y
        ∧ executeAll literals limit (sequences.drop early) y = .ok x' := by
    intro early
    conv => lhs; rw [← List.take_append_drop early sequences, executeAll_append]
    exact bind_eq_ok_iff
  rw [executeChecked, bind_eq_ok_iff, hsplit]
  simp only [check_eq_ok_iff, Bool.not_eq_true', Bool.not_eq_false]
  constructor
  · rintro ⟨y, hfirst, hended, hlate⟩
    exact ⟨hended, y, hfirst, hlate⟩
  · rintro ⟨hended, y, hfirst, hlate⟩
    exact ⟨y, hfirst, hended, hlate⟩

/-- What is copied from a window is copied from a longer one. -/
theorem copyBack_append (before window : ByteArray) {distance : Nat} (h : distance ≤ window.size)
    (count : Nat) :
    copyBack (before ++ window) distance count = before ++ copyBack window distance count := by
  induction count generalizing window with
  | zero => rfl
  | succ count ih =>
      have hoctet : octetAt (before ++ window) ((before ++ window).size - distance)
          = octetAt window (window.size - distance) := by
        rw [ByteArray.size_append, Nat.add_sub_assoc h, octetAt_append_right]
      rw [copyBack_succ, copyBack_succ, hoctet, push_eq_append, ByteArray.append_assoc,
        ← push_eq_append window]
      exact ih _ (by rw [ByteArray.size_push]; omega)

theorem pushRange_append (before window source : ByteArray) (start count : Nat) :
    pushRange (before ++ window) source start count = before ++ pushRange window source start count :=
  ByteArray.append_assoc

theorem pushRun_append (before window : ByteArray) (octet : UInt8) (count : Nat) :
    pushRun (before ++ window) octet count = before ++ pushRun window octet count := by
  induction count generalizing window with
  | zero => rfl
  | succ count ih =>
      rw [pushRun, pushRun, push_eq_append, ByteArray.append_assoc, ← push_eq_append window]
      exact ih _

/-- An execution with more bytes in front of its window. -/
def Execution.behind (before : ByteArray) (x : Execution) : Execution := ⟨before ++ x.window, x.used⟩

section Behind

variable (before : ByteArray) (hlimit : before.size + limit ≤ limit')

include hlimit

/-- **Sequences that fit a window fit a longer one**, and copy the same. -/
theorem executeAll_behind {sequences : List Sequence}
    (h : executeAll literals limit sequences x = .ok x') :
    executeAll literals limit' sequences (x.behind before) = .ok (x'.behind before) := by
  induction sequences generalizing x with
  | nil =>
      cases h
      rfl
  | cons s sequences ih =>
      rw [executeAll] at h
      split at h
      · cases h
      · rename_i y hexecute
        obtain ⟨hroom, hliterals, hdistance, rfl⟩ := Sequence.execute_eq_ok_iff.mp hexecute
        have hwide : s.execute literals limit' (x.behind before)
            = .ok (Execution.behind before
                ⟨copyBack (pushRange x.window literals x.used s.literals) s.distance s.length,
                  x.used + s.literals⟩) := by
          refine Sequence.execute_eq_ok_iff.mpr ⟨?_, hliterals, ?_, ?_⟩
          · rw [Execution.behind, ByteArray.size_append]
            omega
          · rw [Execution.behind, ByteArray.size_append]
            omega
          · simp only [Execution.behind]
            rw [pushRange_append, copyBack_append]
            have hall := ByteArray.size_extract
              (a := literals) (b := x.used) (e := x.used + s.literals)
            rw [pushRange, ByteArray.size_append]
            omega
        rw [executeAll, hwide]
        exact ih h

theorem Execution.finish_behind {window : ByteArray} (h : x.finish literals limit = .ok window) :
    (x.behind before).finish literals limit' = .ok (before ++ window) := by
  obtain ⟨hroom, rfl⟩ := finish_eq_ok_iff.mp h
  refine finish_eq_ok_iff.mpr ⟨?_, (pushRange_append ..).symm⟩
  simp only [behind, ByteArray.size_append]
  omega

end Behind

end Sequences

/-! ### Blocks -/

section Blocks

variable {space : BlockSpace} {bytes window window' : ByteArray} {start stop room : Nat}

/-- What is finished ends below its limit. -/
theorem Execution.size_le_of_finish {literals : ByteArray} {limit : Nat} {x : Execution}
    (h : x.finish literals limit = .ok window') : window'.size ≤ limit := by
  obtain ⟨hroom, rfl⟩ := finish_eq_ok_iff.mp h
  rw [pushRange, ByteArray.size_append, ByteArray.size_extract]
  omega

theorem size_le_of_decodeCompressed {d d' : BlockDecoder}
    (h : decodeCompressed space d window bytes start stop = .ok (d', window')) :
    window'.size ≤ window.size + space.room := by
  unfold decodeCompressed at h
  simp only [check_eq_ok_iff, bind_eq_ok_iff] at h
  obtain ⟨-, ⟨literals, state⟩, hliterals, header, -, h⟩ := h
  have hroom := Literals.room_le_of_read hliterals
  split at h
  · obtain ⟨w, hfinish, ⟨⟩⟩ := bind_eq_ok_iff.mp h
    have hle : window'.size ≤ window.size + literals.room := Execution.size_le_of_finish hfinish
    omega
  · obtain ⟨-, h⟩ := check_eq_ok_iff.mp h
    split at h
    · cases h
    · simp only [bind_eq_ok_iff] at h
      obtain ⟨x, -, w, hfinish, ⟨⟩⟩ := h
      have hle : window'.size ≤ window.size + literals.room := Execution.size_le_of_finish hfinish
      omega

/-- **A block appends no more than it has room for.** -/
theorem size_le_of_decodeBlock {d d' : BlockDecoder} {block : BlockHeader}
    (h : decodeBlock space d window block bytes start = .ok (d', window')) :
    window'.size ≤ window.size + space.room := by
  unfold decodeBlock at h
  split at h
  · split at h
    · cases h
    · cases h
      rw [pushRange, ByteArray.size_append, ByteArray.size_extract]
      omega
  · split at h
    · cases h
    · cases h
      rw [size_pushRun]
      omega
  · exact size_le_of_decodeCompressed h

section Widen

variable {state : CodingState} {d : BlockDecoder} (hlimit : room ≤ space.blockLimit)
  (hroom : room ≤ space.room) (before : ByteArray) (cold : Bool)

include hlimit hroom

theorem decodeCompressed_widen
    (h : decodeCompressed (space.narrowed room) ⟨state, false⟩ window bytes start stop
      = .ok (d, window')) :
    decodeCompressed space ⟨state, cold⟩ (before ++ window) bytes start stop
      = .ok (⟨d.state, false⟩, before ++ window') := by
  unfold decodeCompressed at h ⊢
  simp only [check_eq_ok_iff, bind_eq_ok_iff] at h ⊢
  obtain ⟨hshort, ⟨literals, state'⟩, hliterals, header, hheader, h⟩ := h
  -- The literals may leave their block less room than there is, but never less than it needs.
  obtain ⟨more, hmore, hwide⟩ := Literals.read_widen hlimit hroom hliterals
  have hleft : literals.room ≤ room := Literals.room_le_of_read hliterals
  have hlonger : before.size + (window.size + literals.room) ≤ (before ++ window).size + more := by
    rw [ByteArray.size_append]
    omega
  refine ⟨hshort, _, hwide, header, hheader, ?_⟩
  cases htables : header.tables with
  | none =>
      rw [htables] at h
      obtain ⟨w, hfinish, ⟨⟩⟩ := bind_eq_ok_iff.mp h
      exact bind_eq_ok_iff.mpr ⟨_, Execution.finish_behind before hlonger hfinish, rfl⟩
  | some tables =>
      rw [htables] at h
      obtain ⟨hsome, h⟩ := check_eq_ok_iff.mp h
      refine check_eq_ok_iff.mpr ⟨by omega, ?_⟩
      cases hopen : Bits.Backward.open? bytes (start + literals.size + header.size) stop with
      | none =>
          rw [hopen] at h
          cases h
      | some r =>
          rw [hopen] at h
          simp only [bind_eq_ok_iff, executeChecked_eq_ok_iff] at h ⊢
          obtain ⟨x, ⟨hended, hexecute⟩, w, hfinish, ⟨⟩⟩ := h
          exact ⟨_, ⟨hended, executeAll_behind before hlonger hexecute⟩, _,
            Execution.finish_behind before hlonger hfinish, rfl⟩

variable (space) in
/-- **A block that fits some room comes to the same with more room**, with more bytes in front of the
window, and whether or not a dictionary is cold. -/
theorem decodeBlock_widen {block : BlockHeader}
    (h : decodeBlock (space.narrowed room) ⟨state, false⟩ window block bytes start
      = .ok (d, window')) :
    ∃ cold', decodeBlock space ⟨state, cold⟩ (before ++ window) block bytes start
      = .ok (⟨d.state, cold'⟩, before ++ window') := by
  unfold decodeBlock at h ⊢
  cases hkind : block.kind with
  | raw =>
      rw [hkind] at h
      dsimp only at h ⊢
      split at h
      · cases h
      · cases h
        rw [if_neg (by omega), pushRange_append]
        exact ⟨cold, rfl⟩
  | run =>
      rw [hkind] at h
      dsimp only at h ⊢
      split at h
      · cases h
      · cases h
        rw [if_neg (by omega), pushRun_append]
        exact ⟨cold, rfl⟩
  | compressed =>
      rw [hkind] at h
      exact ⟨false, decodeCompressed_widen hlimit hroom before cold h⟩

end Widen

end Blocks

/-! ### Frames -/

section Frames

variable {bytes : ByteArray} {start stop capacity : Nat}

/-- The blocks of a frame end below their limit. -/
theorem size_le_of_decodeBlocks {limit blockLimit : Nat} {d : BlockDecoder} {window : ByteArray}
    {r : Nat × ByteArray} (hwindow : window.size ≤ limit)
    (h : decodeBlocks bytes stop limit blockLimit start d window = .ok r) : r.2.size ≤ limit := by
  fun_induction decodeBlocks bytes stop limit blockLimit start d window with
  | case1 => cases h
  | case2 => cases h
  | case3 => cases h
  | case4 start d window block hread hfits d' window' hblock hlast =>
      cases h
      have hle := size_le_of_decodeBlock hblock
      dsimp only at hle ⊢
      omega
  | case5 start d window block hread hfits d' window' hblock hlast ih =>
      have hle := size_le_of_decodeBlock hblock
      dsimp only at hle
      exact ih (by omega) h

theorem size_le_of_decodeFrame {dict : Option LoadedDictionary} {cold : Bool} {r : DecodedFrame}
    (h : decodeFrame dict cold bytes start stop capacity = .ok r) : r.content.size ≤ capacity := by
  unfold decodeFrame at h
  split at h
  · cases h
  · split at h
    · cases h
    · split at h
      rename_i history state hpoint
      split at h
      · cases h
      · rename_i position window hblocks
        split at h
        · cases h
        · cases h
          have hle := size_le_of_decodeBlocks (Nat.le_add_right _ _) hblocks
          dsimp only at hle ⊢
          rw [ByteArray.size_extract]
          omega

/-- **All the frames of an input together fit the range they are decoded into.** -/
theorem size_le_of_decodeConcatenated {dict : Option LoadedDictionary} {cold later : Bool}
    {out content : ByteArray} (hout : out.size ≤ capacity)
    (h : decodeConcatenated dict cold bytes start stop capacity later out = .ok content) :
    content.size ≤ capacity := by
  induction hleft : stop - start using Nat.strongRecOn generalizing cold later start out with
  | ind left ih =>
      rw [decodeConcatenated] at h
      split at h
      · rename_i hmore
        split at h
        · cases h
        · rename_i size hskip
          have hpos := pos_of_skippableAt hskip
          simp only [shortestInput] at hmore
          exact ih _ (by omega) hout h rfl
        · split at h
          · cases h
          · rename_i frame hframe
            have hlt := lt_of_decodeFrame hframe
            have hle := size_le_of_decodeFrame hframe
            simp only [shortestInput] at hmore
            refine ih _ (by omega) ?_ h rfl
            rw [ByteArray.size_append]
            omega
      · split at h
        · cases h
        · cases h
          exact hout

end Frames

end SharedDictionary
