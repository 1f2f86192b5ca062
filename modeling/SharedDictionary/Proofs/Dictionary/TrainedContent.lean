import SharedDictionary.Proofs.Bytes.Standing
import SharedDictionary.Proofs.Dictionary.Requirements
import SharedDictionary.Training

/-!
# Trained content is formatted

A trainer conforms to the format if what it makes fits into the space that it was given and meets the
four requirements of formatted content (`Trainer.Conforms`).

The plain trainer conforms (`conforms_plainTrainer`).  The content that it makes is the magic number, an
identifier, the tables and what was learned (`trainedContent_eq`).  The tables are the same each time.
The greatest of their offsets leads eight bytes back, so they are readable if eight bytes were learned
(`standIn_plainContent`), and in the least space there is room for so many.
-/

namespace SharedDictionary

open Entropy Requirement

/-- What a trainer makes fits into the space that it was given, and it is formatted. -/
structure Trainer.Conforms (trainer : Trainer) : Prop where
  size_le : ∀ {samples maxSize content}, trainer samples maxSize = .ok content →
    content.size ≤ maxSize
  meets : ∀ {samples maxSize content}, trainer samples maxSize = .ok content →
    ∀ r, Meets content r

/-! ### The shortest descriptions -/

section Descriptions

variable {bytes : ByteArray} {start stop : Nat}

/-- The description of one symbol with all the states is read wherever it stands. -/
theorem read?_oneSymbolTable (h : StandsAt bytes start ⟨oneSymbolTable.toArray⟩)
    (hroom : start + 8 ≤ stop) (maxSymbol : Nat) :
    Counts.read? bytes start stop maxSymbol = some ⟨5, #[32], 2⟩ := by
  have hfirst : byteAt bytes start = 0xF0 := h.byteAt_eq (j := 0) (by decide)
  have hsecond : byteAt bytes (start + 1) = 0x03 := h.byteAt_eq (j := 1) (by decide)
  obtain ⟨rest, hword⟩ : ∃ rest, littleEndian bytes start 4 = 0x3F0 + 65536 * rest := by
    refine ⟨littleEndian bytes (start + 1 + 1) 2, ?_⟩
    rw [littleEndian_succ, littleEndian_succ, hfirst, hsecond]
    omega
  have hlog : littleEndian bytes start 4 % 16 + 5 = 5 := by omega
  have hwindow : Counts.Cursor.window bytes ⟨start, 4⟩ % 64 = 63 := by
    rw [Counts.Cursor.window, hword, Nat.shiftRight_eq_div_pow]
    change (0x3F0 + 65536 * rest) / 2 ^ 4 % 64 = 63
    omega
  -- The six bits that are set are the longer form of the count of all 32 states.
  have hone : Counts.readOne (Counts.Cursor.window bytes ⟨start, 4⟩) ⟨33, 6⟩ = (32, 6) := by
    have hlow : Counts.Cursor.window bytes ⟨start, 4⟩ % 32 = 31 := by omega
    simp [Counts.readOne, hlow, hwindow]
  have hall : Counts.readAll bytes stop (maxSymbol + 1) ⟨start, 4⟩ ⟨33, 6⟩ #[] false
      = (⟨start, 10⟩, ⟨1, 6⟩, #[32]) := by
    rw [Counts.readAll]
    simp [Counts.skipZeros, hone, Counts.Remaining.take]
  rw [Counts.read?, if_pos hroom, Counts.readLong?]
  simp only [hlog]
  simp [hall]

/-- The description of a code of two symbols is read wherever it stands. -/
theorem readWeights?_twoSymbolCode (h : StandsAt bytes start ⟨twoSymbolCode.toArray⟩)
    (hroom : start + 2 ≤ stop) :
    HuffmanTable.readWeights? bytes start stop = some ([1], 2) := by
  have hfirst : byteAt bytes start = 0x80 := h.byteAt_eq (j := 0) (by decide)
  have hsecond : byteAt bytes (start + 1) = 0x10 := h.byteAt_eq (j := 1) (by decide)
  have hweights : HuffmanTable.directWeights bytes (start + 1) 1 = [1] := by
    simp [HuffmanTable.directWeights, hsecond]
  rw [HuffmanTable.readWeights?]
  refine Option.bind_eq_some_iff.mpr ⟨(), guard_eq_some_iff.mpr (by omega), ?_⟩
  dsimp only
  rw [hfirst, if_pos (by decide)]
  refine Option.bind_eq_some_iff.mpr ⟨(), guard_eq_some_iff.mpr hroom, ?_⟩
  exact congrArg (fun weights => some (weights, 2)) hweights

theorem completes_twoSymbolCode : HuffmanTable.Completes [1] 1 1 where
  weight_le := by decide
  used := ⟨1, by decide, by decide⟩
  last_pos := by decide
  full := by decide
  log_le := by decide
  longest := by decide

end Descriptions

/-! ### What is made -/

theorem size_trainedTables : trainedTables.size = 20 := by
  decide

/-- Content with an identifier and with what was learned, behind the tables. -/
def plainContent (id : Nat) (learned : ByteArray) : ByteArray :=
  pushLittleEndian ByteArray.empty Dictionary.magic 4
    ++ (pushLittleEndian ByteArray.empty id 4 ++ (trainedTables ++ learned))

theorem trainedContent_eq (samples : List ByteArray) (maxSize : Nat) :
    trainedContent samples maxSize
      = plainContent (trainedId (learnedContent samples (maxSize - 28)))
          (learnedContent samples (maxSize - 28)) := by
  have hspace : maxSize - Dictionary.headerLength - trainedTables.size = maxSize - 28 := by
    rw [size_trainedTables, Dictionary.headerLength]
    omega
  rw [trainedContent, hspace, plainContent, pushLittleEndian_eq (pushLittleEndian _ _ _),
    ByteArray.append_assoc, ByteArray.append_assoc]

theorem size_learnedContent (samples : List ByteArray) (space : Nat) :
    (learnedContent samples space).size = min space (samples.map (·.size)).sum := by
  have hall : ∀ start : ByteArray,
      (samples.foldl (· ++ ·) start).size = start.size + (samples.map (·.size)).sum := by
    induction samples with
    | nil => simp
    | cons sample samples ih =>
        intro start
        rw [List.foldl_cons, ih, ByteArray.size_append, List.map_cons, List.sum_cons, Nat.add_assoc]
  rw [learnedContent, ByteArray.size_extract, hall, ByteArray.size_empty]
  omega

/-- Identifiers are drawn from a range without zero. -/
theorem trainedId_mem (content : ByteArray) :
    2 ^ 15 ≤ trainedId content ∧ trainedId content < 2 ^ 31 := by
  have hlt := Nat.mod_lt (Checksum.hash content).toNat (show 2 ^ 31 - 2 ^ 15 > 0 by decide)
  unfold trainedId identifierRange
  dsimp only
  omega

/-! ### It is formatted -/

/-- The tables of trained content. -/
def trainedLayout : Dictionary.Tables where
  weights := [1]
  lastWeight := 1
  codeLog := 1
  codeSize := 2
  offsets := ⟨5, #[32], 2⟩
  matchLengths := ⟨5, #[32], 2⟩
  literalLengths := ⟨5, #[32], 2⟩

section PlainContent

variable {id : Nat} {learned : ByteArray}

theorem size_plainContent : (plainContent id learned).size = 28 + learned.size := by
  simp only [plainContent, ByteArray.size_append, size_pushLittleEndian, ByteArray.size_empty,
    size_trainedTables]
  omega

/-- Magic number, identifier and tables stand behind each other. -/
theorem standsAt_plainContent (id : Nat) (learned : ByteArray) :
    StandsAt (plainContent id learned) 0 (pushLittleEndian ByteArray.empty Dictionary.magic 4)
      ∧ StandsAt (plainContent id learned) 4 (pushLittleEndian ByteArray.empty id 4)
      ∧ StandsAt (plainContent id learned) 8 trainedTables := by
  obtain ⟨hmagic, hrest⟩ := standsAt_append.mp (standsAt_self (plainContent id learned))
  obtain ⟨hid, hrest⟩ := standsAt_append.mp hrest
  obtain ⟨htables, -⟩ := standsAt_append.mp hrest
  simp only [size_pushLittleEndian, ByteArray.size_empty, Nat.zero_add, Nat.reduceAdd] at hid htables
  exact ⟨hmagic, hid, htables⟩

/-- **The tables are readable**, if eight bytes follow them. -/
theorem standIn_plainContent (hlearned : 8 ≤ learned.size) :
    trainedLayout.StandIn (plainContent id learned) := by
  have hsize : (plainContent id learned).size = 28 + learned.size := size_plainContent
  obtain ⟨-, -, htables⟩ := standsAt_plainContent id learned
  have hcode : StandsAt (plainContent id learned) 8 ⟨twoSymbolCode.toArray⟩ :=
    htables.trans (j := 0) ⟨by decide, by decide⟩
  have hoffsets : StandsAt (plainContent id learned) 10 ⟨oneSymbolTable.toArray⟩ :=
    htables.trans (j := 2) ⟨by decide, by decide⟩
  have hmatchLengths : StandsAt (plainContent id learned) 12 ⟨oneSymbolTable.toArray⟩ :=
    htables.trans (j := 4) ⟨by decide, by decide⟩
  have hliteralLengths : StandsAt (plainContent id learned) 14 ⟨oneSymbolTable.toArray⟩ :=
    htables.trans (j := 6) ⟨by decide, by decide⟩
  have hrecent : ∀ k < 3, trainedLayout.recentOffset (plainContent id learned) k
      = littleEndian trainedTables (8 + 4 * k) 4 := by
    intro k hk
    refine Eq.trans ?_ (htables.littleEndian_eq (j := 8 + 4 * k) (by rw [size_trainedTables]; omega))
    rw [← Nat.add_assoc]
    rfl
  have hoffsets_le : ∀ k < 3, 1 ≤ littleEndian trainedTables (8 + 4 * k) 4
      ∧ littleEndian trainedTables (8 + 4 * k) 4 ≤ 8 := by
    decide
  refine ⟨?_, completes_twoSymbolCode, ?_, ?_, ?_, ?_, ?_⟩
  · show HuffmanTable.readWeights? _ 8 _ = _
    exact readWeights?_twoSymbolCode hcode (by omega)
  · exact Dictionary.countsStandAt_iff.mpr ⟨read?_oneSymbolTable hoffsets (by omega) _, by decide⟩
  · exact Dictionary.countsStandAt_iff.mpr
      ⟨read?_oneSymbolTable hmatchLengths (by omega) _, by decide⟩
  · exact Dictionary.countsStandAt_iff.mpr
      ⟨read?_oneSymbolTable hliteralLengths (by omega) _, by decide⟩
  · show 28 ≤ _
    omega
  · intro k hk
    obtain ⟨hpos, hle⟩ := hoffsets_le k hk
    rw [hrecent k hk]
    refine ⟨hpos, Nat.le_trans hle ?_⟩
    show 8 ≤ _ - 28
    omega

/-- Such content is formatted, if its identifier is one. -/
theorem meets_plainContent (hid : 0 < id) (hid_lt : id < 2 ^ 32) (hlearned : 8 ≤ learned.size)
    (r : Requirement) : Meets (plainContent id learned) r := by
  obtain ⟨hmagic, hidentifier, -⟩ := standsAt_plainContent id learned
  cases r with
  | header =>
      show 8 ≤ (plainContent id learned).size
      rw [size_plainContent]
      omega
  | magic => exact hmagic.littleEndian_number
  | identifier =>
      show littleEndian (plainContent id learned) 4 4 ≠ 0
      rw [hidentifier.littleEndian_number, Nat.mod_eq_of_lt hid_lt]
      omega
  | tables => exact ⟨trainedLayout, standIn_plainContent hlearned⟩

end PlainContent

/-- What the plain trainer makes is made in at least 256 bytes, of at least eight bytes of samples. -/
theorem of_plainTrainer_eq_ok {samples : List ByteArray} {maxSize : Nat} {content : ByteArray}
    (h : plainTrainer samples maxSize = .ok content) :
    256 ≤ maxSize ∧ 8 ≤ (samples.map (·.size)).sum ∧ content = trainedContent samples maxSize := by
  unfold plainTrainer at h
  split at h
  · cases h
  · rename_i hfailure
    cases h
    unfold trainingFailure? at hfailure
    dsimp only at hfailure
    split at hfailure
    · cases hfailure
    · split at hfailure
      · cases hfailure
      · rename_i hspace
        split at hfailure
        · cases hfailure
        · rename_i htotal
          exact ⟨Nat.not_lt.mp hspace, Nat.not_lt.mp (not_or.mp htotal).1, rfl⟩

/-- **The plain trainer conforms to the format.** -/
theorem conforms_plainTrainer : plainTrainer.Conforms where
  size_le {samples maxSize content} h := by
    obtain ⟨hspace, -, rfl⟩ := of_plainTrainer_eq_ok h
    rw [trainedContent_eq, size_plainContent, size_learnedContent]
    omega
  meets {samples maxSize content} h r := by
    obtain ⟨hspace, hsamples, rfl⟩ := of_plainTrainer_eq_ok h
    obtain ⟨hlow, hhigh⟩ := trainedId_mem (learnedContent samples (maxSize - 28))
    rw [trainedContent_eq]
    refine meets_plainContent (by omega) (by omega) ?_ r
    rw [size_learnedContent]
    omega

end SharedDictionary
