import SharedDictionary.Dictionary.Digest
import SharedDictionary.Proofs.Entropy.Descriptions

/-!
# What formatted content must be

Content that is not declared raw has to meet four requirements, one after the other: there is a whole
header, it opens with the magic number, its identifier is not zero, and there are tables behind it
(`Requirement`).  The format check reports the first that is not met (`checkFormat_cases`).

The last requirement has parts of its own.  `Tables` is what stands between the header and the content
proper, and `Tables.StandIn` says of each part where it stands and what it must be: a Huffman code that
is complete, three tables of states that own all of them, and three offsets that lead into the content
proper.  Tables can be read exactly where such parts stand (`Dictionary.readTables?_eq_some_iff`).
-/

namespace SharedDictionary

open SharedDictionary.Entropy

theorem guard_eq_some_iff {p : Prop} [Decidable p] : (guard p : Option Unit) = some () ↔ p := by
  unfold guard
  split
  · rename_i hp
    exact iff_of_true rfl hp
  · rename_i hp
    exact iff_of_false (fun h => by cases h) hp

/-! ### Tables -/

theorem Entropy.StateTable.read?_eq_some_iff {bytes : ByteArray} {start stop maxSymbol maxLog : Nat}
    {t : StateTable} {size : Nat} :
    StateTable.read? bytes start stop maxSymbol maxLog = some (t, size)
      ↔ ∃ c, Counts.read? bytes start stop maxSymbol = some c ∧ c.log ≤ maxLog
        ∧ t = .ofCounts c.log c.counts ∧ size = c.size := by
  unfold StateTable.read?
  rcases Counts.read? bytes start stop maxSymbol with _ | c
  · simp
  · dsimp only
    split
    · rename_i hlog
      simp [hlog, eq_comm]
    · rename_i hlog
      simp [hlog]

theorem Entropy.HuffmanTable.read?_eq_some_iff {bytes : ByteArray} {start stop : Nat} {paired : Bool}
    {t : HuffmanTable} {size : Nat} :
    HuffmanTable.read? bytes start stop paired = some (t, size)
      ↔ ∃ stored last log, HuffmanTable.readWeights? bytes start stop = some (stored, size)
        ∧ HuffmanTable.Completes stored last log ∧ t = .ofWeights (stored ++ [last]) log paired := by
  unfold HuffmanTable.read?
  constructor
  · intro h
    obtain ⟨⟨stored, size'⟩, hweights, h⟩ := Option.bind_eq_some_iff.mp h
    obtain ⟨⟨weights, log⟩, hcomplete, h⟩ := Option.bind_eq_some_iff.mp h
    obtain ⟨last, hcompletes, rfl⟩ := HuffmanTable.complete?_eq_some_iff.mp hcomplete
    cases h
    exact ⟨stored, last, log, hweights, hcompletes, rfl⟩
  · rintro ⟨stored, last, log, hweights, hcompletes, rfl⟩
    have hcomplete := HuffmanTable.complete?_eq_some_iff.mpr ⟨last, hcompletes, rfl⟩
    simp only [hweights, hcomplete, Option.bind_eq_bind, Option.bind_some, pure]

namespace Dictionary

/-- The counts of a table of states stand at a position: they can be read, the table is small enough,
there is no symbol beyond the largest, and every state has one owner. -/
structure CountsStandAt (content : ByteArray) (start : Nat) (limits : Nat × Nat) (c : Counts) : Prop where
  read : Counts.read? content start content.size limits.1 = some c
  log_le : c.log ≤ limits.2
  size_le : c.counts.size ≤ limits.1 + 1
  normalised : Counts.Normalised c.log c.counts

/-- What stands between the header and the content proper, in its order. -/
structure Tables where
  /-- The stored weights of the Huffman code. -/
  weights : List Nat
  /-- The weight that completes them. -/
  lastWeight : Nat
  /-- The greatest length of a code word. -/
  codeLog : Nat
  /-- How many bytes the weights take. -/
  codeSize : Nat
  offsets : Counts
  matchLengths : Counts
  literalLengths : Counts

namespace Tables

variable (t : Tables) (content : ByteArray)

def atOffsets : Nat := headerLength + t.codeSize

def atMatchLengths : Nat := t.atOffsets + t.offsets.size

def atLiteralLengths : Nat := t.atMatchLengths + t.matchLengths.size

/-- Where the three offsets stand that a frame starts with. -/
def atRecent : Nat := t.atLiteralLengths + t.literalLengths.size

def contentStart : Nat := t.atRecent + 12

/-- One of the three offsets. -/
def recentOffset (k : Nat) : Nat := littleEndian content (t.atRecent + 4 * k) 4

/-- What the first block of a frame starts with. -/
def state : CodingState where
  huffman := some (.ofWeights (t.weights ++ [t.lastWeight]) t.codeLog true)
  sequences := some
    { literalLengths := .ofCounts t.literalLengths.log t.literalLengths.counts
      offsets := .ofCounts t.offsets.log t.offsets.counts
      matchLengths := .ofCounts t.matchLengths.log t.matchLengths.counts }
  recent := ⟨t.recentOffset content 0, t.recentOffset content 1, t.recentOffset content 2⟩

/-- What content loads to in which the tables stand. -/
def loaded : LoadedDictionary :=
  ⟨content, t.contentStart, littleEndian content 4 4, t.state content⟩

/-- Tables stand in content behind its header. -/
structure StandIn : Prop where
  weights : HuffmanTable.readWeights? content headerLength content.size
    = some (t.weights, t.codeSize)
  complete : HuffmanTable.Completes t.weights t.lastWeight t.codeLog
  offsets : CountsStandAt content t.atOffsets offsetLimits t.offsets
  matchLengths : CountsStandAt content t.atMatchLengths matchLengthLimits t.matchLengths
  literalLengths : CountsStandAt content t.atLiteralLengths literalLengthLimits t.literalLengths
  room : t.contentStart ≤ content.size
  /-- Every offset leads into the content proper. -/
  recent : ∀ k < 3, 1 ≤ t.recentOffset content k
    ∧ t.recentOffset content k ≤ content.size - t.contentStart

end Tables

theorem countsStandAt_iff {content : ByteArray} {start : Nat} {limits : Nat × Nat} {c : Counts} :
    CountsStandAt content start limits c
      ↔ Counts.read? content start content.size limits.1 = some c ∧ c.log ≤ limits.2 := by
  refine ⟨fun h => ⟨h.read, h.log_le⟩, fun ⟨hread, hlog⟩ => ?_⟩
  obtain ⟨-, hsize, hnormalised⟩ := Counts.normalised_of_read? hread
  exact ⟨hread, hlog, hsize, hnormalised⟩

theorem Tables.StandIn.headerLength_lt {t : Tables} {content : ByteArray} (h : t.StandIn content) :
    headerLength < content.size := by
  have hroom := h.room
  simp only [Tables.contentStart, Tables.atRecent, Tables.atLiteralLengths, Tables.atMatchLengths,
    Tables.atOffsets] at hroom
  omega

/-- What is asked of all three offsets is asked of one after the other. -/
private theorem forall_recent_iff (offset : Nat → Nat) (room : Nat) :
    (∀ k < 3, 1 ≤ offset k ∧ offset k ≤ room)
      ↔ 1 ≤ offset 0 ∧ offset 0 ≤ room ∧ 1 ≤ offset 1 ∧ offset 1 ≤ room
        ∧ 1 ≤ offset 2 ∧ offset 2 ≤ room := by
  simp only [Nat.forall_lt_succ_right, Nat.not_lt_zero, false_implies, implies_true, true_and,
    and_assoc]

/-- **Tables are read exactly where they stand.** -/
theorem readTables?_eq_some_iff {content : ByteArray} {state : CodingState} {start : Nat} :
    readTables? content = some (state, start)
      ↔ ∃ t : Tables, t.StandIn content ∧ state = t.state content ∧ start = t.contentStart := by
  constructor
  · intro h
    rw [readTables?] at h
    obtain ⟨_, -, h⟩ := Option.bind_eq_some_iff.mp h
    obtain ⟨⟨huffman, codeSize⟩, hcode, h⟩ := Option.bind_eq_some_iff.mp h
    obtain ⟨⟨offsets, offsetsSize⟩, hoffsets, h⟩ := Option.bind_eq_some_iff.mp h
    obtain ⟨⟨matchLengths, matchSize⟩, hmatches, h⟩ := Option.bind_eq_some_iff.mp h
    obtain ⟨⟨literalLengths, literalSize⟩, hliterals, h⟩ := Option.bind_eq_some_iff.mp h
    obtain ⟨_, hroom, h⟩ := Option.bind_eq_some_iff.mp h
    obtain ⟨_, hrecent, h⟩ := Option.bind_eq_some_iff.mp h
    cases h
    obtain ⟨weights, lastWeight, codeLog, hweights, hcompletes, rfl⟩ :=
      HuffmanTable.read?_eq_some_iff.mp hcode
    obtain ⟨cOffsets, hreadOffsets, hlogOffsets, rfl, rfl⟩ :=
      StateTable.read?_eq_some_iff.mp hoffsets
    obtain ⟨cMatches, hreadMatches, hlogMatches, rfl, rfl⟩ :=
      StateTable.read?_eq_some_iff.mp hmatches
    obtain ⟨cLiterals, hreadLiterals, hlogLiterals, rfl, rfl⟩ :=
      StateTable.read?_eq_some_iff.mp hliterals
    have hroom := guard_eq_some_iff.mp hroom
    refine ⟨⟨weights, lastWeight, codeLog, codeSize, cOffsets, cMatches, cLiterals⟩,
      ⟨hweights, hcompletes, countsStandAt_iff.mpr ⟨hreadOffsets, hlogOffsets⟩,
        countsStandAt_iff.mpr ⟨hreadMatches, hlogMatches⟩,
        countsStandAt_iff.mpr ⟨hreadLiterals, hlogLiterals⟩, hroom, ?_⟩, rfl, rfl⟩
    exact (forall_recent_iff _ _).mpr (guard_eq_some_iff.mp hrecent)
  · rintro ⟨t, h, rfl, rfl⟩
    have hcode : HuffmanTable.read? content headerLength content.size true
        = some (_, t.codeSize) := HuffmanTable.read?_eq_some_iff.mpr
      ⟨t.weights, t.lastWeight, t.codeLog, h.weights, h.complete, rfl⟩
    have hoffsets := StateTable.read?_eq_some_iff.mpr
      ⟨t.offsets, h.offsets.read, h.offsets.log_le, rfl, rfl⟩
    have hmatches := StateTable.read?_eq_some_iff.mpr
      ⟨t.matchLengths, h.matchLengths.read, h.matchLengths.log_le, rfl, rfl⟩
    have hliterals := StateTable.read?_eq_some_iff.mpr
      ⟨t.literalLengths, h.literalLengths.read, h.literalLengths.log_le, rfl, rfl⟩
    have hrecent := (forall_recent_iff (t.recentOffset content) _).mp h.recent
    rw [readTables?]
    refine Option.bind_eq_some_iff.mpr ⟨(), guard_eq_some_iff.mpr h.headerLength_lt, ?_⟩
    refine Option.bind_eq_some_iff.mpr ⟨_, hcode, ?_⟩
    refine Option.bind_eq_some_iff.mpr ⟨_, hoffsets, ?_⟩
    refine Option.bind_eq_some_iff.mpr ⟨_, hmatches, ?_⟩
    refine Option.bind_eq_some_iff.mpr ⟨_, hliterals, ?_⟩
    refine Option.bind_eq_some_iff.mpr ⟨(), guard_eq_some_iff.mpr h.room, ?_⟩
    refine Option.bind_eq_some_iff.mpr ⟨(), guard_eq_some_iff.mpr hrecent, ?_⟩
    rfl

end Dictionary

/-! ### How content is loaded -/

theorem LoadedDictionary.load?_of_readTables? {content : ByteArray}
    (hformatted : Dictionary.isFormatted content = true) {state : Entropy.CodingState} {start : Nat}
    (htables : Dictionary.readTables? content = some (state, start)) :
    load? content = some ⟨content, start, Dictionary.readId content, state⟩ := by
  rw [load?, if_pos hformatted, htables]
  rfl

theorem LoadedDictionary.load?_eq_none {content : ByteArray}
    (hformatted : Dictionary.isFormatted content = true)
    (htables : Dictionary.readTables? content = none) : load? content = none := by
  rw [load?, if_pos hformatted, htables]
  rfl

/-! ### The four requirements -/

/-- What content must meet that is not declared raw. -/
inductive Requirement where
  | header
  | magic
  | identifier
  | tables
  deriving Repr, DecidableEq

namespace Requirement

/-- Content meets a requirement. -/
def Meets (content : ByteArray) : Requirement → Prop
  | header => 8 ≤ content.size
  | magic => littleEndian content 0 4 = 0xEC30A437
  | identifier => littleEndian content 4 4 ≠ 0
  | tables => ∃ t : Dictionary.Tables, t.StandIn content

/-- What is reported of content that does not meet a requirement. -/
def complaint (content : ByteArray) : Requirement → String
  | header => toString content.size ++ " bytes is shorter than the 8-byte dictionary header"
  | magic => "missing dictionary magic number, pass is_raw=true for raw content"
  | identifier => "dictionary id is zero"
  | tables => "zstd rejected the dictionary entropy tables"

/-- The requirements in the order in which they are looked at. -/
def inOrder : List Requirement := [header, magic, identifier, tables]

/-- The first requirement that content does not meet. -/
def IsFirstUnmet (content : ByteArray) (r : Requirement) : Prop :=
  ∃ before after, inOrder = before ++ r :: after ∧ (∀ q ∈ before, Meets content q)
    ∧ ¬Meets content r

variable {content : ByteArray}

/-- Content has the magic number if the requirement before it is met. -/
theorem hasMagic_iff (hheader : Meets content header) :
    Dictionary.hasMagic content = true ↔ Meets content magic := by
  have hfour : 4 ≤ content.size := Nat.le_trans (by decide) (show 8 ≤ content.size from hheader)
  rw [Dictionary.hasMagic, decide_eq_true hfour, Bool.true_and, beq_iff_eq]
  rfl

/-- The identifier is read off its place if there is a whole header. -/
theorem readId_eq (hheader : Meets content header) (hmagic : Meets content magic) :
    Dictionary.readId content = littleEndian content 4 4 := by
  have hlong : ¬content.size < Dictionary.headerLength := Nat.not_lt.mpr hheader
  rw [Dictionary.readId, (hasMagic_iff hheader).mpr hmagic, decide_eq_false hlong]
  rfl

private theorem isFormatted_of_meets (hheader : Meets content header) (hmagic : Meets content magic) :
    Dictionary.isFormatted content = true := by
  rw [Dictionary.isFormatted, (hasMagic_iff hheader).mpr hmagic, Bool.and_true, decide_eq_true_eq]
  exact hheader

/-- Content is loaded with the tables that stand in it. -/
theorem load?_of_standIn {t : Dictionary.Tables} (hheader : Meets content header)
    (hmagic : Meets content magic) (hstands : t.StandIn content) :
    LoadedDictionary.load? content = some (t.loaded content) := by
  have hread := Dictionary.readTables?_eq_some_iff.mpr ⟨t, hstands, rfl, rfl⟩
  rw [LoadedDictionary.load?_of_readTables? (isFormatted_of_meets hheader hmagic) hread,
    readId_eq hheader hmagic]
  rfl

private theorem isSome_load?_iff (hheader : Meets content header) (hmagic : Meets content magic) :
    (LoadedDictionary.load? content).isSome = true ↔ Meets content tables := by
  constructor
  · intro hload
    rcases hread : Dictionary.readTables? content with _ | ⟨state, start⟩
    · rw [LoadedDictionary.load?_eq_none (isFormatted_of_meets hheader hmagic) hread] at hload
      cases hload
    · obtain ⟨t, hstands, -⟩ := Dictionary.readTables?_eq_some_iff.mp hread
      exact ⟨t, hstands⟩
  · rintro ⟨t, hstands⟩
    rw [load?_of_standIn hheader hmagic hstands]
    rfl

/-- **The format check reports the first requirement that is not met.** -/
theorem checkFormat_cases (content : ByteArray) :
    ((∀ r, Meets content r) ∧ checkFormat content false = .ok ())
      ∨ ∃ r, IsFirstUnmet content r
        ∧ checkFormat content false = .error (.badFormat (r.complaint content)) := by
  have hlength : Dictionary.headerLength = 8 := rfl
  unfold checkFormat
  rw [if_neg Bool.false_ne_true, hlength]
  by_cases hheader : Meets content header
  · rw [if_neg (Nat.not_lt.mpr (show 8 ≤ content.size from hheader))]
    by_cases hmagic : Meets content magic
    · rw [(hasMagic_iff hheader).mpr hmagic, if_neg (by decide), readId_eq hheader hmagic]
      by_cases hid : Meets content identifier
      · rw [if_neg (show ¬littleEndian content 4 4 = 0 from hid)]
        by_cases htables : Meets content tables
        · have hload := (isSome_load?_iff hheader hmagic).mpr htables
          rw [Option.isNone_eq_false_iff.mpr hload, if_neg Bool.false_ne_true]
          exact .inl ⟨fun r => by cases r <;> assumption, rfl⟩
        · have hload := mt (isSome_load?_iff hheader hmagic).mp htables
          rw [Option.not_isSome_iff_eq_none] at hload
          rw [hload, Option.isNone_none, if_pos rfl]
          refine .inr ⟨tables, ⟨[header, magic, identifier], [], rfl, ?_, htables⟩, rfl⟩
          simp [hheader, hmagic, hid]
      · rw [if_pos (Decidable.not_not.mp hid)]
        refine .inr ⟨identifier, ⟨[header, magic], [tables], rfl, ?_, hid⟩, rfl⟩
        simp [hheader, hmagic]
    · have hmissing : Dictionary.hasMagic content = false := by
        rw [← Bool.not_eq_true]
        exact mt (hasMagic_iff hheader).mp hmagic
      rw [hmissing, if_pos (by decide)]
      refine .inr ⟨magic, ⟨[header], [identifier, tables], rfl, ?_, hmagic⟩, rfl⟩
      simp [hheader]
  · have hshort : content.size < 8 := Nat.not_le.mp hheader
    rw [if_pos hshort]
    have htext : " bytes is shorter than the " ++ (toString 8 ++ "-byte dictionary header")
        = " bytes is shorter than the 8-byte dictionary header" := by decide
    rw [String.append_assoc, String.append_assoc, htext]
    refine .inr ⟨header, ⟨[], [magic, identifier, tables], rfl, ?_, hheader⟩, rfl⟩
    simp

/-- A header, a code of two symbols, three tables with one symbol each, three offsets, and one byte that
all of them lead to. -/
example : (checkFormat ⟨#[0x37, 0xA4, 0x30, 0xEC, 1, 0, 0, 0, 0x80, 0x10, 0xF0, 3, 0xF0, 3, 0xF0, 3,
    1, 0, 0, 0, 1, 0, 0, 0, 1, 0, 0, 0, 97]⟩ false).isOk = true := by
  decide +kernel

/-- There is one first requirement at most. -/
theorem IsFirstUnmet.unique {r r' : Requirement} (h : IsFirstUnmet content r)
    (h' : IsFirstUnmet content r') : r = r' := by
  obtain ⟨before, after, hsplit, hmet, hunmet⟩ := h
  obtain ⟨before', after', hsplit', hmet', hunmet'⟩ := h'
  rcases List.append_eq_append_iff.mp (hsplit.symm.trans hsplit') with
    ⟨between, rfl, hrest⟩ | ⟨between, rfl, hrest⟩
  · cases between with
    | nil => exact (List.cons.inj hrest).1
    | cons q between =>
        obtain rfl := (List.cons.inj hrest).1
        exact absurd (hmet' r (by simp)) hunmet
  · cases between with
    | nil => exact (List.cons.inj hrest).1.symm
    | cons q between =>
        obtain rfl := (List.cons.inj hrest).1
        exact absurd (hmet r' (by simp)) hunmet'

theorem IsFirstUnmet.not_meets {r : Requirement} (h : IsFirstUnmet content r) : ¬Meets content r := by
  obtain ⟨-, -, -, -, hunmet⟩ := h
  exact hunmet

/-- The format check lets content pass that meets all requirements. -/
theorem checkFormat_of_meets (h : ∀ r, Meets content r) : checkFormat content false = .ok () := by
  rcases checkFormat_cases content with ⟨-, hcheck⟩ | ⟨r, hunmet, -⟩
  · exact hcheck
  · exact absurd (h r) hunmet.not_meets

end Requirement

end SharedDictionary
