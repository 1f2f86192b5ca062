import SharedDictionary.Proofs.Dictionary.TrainedContent
import SharedDictionary.Proofs.Session.Exchange

/-!
# Trained dictionaries are usable

A dictionary that was trained is one like any other; all that is particular about it is its content.  If
that meets the requirements of the format, the dictionary has an identifier, grants everything that is
asked of it behind the format check, whatever was asked before, and data comes back through it
(`SharedDict.Serviceable`).

So what a trainer makes is good for everything if it conforms to the format, and nothing else has to be
known of it (`SharedDict.trained_serviceable`).  `serviceable_train` says so of the plain trainer.
-/

namespace SharedDictionary

open Requirement

namespace SharedDict

/-- What a dictionary is good for that was trained for so much space. -/
structure Serviceable (d : SharedDict) (maxSize : Nat) : Prop where
  /-- Nothing was asked of it yet. -/
  fresh : d = .new d.handle.content false
  notRaw : d.handle.isRaw = false
  size_le : d.handle.content.size ≤ maxSize
  hasMagic : Dictionary.hasMagic d.handle.content = true
  dictId_eq : d.handle.dictId = Dictionary.readId d.handle.content
  /-- The identifier is the number behind the magic number. -/
  dictId_eq_number : d.handle.dictId = littleEndian d.handle.content 4 4
  dictId_ne_zero : d.handle.dictId ≠ 0
  /-- The digests for all levels, the digest of the decoder and the content are to be had, whatever was
  asked before. -/
  grants : ∃ dict, ∀ w, Reached d.handle.content false w → w.Grants dict
  /-- Data comes back through every two views that are no prefixes, and the sessions can go on. -/
  roundTrip : ∀ {w w' : SharedDict}, Reached d.handle.content false w →
    Reached d.handle.content false w' → ∀ {mode mode' : DictMode}, mode ≠ .prefixed →
    mode' ≠ .prefixed → ∀ (level : Int32) {config config' : SessionConfig},
    config.usesLongDistance = false → ∀ data : ByteArray, data.size ≤ Decompressor.maxCapacity →
    data.size ≤ config'.frameLimit →
    ∃ c s frame, (Pairing.views w mode level w' mode').compressor config = .ok c
      ∧ (Pairing.views w mode level w' mode').decompressor config' = .ok s
      ∧ (∀ out, c.compressFrame data out = (.ok (), c, out ++ frame))
      ∧ ∀ out, s.decompressFrame frame out = (.ok (), s, out ++ data)

/-- Content that meets the requirements makes a dictionary that is good for everything. -/
theorem serviceable_new {content : ByteArray} {maxSize : Nat} (hsize : content.size ≤ maxSize)
    (hmeets : ∀ r, Meets content r) : (new content false).Serviceable maxSize := by
  have husable : Usable content false := usable_iff_checkFormat.mpr (checkFormat_of_meets hmeets)
  obtain ⟨dict, hload⟩ := Option.isSome_iff_exists.mp husable.2
  have hid : Dictionary.readId content = littleEndian content 4 4 :=
    readId_eq (hmeets .header) (hmeets .magic)
  refine ⟨rfl, rfl, hsize, (hasMagic_iff (hmeets .header)).mpr (hmeets .magic), rfl, hid, ?_,
    ⟨dict, ?_⟩, ?_⟩
  · exact hid.trans_ne (hmeets .identifier)
  · intro w hw
    have hsettled := hw.settled husable hload
    exact hsettled.faithful.grants hsettled.checked hsettled.loaded
  · intro w w' hw hw' mode mode' hmode hmode' level config config' hoff data hdata hlimit
    have hsound : (Pairing.views w mode level w' mode').Sound config :=
      ⟨content, false, false, hw, hw', .inr ⟨hmode, hmode', husable, husable, hoff⟩⟩
    obtain ⟨c, s, hc, hs, hconfig, hpending, hagree⟩ := hsound.agree config'
    obtain ⟨frame, hencode, hdecode, -⟩ := hagree.decode_encode data hdata (by rwa [hconfig])
    -- No prefix is used up, so the sessions stay as they are.
    have hnone : c.hasPendingPrefix = false := by
      rw [hpending]
      exact beq_eq_false_iff_ne.mpr hmode
    have hc_after := Compressor.afterFrame_of_not_pending hnone
    have hs_after := Decompressor.afterFrame_of_not_pending (hagree.pending.symm.trans hnone)
    refine ⟨c, s, frame, hc, hs, fun out => ?_, fun out => ?_⟩
    · rw [Compressor.compressFrame, hencode, hc_after]
    · rw [Decompressor.decompressFrame, hdecode, hs_after]

/-- What the plain trainer makes is good for everything. -/
theorem serviceable_train {samples : List ByteArray} {maxSize : Nat} {content : ByteArray}
    (h : train samples maxSize = .ok content) : (new content false).Serviceable maxSize := by
  have hmade : plainTrainer samples maxSize = .ok content := by
    unfold train trainWith at h
    rcases hmade : plainTrainer samples maxSize with text | made <;> rw [hmade] at h
    · cases h
    · exact congrArg _ (Except.ok.inj h)
  exact serviceable_new (conforms_plainTrainer.size_le hmade) (conforms_plainTrainer.meets hmade)

/-- **Trained dictionaries are usable.**  For all samples and for every space, what is trained is good for
everything, if only the trainer conforms to the format; and if it is not trained, that is a failure of
the codec in training, with the trainer's own text. -/
theorem trained_serviceable {trainer : Trainer} (htrainer : trainer.Conforms)
    (samples : List ByteArray) (maxSize : Nat) :
    (∀ d, trained trainer samples maxSize = .ok d → d.Serviceable maxSize)
      ∧ ∀ e, trained trainer samples maxSize = .error e →
          ∃ text, trainer samples maxSize = .error text ∧ e = .codec "train" text := by
  unfold trained trainWith
  rcases hmade : trainer samples maxSize with text | content
  · refine ⟨fun d h => ?_, fun e h => ⟨text, rfl, ?_⟩⟩
    · cases h
    · cases h
      rfl
  · refine ⟨fun d h => ?_, fun e h => ?_⟩
    · cases h
      exact serviceable_new (htrainer.size_le hmade) (htrainer.meets hmade)
    · cases h

/-- Ten records. -/
def tenRecords : List ByteArray :=
  (List.range 10).map fun i =>
    let status := ["active", "idle", "banned", "pending"].getD (i % 4) ""
    let region := ["eu-west", "us-east", "ap-south"].getD (i % 3) ""
    ("\x7b\"id\":" ++ toString i ++ ",\"user\":\"user-" ++ toString i ++ "\",\"status\":\"" ++ status
      ++ "\",\"region\":\"" ++ region ++ "\",\"score\":" ++ toString (i * 7919 % 1000) ++ "\x7d").toUTF8

/-- Ten records make a dictionary of a kilobyte. -/
theorem trained_serviceable_tenRecords :
    ∃ d, trained plainTrainer tenRecords 1024 = .ok d ∧ d.Serviceable 1024 := by
  have hfine : trainingFailure? tenRecords 1024 = none := by decide +kernel
  have hmade : trained plainTrainer tenRecords 1024
      = .ok (new (trainedContent tenRecords 1024) false) := by
    simp only [trained, trainWith, plainTrainer, hfine]
    rfl
  exact ⟨_, hmade, (trained_serviceable conforms_plainTrainer tenRecords 1024).1 _ hmade⟩

end SharedDict

end SharedDictionary
