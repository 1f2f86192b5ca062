import SharedDictionary.Proofs.Dictionary.Requirements
import SharedDictionary.Proofs.Handle.FormatCheck
import SharedDictionary.Proofs.Handle.Serving

/-!
# What content is good for that is not declared raw

There are three accessors behind the format check: the digest for a level, the digest of the decoder
and the content undigested.  The check reads the tables that the digests are made from, and so they
agree.  Either all of them succeed, for every level and as often as they are asked (`Grants`), or all
of them fail with one error (`Denies`), and content that meets all four requirements is what they
succeed for (`checked_accessors_agree`).

A digest has an error of its own, for tables that cannot be read.  Behind the check it is out of reach.
The log of an engine says nothing of the format but what the content comes to (`Truthful`), and no
build is started without a success in the log; so a build that was started succeeds.
-/

namespace SharedDictionary

open Requirement

namespace SharedDict

variable {content : ByteArray} {w : SharedDict}

/-- A dictionary that is not declared raw grants what the tables in its content load to, or it denies
everything, with a complaint about the first requirement that is not met. -/
theorem Faithful.grants_or_denies (hw : Faithful w) (hcontent : w.handle.content = content)
    (hraw : w.handle.isRaw = false) :
    ((∀ r, Meets content r) ∧ ∃ t : Dictionary.Tables,
        t.StandIn content ∧ w.Grants (t.loaded content))
      ∨ ∃ r, IsFirstUnmet content r ∧ w.Denies (.badFormat (r.complaint content)) := by
  subst hcontent
  rcases checkFormat_cases w.handle.content with ⟨hmet, hcheck⟩ | ⟨r, hunmet, hcheck⟩
  · obtain ⟨t, hstands⟩ := hmet .tables
    have hload := load?_of_standIn (hmet .header) (hmet .magic) hstands
    rw [← hraw] at hcheck
    exact .inl ⟨hmet, t, hstands, hw.grants hcheck hload⟩
  · rw [← hraw] at hcheck
    exact .inr ⟨r, hunmet, hw.denies hcheck⟩

end SharedDict

/-! ### Builds that were started -/

/-- A dictionary served by the codec's engine, which logs what it is asked. -/
abbrev LoggedDict : Type :=
  World (Unit × List (Happening CompressionDigest DecompressionDigest)) CompressionDigest
    DecompressionDigest

namespace LoggedDict

variable {w w' : LoggedDict}

/-- A dictionary of some content, with an empty log. -/
def new (content : ByteArray) (isRaw : Bool) : LoggedDict := ⟨.new content isRaw, (), []⟩

/-- What a log says of the format is what the content comes to. -/
def Truthful (w : LoggedDict) : Prop :=
  ∀ verdict, .checkEnded verdict ∈ w.engine.2 →
    verdict = .ofExcept (checkFormat w.handle.content w.handle.isRaw)

/-- A log stays truthful if no check is added to it, or one that is answered truthfully. -/
theorem Truthful.extend (hw : w.Truthful) (hcontinues : w.handle.Continues w'.handle)
    {more : List (Happening CompressionDigest DecompressionDigest)}
    (hlog : w'.engine.2 = w.engine.2 ++ more)
    (hmore : ∀ verdict, .checkEnded verdict ∈ more →
      verdict = .ofExcept (checkFormat w.handle.content w.handle.isRaw)) : w'.Truthful := by
  intro verdict hverdict
  rw [hcontinues.content, hcontinues.isRaw]
  rw [hlog] at hverdict
  rcases List.mem_append.mp hverdict with hold | hnew
  · exact hw verdict hold
  · exact hmore verdict hnew

/-- A handle is followed by one with the same content, and its log stays truthful. -/
def Upholds (w w' : LoggedDict) : Prop :=
  w.handle.Continues w'.handle ∧ (w.Truthful → w'.Truthful)

/-- An input that the log does not mention. -/
theorem upholds_of_log_eq (hcontinues : w.handle.Continues w'.handle)
    (hlog : w'.engine.2 = w.engine.2) : w.Upholds w' :=
  ⟨hcontinues, fun hw => hw.extend hcontinues (hlog.trans (List.append_nil _).symm)
    fun _ hverdict => absurd hverdict List.not_mem_nil⟩

theorem respects_upholds : Respects codecEngine.logged Upholds where
  refl w := ⟨.refl w.handle, id⟩
  trans first second := ⟨first.1.trans second.1, fun hw => second.2 (first.2 hw)⟩
  call w request := upholds_of_log_eq (w.handle.continues_step (.call request)) rfl
  checked w := by
    have hcontinues := w.handle.continues_step
      (.checked (.ofExcept (checkFormat w.handle.content w.handle.isRaw)))
    refine ⟨hcontinues, fun hw => hw.extend hcontinues rfl fun verdict hverdict => ?_⟩
    rcases List.mem_cons.mp hverdict with hstarted | hended
    · cases hstarted
    · injection List.mem_singleton.mp hended
  prepared w target := by
    refine ⟨.refl w.handle, fun hw => hw.extend (.refl w.handle) rfl fun verdict hverdict => ?_⟩
    cases List.mem_singleton.mp hverdict
  built w level := upholds_of_log_eq (w.handle.continues_step (.built _)) rfl
  builtDecoder w := upholds_of_log_eq (w.handle.continues_step (.builtDecoder _)) rfl
  brokenOff w text := upholds_of_log_eq (w.handle.continues_step (.built (.panicked text))) rfl
  brokenOffDecoder w text :=
    upholds_of_log_eq (w.handle.continues_step (.builtDecoder (.panicked text))) rfl

/-- **A log is truthful**, whatever was asked of the dictionary. -/
theorem truthful_after (content : ByteArray) (isRaw : Bool) (demands : List Demand) :
    Truthful ((new content isRaw).after codecEngine.logged demands) := by
  have hupholds := respects_upholds.after
    (fun w => upholds_of_log_eq (w.handle.continues_step .prefixTaken) rfl) (new content isRaw)
    demands
  exact hupholds.2 fun _ hverdict => absurd hverdict List.not_mem_nil

/-- **A build is started only for content that the check lets pass.** -/
theorem checkFormat_of_buildStarted (content : ByteArray) (isRaw : Bool) (demands : List Demand)
    {target : BuildTarget} (hstarted : .buildStarted target
      ∈ ((new content isRaw).after codecEngine.logged demands).engine.2) :
    checkFormat content isRaw = .ok () := by
  obtain ⟨⟨-, hundisturbed, hlog⟩, -⟩ := follows_after codecEngine (new content isRaw) rfl demands
  have hvetted := Handle.vetted_run content isRaw _ hundisturbed
  have hsame := continues_after codecEngine.logged (new content isRaw) demands
  rcases hvetted.success_or_not_ofBuild with hsuccess | hbuilds
  · have hended : .checkEnded (.success ())
        ∈ ((new content isRaw).after codecEngine.logged demands).engine.2 := by
      rw [hlog]
      exact List.mem_append_right _ (List.mem_filter.mpr ⟨hsuccess, rfl⟩)
    have hverdict := truthful_after content isRaw demands _ hended
    rw [hsame.content, hsame.isRaw] at hverdict
    change _ = Verdict.ofExcept (checkFormat content isRaw) at hverdict
    rcases hcheck : checkFormat content isRaw with e | ⟨⟨⟩⟩
    · rw [hcheck] at hverdict
      cases hverdict
    · rfl
  · rw [hlog] at hstarted
    rcases List.mem_append.mp hstarted with hnone | hstarted
    · cases hnone
    · cases hbuilds _ (List.mem_of_mem_filter hstarted)

end LoggedDict

/-- **The accessors behind the format check agree.**  Whatever was asked before of a dictionary that is
not declared raw, either it grants what is asked of it behind the check or it denies that with one
error.  It grants exactly if its content meets all four requirements, and then both digests are made
from the tables that stand in the content.  It denies with the complaint about the first requirement
that is not met, and with nothing else.

The error of a digest that cannot be built is out of reach: a build that is started succeeds, for every
level and for the decoder. -/
theorem SharedDict.checked_accessors_agree (content : ByteArray) (demands : List Demand) :
    let w : SharedDict := (SharedDict.new content false).after codecEngine demands
    let logged := (LoggedDict.new content false).after codecEngine.logged demands
    w.handle.content = content
      ∧ (((∃ dict, w.Grants dict) ∨ ∃ e, w.Denies e)
        ∧ ((∃ dict, w.Grants dict) ↔ ∀ r, Meets content r)
        ∧ (∀ dict, w.Grants dict →
            ∃ t : Dictionary.Tables, t.StandIn content ∧ dict = t.loaded content)
        ∧ ∀ e, w.Denies e ↔
            ∃ r, IsFirstUnmet content r ∧ e = .badFormat (r.complaint content))
      ∧ logged.through Prod.fst = w
      ∧ ∀ target, .buildStarted target ∈ logged.engine.2 →
          ∃ dict, (∀ level, buildDigest content level = .ok ⟨level, dict⟩)
            ∧ buildDecoderDigest content = .ok ⟨dict⟩ := by
  intro w logged
  have hsame := continues_after codecEngine (SharedDict.new content false) demands
  have hcontent : w.handle.content = content := hsame.content
  have hw : Faithful w := (faithful_new content false).after demands
  have hcovered := after_covered (logged_covers codecEngine) (LoggedDict.new content false) demands
  refine ⟨hcontent, ?_, hcovered.symm, fun target hstarted => ?_⟩
  · rcases hw.grants_or_denies hcontent hsame.isRaw with
      ⟨hmet, t, hstands, hgrants⟩ | ⟨r, hunmet, hdenies⟩
    · refine ⟨.inl ⟨_, hgrants⟩, iff_of_true ⟨_, hgrants⟩ hmet,
        fun dict hdict => ⟨t, hstands, hdict.unique hgrants⟩, fun e => iff_of_false ?_ ?_⟩
      · exact hgrants.not_denies
      · rintro ⟨r, hunmet, -⟩
        exact hunmet.not_meets (hmet r)
    · have hnone : ∀ dict, ¬w.Grants dict := fun dict hgrants => hgrants.not_denies hdenies
      refine ⟨.inr ⟨_, hdenies⟩, iff_of_false (fun ⟨dict, hgrants⟩ => hnone dict hgrants)
        (fun hmet => hunmet.not_meets (hmet r)),
        fun dict hgrants => absurd hgrants (hnone dict), fun e => ⟨fun he => ?_, ?_⟩⟩
      · exact ⟨r, hunmet, he.unique hdenies⟩
      · rintro ⟨r', hunmet', rfl⟩
        rw [hunmet'.unique hunmet]
        exact hdenies
  · have hcheck := LoggedDict.checkFormat_of_buildStarted content false demands hstarted
    obtain ⟨-, hloaded⟩ := usable_iff_checkFormat.mpr hcheck
    obtain ⟨dict, hload⟩ := Option.isSome_iff_exists.mp hloaded
    refine ⟨dict, fun level => ?_, ?_⟩
    · rw [buildDigest, hload]
    · rw [buildDecoderDigest, hload]

end SharedDictionary
