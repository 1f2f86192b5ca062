import SharedDictionary.Proofs.Handle.Covering
import SharedDictionary.Proofs.Handle.Lifecycle

/-!
# Watching a handle from inside its builds

An engine sees the handle that it builds for, and so a handle can be looked at not only between
requests but while builds are pending.  `Engine.watched` is an engine that notes every handle it is
shown and otherwise does what it did before (`after_watched`).

Whatever it notes is a point of one run (`leads_after`).  So what holds at every point of every run
holds between requests and inside builds, however deep they nest: `lifecycle`.
-/

namespace SharedDictionary

variable {σ A D : Type}

/-- An engine that notes every handle it is shown while it builds, the latest first. -/
def Engine.watched (E : Engine σ A D) : Engine (σ × List (Handle A D)) A D where
  check state content isRaw :=
    ((E.check state.1 content isRaw).1, (E.check state.1 content isRaw).2, state.2)
  prepare state handle target :=
    ((E.prepare state.1 handle target).1, (E.prepare state.1 handle target).2, handle :: state.2)
  build state content level :=
    ((E.build state.1 content level).1, (E.build state.1 content level).2, state.2)
  buildDecoder state content :=
    ((E.buildDecoder state.1 content).1, (E.buildDecoder state.1 content).2, state.2)

/-- A world without the notes of its engine. -/
def World.unwatched (w : World (σ × List (Handle A D)) A D) : World σ A D := ⟨w.handle, w.engine.1⟩

theorem watched_covers (E : Engine σ A D) : E.watched.Covers Prod.fst E where
  check _ _ _ := rfl
  prepare _ _ _ := rfl
  build _ _ _ := rfl
  buildDecoder _ _ := rfl

/-- **A run of demands goes the same way with and without notes.** -/
theorem after_watched (E : Engine σ A D) (w : World (σ × List (Handle A D)) A D)
    (demands : List Demand) :
    w.unwatched.after E demands = (w.after E.watched demands).unwatched :=
  after_covered (watched_covers E) w demands

/-! ### What is noted is a point of one run -/

/-- A run leads from one world to another, and whatever is newly noted is a point of it. -/
def World.Leads (w w' : World (σ × List (Handle A D)) A D) : Prop :=
  ∃ inputs, w'.handle = w.handle.run inputs
    ∧ ∀ seen ∈ w'.engine.2, seen ∈ w.engine.2
      ∨ ∃ before, before <+: inputs ∧ seen = w.handle.run before

theorem respects_leads (E : Engine σ A D) : Respects E.watched World.Leads where
  refl _ := ⟨[], rfl, fun _ hseen => Or.inl hseen⟩
  trans := by
    rintro w w' w'' ⟨first, hfirst, hnoted⟩ ⟨second, hsecond, hnoted'⟩
    refine ⟨first ++ second, by rw [hsecond, hfirst, Handle.run_append], ?_⟩
    intro seen hseen
    rcases hnoted' seen hseen with hold | ⟨before, hbefore, rfl⟩
    · rcases hnoted seen hold with holder | ⟨before, hbefore, rfl⟩
      · exact Or.inl holder
      · exact Or.inr ⟨before, hbefore.trans (List.prefix_append first second), rfl⟩
    · refine Or.inr ⟨first ++ before, (List.prefix_append_right_inj first).mpr hbefore, ?_⟩
      rw [hfirst, Handle.run_append]
  call _ request := ⟨[.call request], rfl, fun _ hseen => Or.inl hseen⟩
  checked _ := ⟨[.checked _], rfl, fun _ hseen => Or.inl hseen⟩
  prepared w _ := by
    refine ⟨[], rfl, fun seen hseen => ?_⟩
    rcases List.mem_cons.mp hseen with rfl | hold
    · exact Or.inr ⟨[], List.prefix_rfl, rfl⟩
    · exact Or.inl hold
  built _ _ := ⟨[.built _], rfl, fun _ hseen => Or.inl hseen⟩
  builtDecoder _ := ⟨[.builtDecoder _], rfl, fun _ hseen => Or.inl hseen⟩
  brokenOff _ text := ⟨[.built (.panicked text)], rfl, fun _ hseen => Or.inl hseen⟩
  brokenOffDecoder _ text := ⟨[.builtDecoder (.panicked text)], rfl, fun _ hseen => Or.inl hseen⟩

/-- **Whatever is noted while demands are met is a point of the run that meets them.** -/
theorem leads_after (E : Engine σ A D) (w : World (σ × List (Handle A D)) A D)
    (demands : List Demand) : w.Leads (w.after E.watched demands) :=
  (respects_leads E).after (fun _ => ⟨[.prefixTaken], rfl, fun _ hseen => Or.inl hseen⟩) w demands

/-- **The lifecycle of digests.**  After every run of a new handle, a level shows as cached if a build
of it has succeeded, as materializing if a build of it is pending, and as absent otherwise; the
cached levels are listed in ascending order; and with each further input a level stays, or starts to
materialize, or is cached for good, or is absent again.  An absent level can always be cached, unless
the content was refused.

What demands do is such a run, whatever the engine, and an engine never sees a handle, however deep
in its builds, that is not a point of that run. -/
theorem Handle.lifecycle (content : ByteArray) (isRaw : Bool) :
    (∀ inputs : List (Handle.Input A D),
      ((Handle.new content isRaw).run inputs).Shows ((Handle.new content isRaw).Succeeded inputs)
      ∧ (∀ input level, Handle.Moves (((Handle.new content isRaw).run inputs).digestState level)
          (((Handle.new content isRaw).run (inputs ++ [input])).digestState level))
      ∧ (∀ later level, ((Handle.new content isRaw).run inputs).digestState level = .cached →
          ((Handle.new content isRaw).run (inputs ++ later)).digestState level = .cached)
      ∧ ∀ (level : Int32) (_ : A),
          ((Handle.new content isRaw).run inputs).digestState level = .absent →
          (∀ e, ((Handle.new content isRaw).run inputs).format ≠ some (.error e)) →
          ∃ later, ((Handle.new content isRaw).run (inputs ++ later)).digestState level = .cached)
    ∧ ∀ {σ : Type} (E : Engine σ A D) (state : σ) (demands : List Demand),
        (World.after E.watched ⟨.new content isRaw, state, []⟩ demands).unwatched
            = World.after E ⟨.new content isRaw, state⟩ demands
          ∧ ∃ inputs,
            (World.after E.watched ⟨.new content isRaw, state, []⟩ demands).handle
              = (Handle.new content isRaw).run inputs
            ∧ ∀ seen ∈ (World.after E.watched ⟨.new content isRaw, state, []⟩ demands).engine.2,
              ∃ before, before <+: inputs ∧ seen = (Handle.new content isRaw).run before := by
  constructor
  · intro inputs
    refine ⟨Handle.shows_run content isRaw inputs, ?_, ?_, ?_⟩
    · exact fun input level => Handle.moves_run content isRaw inputs input level
    · exact fun later level => Handle.cached_run content isRaw inputs later level
    · intro level value habsent hformat
      obtain ⟨later, hcached⟩ := Handle.exists_cached_of_absent _ habsent hformat value
      rw [← Handle.run_append] at hcached
      exact ⟨later, hcached⟩
  · intro σ E state demands
    obtain ⟨inputs, hrun, hnoted⟩ := leads_after E ⟨.new content isRaw, state, []⟩ demands
    refine ⟨(after_watched E _ demands).symm, inputs, hrun, fun seen hseen => ?_⟩
    rcases hnoted seen hseen with hold | hpoint
    · cases hold
    · exact hpoint

end SharedDictionary
