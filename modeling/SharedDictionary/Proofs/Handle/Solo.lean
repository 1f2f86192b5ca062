import SharedDictionary.Proofs.Handle.Moves

/-!
# A runner that moves alone

While the others stand still, a runner that is on its way to an open place comes to build
(`comes_building`), and a runner that builds comes to return, with what it has built (`comes_built`)
or without (`comes_released`).
-/

namespace SharedDictionary

variable {τ α : Type}

/-- The runner that an event moves. -/
def Event.runner : Event τ α → τ
  | .ask runner _ => runner
  | .advance runner => runner
  | .finish runner _ => runner

namespace Shared

variable [DecidableEq τ]

/-- A runner has come to stand elsewhere and one place has changed, while something happened. -/
structure Lands (s s' : Shared τ α) (runner : τ) (activity : Activity α) (target : BuildTarget)
    (place : Place τ α) (stamp : Nat) (occurrence : Occurrence τ α) : Prop where
  activity : ∀ other, s'.activity other = if other = runner then activity else s.activity other
  place : ∀ other, s'.place other = if other = target then place else s.place other
  nextStamp : s'.nextStamp = stamp
  journal : occurrence ∈ s'.journal

/-- A runner, moving alone, comes to stand elsewhere. -/
def Comes (s : Shared τ α) (runner : τ) (activity : Activity α) (target : BuildTarget)
    (place : Place τ α) (stamp : Nat) (occurrence : Occurrence τ α) : Prop :=
  ∃ events, (∀ event ∈ events, event.runner = runner)
    ∧ s.Lands (s.run events) runner activity target place stamp occurrence

variable {s : Shared τ α} {runner : τ} {target : BuildTarget}
variable {activity activity' : Activity α} {place place' : Place τ α} {stamp stamp' : Nat}
variable {occurrence occurrence' : Occurrence τ α} {happened : List (Occurrence τ α)}

theorem run_append (s : Shared τ α) (first second : List (Event τ α)) :
    s.run (first ++ second) = (s.run first).run second := List.foldl_append

/-- One event of the runner takes it there. -/
theorem Comes.of_event (event : Event τ α) (hrunner : event.runner = runner)
    (h : s.Changes (s.step event) runner activity target place happened)
    (hstamp : (s.step event).nextStamp = stamp) (hmem : occurrence ∈ happened) :
    s.Comes runner activity target place stamp occurrence := by
  refine ⟨[event], ?_, h.activity, h.place, hstamp, ?_⟩
  · intro other hother
    rw [List.mem_singleton.mp hother]
    exact hrunner
  · show occurrence ∈ (s.step event).journal
    rw [h.journal]
    exact List.mem_append_left _ hmem

/-- Where a runner comes after an event of its own, it comes before. -/
theorem Comes.of_step (event : Event τ α) (hrunner : event.runner = runner)
    (h : s.Changes (s.step event) runner activity target place happened)
    (hnext : (s.step event).Comes runner activity' target place' stamp occurrence) :
    s.Comes runner activity' target place' stamp occurrence := by
  obtain ⟨events, hevents, hlands⟩ := hnext
  refine ⟨event :: events, ?_, ?_, ?_, hlands.nextStamp, hlands.journal⟩
  · intro other hother
    rcases List.mem_cons.mp hother with rfl | hother
    · exact hrunner
    · exact hevents other hother
  · intro other
    show ((s.step event).run events).activity other = _
    rw [hlands.activity, h.activity]
    split <;> rfl
  · intro other
    show ((s.step event).run events).place other = _
    rw [hlands.place, h.place]
    split <;> rfl

/-- A runner that comes to stand somewhere comes wherever it comes from there. -/
theorem Comes.trans (first : s.Comes runner activity target place stamp occurrence)
    (second : ∀ s', s.Lands s' runner activity target place stamp occurrence →
      s'.Comes runner activity' target place' stamp' occurrence') :
    s.Comes runner activity' target place' stamp' occurrence' := by
  obtain ⟨events, hevents, hlands⟩ := first
  obtain ⟨events', hevents', hlands'⟩ := second _ hlands
  rw [← run_append] at hlands'
  refine ⟨events ++ events', ?_, ?_, ?_, hlands'.nextStamp, hlands'.journal⟩
  · intro event hmem
    rcases List.mem_append.mp hmem with hmem | hmem
    · exact hevents event hmem
    · exact hevents' event hmem
  · intro other
    rw [hlands'.activity, hlands.activity]
    split <;> rfl
  · intro other
    rw [hlands'.place, hlands.place]
    split <;> rfl

/-! ### Coming to build -/

theorem comes_building_of_rereading (hfrom : s.activity runner = .rereading target)
    (hplace : s.place target = place) (hbuilt : place.built = none) :
    s.Comes runner (.building target) target place s.nextStamp (.started runner target) := by
  have hstep : s.step (.advance runner)
      = (s.turn runner (.building target)).note (.started runner target) := by
    simp only [step, advance, hfrom, hplace, hbuilt]
  have hchanges := (s.changes_turn runner (.building target) target).note (.started runner target)
  rw [← hstep, hplace] at hchanges
  exact .of_event (.advance runner) rfl hchanges (s.nextStamp_advance runner) List.mem_cons_self

theorem comes_building_of_waiting (hfrom : s.activity runner = .waiting target)
    (hplace : s.place target = place) (hbuilt : place.built = none) (hfree : place.holder = none) :
    s.Comes runner (.building target) target { place with holder := some runner } s.nextStamp
      (.started runner target) := by
  have hstep : s.step (.advance runner)
      = (s.setPlace target { place with holder := some runner }).turn runner
        (.rereading target) := by
    simp only [step, advance, hfrom, hplace, hfree]
  have hchanges := s.changes_setPlace runner (.rereading target) target
    { place with holder := some runner }
  rw [← hstep] at hchanges
  have hnext := comes_building_of_rereading hchanges.activity_self hchanges.place_self hbuilt
  rw [step, nextStamp_advance] at hnext
  exact .of_step (.advance runner) rfl hchanges hnext

theorem comes_building_of_reading (hfrom : s.activity runner = .reading target)
    (hplace : s.place target = place) (hbuilt : place.built = none) (hfree : place.holder = none) :
    s.Comes runner (.building target) target { place with holder := some runner } s.nextStamp
      (.started runner target) := by
  have hstep : s.step (.advance runner) = s.turn runner (.waiting target) := by
    simp only [step, advance, hfrom, hplace, hbuilt]
  have hchanges := s.changes_turn runner (.waiting target) target
  rw [← hstep, hplace] at hchanges
  have hnext := comes_building_of_waiting hchanges.activity_self hchanges.place_self hbuilt hfree
  rw [step, nextStamp_advance] at hnext
  exact .of_step (.advance runner) rfl hchanges hnext

theorem comes_building_of_finding (hfrom : s.activity runner = .finding target)
    (hplace : s.place target = place) (hbuilt : place.built = none) (hfree : place.holder = none) :
    s.Comes runner (.building target) target { place with holder := some runner } s.nextStamp
      (.started runner target) := by
  have hstep : s.step (.advance runner)
      = (s.setPlace target place).turn runner (.reading target) := by
    simp only [step, advance, hfrom, hplace]
  have hchanges := s.changes_setPlace runner (.reading target) target place
  rw [← hstep] at hchanges
  have hnext := comes_building_of_reading hchanges.activity_self hchanges.place_self hbuilt hfree
  rw [step, nextStamp_advance] at hnext
  exact .of_step (.advance runner) rfl hchanges hnext

theorem comes_building_of_idle (hfrom : s.activity runner = .idle)
    (hplace : s.place target = place) (hbuilt : place.built = none) (hfree : place.holder = none) :
    s.Comes runner (.building target) target { place with holder := some runner } s.nextStamp
      (.started runner target) := by
  have hstep : s.step (.ask runner target) = s.turn runner (.entering target) := by
    simp only [step, hfrom]
  have hchanges := s.changes_turn runner (.entering target) target
  rw [← hstep, hplace] at hchanges
  have hstamp : (s.step (.ask runner target)).nextStamp = s.nextStamp := by
    rw [hstep]
    rfl
  refine .of_step (.ask runner target) rfl hchanges ?_
  rw [← hstamp]
  cases target with
  | level level =>
      exact comes_building_of_finding hchanges.activity_self hchanges.place_self hbuilt hfree
  | decoder =>
      exact comes_building_of_reading hchanges.activity_self hchanges.place_self hbuilt hfree

/-- **Where nothing is built and the lock is free, whoever has not taken it yet comes to build.** -/
theorem comes_building (hplace : s.place target = place) (hbuilt : place.built = none)
    (hfree : place.holder = none) (hheld : (s.activity runner).held? = none)
    (htarget : ∀ other, (s.activity runner).target? = some other → other = target) :
    s.Comes runner (.building target) target { place with holder := some runner } s.nextStamp
      (.started runner target) := by
  cases hfrom : s.activity runner with
  | idle => exact comes_building_of_idle hfrom hplace hbuilt hfree
  | finding other =>
      rw [hfrom] at htarget
      cases htarget other rfl
      exact comes_building_of_finding hfrom hplace hbuilt hfree
  | reading other =>
      rw [hfrom] at htarget
      cases htarget other rfl
      exact comes_building_of_reading hfrom hplace hbuilt hfree
  | waiting other =>
      rw [hfrom] at htarget
      cases htarget other rfl
      exact comes_building_of_waiting hfrom hplace hbuilt hfree
  | rereading other =>
      rw [hfrom] at hheld
      cases hheld
  | building other =>
      rw [hfrom] at hheld
      cases hheld
  | publishing other artifact =>
      rw [hfrom] at hheld
      cases hheld
  | releasing other outcome =>
      rw [hfrom] at hheld
      cases hheld

/-! ### Coming to return -/

theorem step_finish_failed (hfrom : s.activity runner = .building target) (e : DictError) :
    s.step (.finish runner (.failed e))
      = (s.turn runner (.releasing target (.failed e))).note (.ended runner target false) := by
  simp only [step, finish, hfrom]

theorem step_finish_panicked (hfrom : s.activity runner = .building target) (text : String) :
    s.step (.finish runner (.panicked text))
      = (s.turn runner (.releasing target (.panicked text))).note (.ended runner target false) := by
  simp only [step, finish, hfrom]

theorem comes_idle_of_releasing {outcome : Outcome α}
    (hfrom : s.activity runner = .releasing target outcome) (hplace : s.place target = place) :
    s.Comes runner .idle target ⟨place.built, none, place.poisoned || outcome.isPanic⟩ s.nextStamp
      (.returned runner target outcome) := by
  have hstep : s.step (.advance runner)
      = (s.setPlace target ⟨place.built, none, place.poisoned || outcome.isPanic⟩).reply runner
        target outcome := by
    simp only [step, advance, hfrom, hplace]
  have hchanges : s.Changes (s.step (.advance runner)) runner .idle target
      ⟨place.built, none, place.poisoned || outcome.isPanic⟩
      [.returned runner target outcome] := by
    rw [hstep]
    exact (s.changes_setPlace runner .idle target _).note (.returned runner target outcome)
  exact .of_event (.advance runner) rfl hchanges (s.nextStamp_advance runner) List.mem_cons_self

theorem comes_built_of_publishing {artifact : Built α}
    (hfrom : s.activity runner = .publishing target artifact) (hplace : s.place target = place)
    (hbuilt : place.built = none) :
    s.Comes runner .idle target ⟨some artifact, none, place.poisoned⟩ s.nextStamp
      (.returned runner target (.returned artifact true)) := by
  have hstep : s.step (.advance runner)
      = (s.setPlace target { place with built := some artifact }).turn runner
        (.releasing target (.returned artifact true)) := by
    simp only [step, advance, hfrom, hplace, hbuilt, Option.getD_none]
  have hchanges := s.changes_setPlace runner (.releasing target (.returned artifact true)) target
    { place with built := some artifact }
  rw [← hstep] at hchanges
  have hnext := comes_idle_of_releasing hchanges.activity_self hchanges.place_self
  have hcalm : (Outcome.returned artifact true).isPanic = false := rfl
  rw [step, nextStamp_advance, hcalm, Bool.or_false] at hnext
  exact .of_step (.advance runner) rfl hchanges hnext

/-- **A runner whose build succeeds comes to return what it has built.** -/
theorem comes_built (hfrom : s.activity runner = .building target)
    (hplace : s.place target = place) (hbuilt : place.built = none) (value : α) :
    s.Comes runner .idle target ⟨some ⟨value, s.nextStamp⟩, none, place.poisoned⟩
      (s.nextStamp + 1) (.returned runner target (.returned ⟨value, s.nextStamp⟩ true)) := by
  have hstep : s.step (.finish runner (.success value))
      = ({ s with nextStamp := s.nextStamp + 1 }.turn runner
          (.publishing target ⟨value, s.nextStamp⟩)).note (.ended runner target true) := by
    simp only [step, finish, hfrom]
  have hturn := s.changes_turn runner (.publishing target ⟨value, s.nextStamp⟩) target
  have hchanges : s.Changes (s.step (.finish runner (.success value))) runner
      (.publishing target ⟨value, s.nextStamp⟩) target place [.ended runner target true] := by
    rw [hstep, ← hplace]
    exact ⟨hturn.activity, hturn.place, rfl, Nat.le_succ _⟩
  have hstamp : (s.step (.finish runner (.success value))).nextStamp = s.nextStamp + 1 := by
    rw [hstep]
    rfl
  refine .of_step (.finish runner (.success value)) rfl hchanges ?_
  rw [← hstamp]
  exact comes_built_of_publishing hchanges.activity_self hchanges.place_self hbuilt

/-- **A runner whose build fails comes to return without an artifact.** -/
theorem comes_released (hfrom : s.activity runner = .building target)
    (hplace : s.place target = place) (e : DictError) :
    s.Comes runner .idle target { place with holder := none } s.nextStamp
      (.returned runner target (.failed e)) := by
  have hstep := step_finish_failed hfrom e
  have hchanges := (s.changes_turn runner (.releasing target (.failed e)) target).note
    (.ended runner target false)
  rw [← hstep, hplace] at hchanges
  have hstamp : (s.step (.finish runner (.failed e))).nextStamp = s.nextStamp := by
    rw [hstep]
    rfl
  refine .of_step (.finish runner (.failed e)) rfl hchanges ?_
  have hnext := comes_idle_of_releasing hchanges.activity_self hchanges.place_self
  have hcalm : (Outcome.failed e : Outcome α).isPanic = false := rfl
  rw [hstamp, hcalm, Bool.or_false] at hnext
  exact hnext

end Shared

end SharedDictionary
