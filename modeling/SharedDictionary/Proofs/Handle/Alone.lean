import SharedDictionary.Proofs.Handle.BuildOnce
import SharedDictionary.Proofs.Handle.Lifecycle

/-!
# A handle as runners that take turns

A handle reacts to one input after the other, and its builds nest.  That is one of the ways in which
runners may interleave: every pending build is a runner of its own, numbered from the outermost, and
only the innermost moves.  So whatever happens to the slots of a handle happens to the places that
runners share (`exists_mirrors_run`), and what holds of every interleaving holds of a handle.
-/

namespace SharedDictionary

variable {A D : Type}

namespace Handle

/-- Where the runner of a pending build stands. -/
def standing (underway : List BuildTarget) (runner : Nat) : Activity (A ⊕ D) :=
  match underway with
  | [] => .idle
  | target :: rest => if runner = rest.length then .building target else standing rest runner

/-- There are as many runners as pending builds. -/
theorem standing_eq_idle {underway : List BuildTarget} {runner : Nat}
    (h : underway.length ≤ runner) : (standing underway runner : Activity (A ⊕ D)) = .idle := by
  induction underway with
  | nil => rfl
  | cons target rest ih =>
      rw [List.length_cons] at h
      rw [standing, if_neg (Nat.ne_of_gt h)]
      exact ih (Nat.le_of_succ_le h)

/-- When the innermost build ends, its runner is idle, and the others stand where they stood. -/
theorem standing_pop (target : BuildTarget) (rest : List BuildTarget) (runner : Nat) :
    (if runner = rest.length then .idle else standing (target :: rest) runner)
      = (standing rest runner : Activity (A ⊕ D)) := by
  split
  · rename_i heq
    exact (standing_eq_idle (Nat.le_of_eq heq.symm)).symm
  · rename_i hne
    rw [standing, if_neg hne]

/-- Runners share places that are as the slots of a handle are, and stand where its pending builds
are. -/
structure Mirrors (h : Handle A D) (s : Shared Nat (A ⊕ D)) : Prop where
  built : ∀ target, (s.place target).built = (h.slotAt target).built
  holder : ∀ target, (s.place target).holder.isSome = (h.slotAt target).building
  activity : ∀ runner, s.activity runner = standing h.underway runner
  nextStamp : s.nextStamp = h.nextStamp

theorem mirrors_new (content : ByteArray) (isRaw : Bool) :
    (new content isRaw : Handle A D).Mirrors .initial := by
  have hplace : ∀ target, (Shared.initial : Shared Nat (A ⊕ D)).place target = .vacant := by
    rintro (level | _) <;> rfl
  constructor
  · rintro (level | _) <;> rw [hplace] <;> rfl
  · rintro (level | _) <;> rw [hplace] <;> rfl
  · exact fun _ => rfl
  · rfl

variable {h h' : Handle A D} {s : Shared Nat (A ⊕ D)} {input : Input A D}

/-- Runners that have come to a place as the slot has become mirror the handle again. -/
private theorem Mirrors.of_lands (hm : h.Mirrors s) {s' : Shared Nat (A ⊕ D)} {runner : Nat}
    {activity : Activity (A ⊕ D)} {target : BuildTarget} {place : Place Nat (A ⊕ D)}
    {slot : Slot (A ⊕ D)} {occurrence : Occurrence Nat (A ⊕ D)}
    (hlands : s.Lands s' runner activity target place h'.nextStamp occurrence)
    (hslots : ∀ other, h'.slotAt other = if other = target then slot else h.slotAt other)
    (hbuilt : place.built = slot.built) (hholder : place.holder.isSome = slot.building)
    (hactivity : ∀ other, (if other = runner then activity else standing h.underway other)
      = standing h'.underway other) : h'.Mirrors s' := by
  constructor
  · intro other
    rw [hlands.place, hslots]
    split
    · exact hbuilt
    · exact hm.built other
  · intro other
    rw [hlands.place, hslots]
    split
    · exact hholder
    · exact hm.holder other
  · intro other
    rw [hlands.activity, hm.activity]
    exact hactivity other
  · exact hlands.nextStamp

/-- **Runners can follow every input of a handle.** -/
theorem Mirrors.step {succeeded : BuildTarget → Prop} (hm : h.Mirrors s)
    (hh : h.Consistent succeeded) (hchange : h.Change input h') :
    ∃ events, h'.Mirrors (s.run events) := by
  cases hchange with
  | quiet hslots hunderway hstamp =>
      refine ⟨[], ?_, ?_, ?_, ?_⟩
      · intro target
        rw [hslots]
        exact hm.built target
      · intro target
        rw [hslots]
        exact hm.holder target
      · intro runner
        rw [hunderway]
        exact hm.activity runner
      · exact hm.nextStamp.trans hstamp.symm
  | taken target hvacant hslots hunderway hstamp =>
      have hidle : s.activity h.underway.length = .idle :=
        (hm.activity _).trans (standing_eq_idle (Nat.le_refl _))
      have hbuilt : (s.place target).built = none := by
        rw [hm.built, hvacant]
        rfl
      have hfree : (s.place target).holder = none := by
        have hholder := hm.holder target
        rw [hvacant] at hholder
        exact Option.isSome_eq_false_iff.mp hholder |> Option.isNone_iff_eq_none.mp
      obtain ⟨events, -, hlands⟩ := Shared.comes_building_of_idle hidle rfl hbuilt hfree
      rw [hm.nextStamp, ← hstamp] at hlands
      refine ⟨events, hm.of_lands hlands hslots hbuilt rfl fun runner => ?_⟩
      rw [hunderway]
      rfl
  | released target hunderway hslots hstamp =>
      have hfrom : s.activity h'.underway.length = .building target := by
        rw [hm.activity, hunderway, standing, if_pos rfl]
      -- How the build has failed is of no account to the slots.
      obtain ⟨events, -, hlands⟩ := Shared.comes_released hfrom rfl (.state "")
      rw [hm.nextStamp, ← hstamp] at hlands
      refine ⟨events, hm.of_lands hlands hslots (hm.built target) rfl fun runner => ?_⟩
      rw [hunderway]
      exact standing_pop target h'.underway runner
  | built target value hunderway hslots hstamp =>
      have hfrom : s.activity h'.underway.length = .building target := by
        rw [hm.activity, hunderway, standing, if_pos rfl]
      have hbuilt : (s.place target).built = none := by
        rw [hm.built]
        exact hh.unbuilt target (hunderway ▸ List.mem_cons_self)
      obtain ⟨events, -, hlands⟩ := Shared.comes_built hfrom rfl hbuilt value
      rw [hm.nextStamp, ← hstamp] at hlands
      refine ⟨events, hm.of_lands hlands hslots rfl rfl fun runner => ?_⟩
      rw [hunderway]
      exact standing_pop target h'.underway runner

/-- **Every run of a handle is an interleaving of runners.** -/
theorem exists_mirrors_run (content : ByteArray) (isRaw : Bool) (inputs : List (Input A D)) :
    ∃ events, ((new content isRaw).run inputs).Mirrors (Shared.initial.run events) := by
  induction inputs using List.reverseRecOn with
  | nil => exact ⟨[], mirrors_new content isRaw⟩
  | append_singleton inputs input ih =>
      obtain ⟨events, hm⟩ := ih
      rw [run_concat]
      obtain ⟨events', hm'⟩ := hm.step (consistent_run content isRaw inputs) (step_change _ input)
      rw [← Shared.run_append] at hm'
      exact ⟨events ++ events', hm'⟩

/-- **Two slots of a handle hold the same artifact only if they are one.** -/
theorem eq_of_stamp_eq (content : ByteArray) (isRaw : Bool) (inputs : List (Input A D))
    {target other : BuildTarget} {artifact artifact' : Built (A ⊕ D)}
    (hbuilt : (((new content isRaw).run inputs).slotAt target).built = some artifact)
    (hbuilt' : (((new content isRaw).run inputs).slotAt other).built = some artifact')
    (hstamp : artifact.stamp = artifact'.stamp) : target = other := by
  obtain ⟨events, hm⟩ := exists_mirrors_run content isRaw inputs
  rw [← hm.built] at hbuilt hbuilt'
  exact (Shared.sound_run events).stamp_inj target artifact other artifact' (Or.inl hbuilt)
    (Or.inl hbuilt') hstamp

end Handle

end SharedDictionary
