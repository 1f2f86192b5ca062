import Mathlib.Data.List.Induction
import SharedDictionary.Proofs.Handle.Runs

/-!
# The lifecycle of an artifact

Whatever reaches a handle, in whatever order, the state of a level can be read off the run alone: a
level is cached if a build of it has succeeded, materializing if a build of it is on the stack of
pending calls, and absent otherwise.  A state is not stored anywhere, and a slot that a failed build
has left looks like none at all, so this needs an invariant (`Consistent`).

What an input can do to the slots is said once, in `step_change`: nothing, take a vacant slot,
release a slot, or fill it.  The invariant and the history of successful builds follow it case by
case.  The slot of the decoder is one of them; only its state is not shown.

The main results are `shows_run`, `moves_run` and `cached_run`.
-/

namespace SharedDictionary

variable {σ A D : Type}

/-- The target that a request asks for. -/
def Request.target? : Request → Option BuildTarget
  | .digested level => some (.level level)
  | .undigested => none
  | .decoder => some .decoder

namespace Handle

/-! ### What an input does to the slots -/

/-- The targets whose builds are pending, the innermost first. -/
def underway (h : Handle A D) : List BuildTarget := h.pending.filterMap (·.request.target?)

/-- An input ends the topmost build, of a target, with success. -/
inductive Completes (h : Handle A D) (input : Input A D) : BuildTarget → Prop
  | digest (level : Int32) (value : A) (rest : List Pending)
      (hinput : input = .built (.success value))
      (hpending : h.pending = ⟨.digested level, .building⟩ :: rest) : Completes h input (.level level)
  | decoder (value : D) (rest : List Pending)
      (hinput : input = .builtDecoder (.success value))
      (hpending : h.pending = ⟨.decoder, .building⟩ :: rest) : Completes h input .decoder

/-- What an input may do to the slots and to the builds that are pending. -/
inductive Change (h : Handle A D) (input : Input A D) (h' : Handle A D) : Prop
  /-- Nothing. -/
  | quiet (hslots : ∀ other, h'.slotAt other = h.slotAt other)
      (hunderway : h'.underway = h.underway) (hstamp : h'.nextStamp = h.nextStamp)
      (hnone : ∀ other, ¬h.Completes input other)
  /-- A build starts, which takes the slot of its target. -/
  | taken (target : BuildTarget) (hvacant : h.slotAt target = .vacant)
      (hslots : ∀ other, h'.slotAt other = if other = target then ⟨none, true⟩ else h.slotAt other)
      (hunderway : h'.underway = target :: h.underway) (hstamp : h'.nextStamp = h.nextStamp)
      (hnone : ∀ other, ¬h.Completes input other)
  /-- The innermost build ends without an artifact. -/
  | released (target : BuildTarget) (hunderway : h.underway = target :: h'.underway)
      (hslots : ∀ other, h'.slotAt other
        = if other = target then { h.slotAt target with building := false } else h.slotAt other)
      (hstamp : h'.nextStamp = h.nextStamp) (hnone : ∀ other, ¬h.Completes input other)
  /-- The innermost build succeeds. -/
  | built (target : BuildTarget) (value : A ⊕ D) (hunderway : h.underway = target :: h'.underway)
      (hslots : ∀ other, h'.slotAt other
        = if other = target then ⟨some ⟨value, h.nextStamp⟩, false⟩ else h.slotAt other)
      (hstamp : h'.nextStamp = h.nextStamp + 1) (hcompletes : h.Completes input target)

theorem slotAt_release (h : Handle A D) (level : Int32) (other : BuildTarget) :
    (h.release level).slotAt other
      = if other = .level level then { h.slotAt (.level level) with building := false }
        else h.slotAt other :=
  h.slotAt_setSlot level _ other

theorem slotAt_releaseDecoder (h : Handle A D) (other : BuildTarget) :
    h.releaseDecoder.slotAt other
      = if other = .decoder then { h.slotAt .decoder with building := false }
        else h.slotAt other :=
  h.slotAt_decoder _ other

/-- A slot that is taken and released at once is vacant again. -/
private theorem slotAt_restored {h h' h'' : Handle A D} {target : BuildTarget}
    (hvacant : h.slotAt target = .vacant)
    (htaken : ∀ other, h'.slotAt other = if other = target then ⟨none, true⟩ else h.slotAt other)
    (hreleased : ∀ other, h''.slotAt other
      = if other = target then { h'.slotAt target with building := false } else h'.slotAt other)
    (other : BuildTarget) : h''.slotAt other = h.slotAt other := by
  rw [hreleased, htaken, htaken, if_pos rfl]
  by_cases hother : other = target
  · rw [if_pos hother, hother, hvacant]
    rfl
  · rw [if_neg hother, if_neg hother]

/-- Only the success of a build completes anything. -/
private theorem not_completes {h : Handle A D} {input : Input A D}
    (hdigest : ∀ value, input ≠ .built (.success value))
    (hdecoder : ∀ value, input ≠ .builtDecoder (.success value)) (other : BuildTarget) :
    ¬h.Completes input other := by
  rintro (⟨_, value, _, hinput, -⟩ | ⟨value, _, hinput, -⟩)
  · exact hdigest value hinput
  · exact hdecoder value hinput

/-- A request whose slot is taken waits for the engine, unless the content was refused before: then
it releases the slot. -/
private theorem ensureFormat_of_target? (h : Handle A D) {request : Request} {target : BuildTarget}
    (htarget : request.target? = some target) :
    (h.ensureFormat request).1.nextStamp = h.nextStamp
      ∧ (((∀ other, (h.ensureFormat request).1.slotAt other = h.slotAt other)
          ∧ (h.ensureFormat request).1.underway = target :: h.underway)
        ∨ ((∀ other, (h.ensureFormat request).1.slotAt other
            = if other = target then { h.slotAt target with building := false }
              else h.slotAt other)
          ∧ (h.ensureFormat request).1.underway = h.underway)) := by
  unfold ensureFormat
  cases request with
  | undigested => cases htarget
  | digested level =>
      cases htarget
      split
      · exact ⟨rfl, Or.inl ⟨fun _ => rfl, rfl⟩⟩
      · exact ⟨rfl, Or.inr ⟨h.slotAt_release level, rfl⟩⟩
      · exact ⟨rfl, Or.inl ⟨fun _ => rfl, rfl⟩⟩
  | decoder =>
      cases htarget
      split
      · exact ⟨rfl, Or.inl ⟨fun _ => rfl, rfl⟩⟩
      · exact ⟨rfl, Or.inr ⟨h.slotAt_releaseDecoder, rfl⟩⟩
      · exact ⟨rfl, Or.inl ⟨fun _ => rfl, rfl⟩⟩

/-- A request that takes a vacant slot keeps it, or leaves it vacant. -/
private theorem change_ensureFormat {h taken : Handle A D} {request : Request}
    {target : BuildTarget} (htarget : request.target? = some target)
    (hvacant : h.slotAt target = .vacant)
    (htaken : ∀ other, taken.slotAt other = if other = target then ⟨none, true⟩ else h.slotAt other)
    (hunderway : taken.underway = h.underway) (hstamp : taken.nextStamp = h.nextStamp)
    (hnone : ∀ other, ¬h.Completes (.call request) other) :
    h.Change (.call request) (taken.ensureFormat request).1 := by
  obtain ⟨hkept, ⟨hslots, hwaiting⟩ | ⟨hslots, hreturned⟩⟩ := taken.ensureFormat_of_target? htarget
  · refine .taken target hvacant (fun other => ?_) ?_ (hkept.trans hstamp) hnone
    · rw [hslots, htaken]
    · rw [hwaiting, hunderway]
  · refine .quiet (fun other => ?_) ?_ (hkept.trans hstamp) hnone
    · exact slotAt_restored hvacant htaken hslots other
    · rw [hreturned, hunderway]

/-- A request takes a vacant slot or changes none. -/
private theorem change_call (h : Handle A D) (request : Request) :
    h.Change (.call request) (h.call request).1 := by
  have hnone : ∀ other, ¬h.Completes (.call request) other :=
    not_completes (fun _ hinput => by cases hinput) (fun _ hinput => by cases hinput)
  cases request with
  | undigested =>
      unfold call ensureFormat
      dsimp only
      split <;> exact .quiet (fun _ => rfl) rfl rfl hnone
  | decoder =>
      rcases hslot : h.decoder with ⟨_ | artifact, building⟩
      · cases building with
        | true =>
            rw [h.call_decoder_of_building hslot]
            exact .quiet (fun _ => rfl) rfl rfl hnone
        | false =>
            rw [h.call_decoder_of_vacant hslot]
            have hvacant : h.slotAt .decoder = .vacant := by
              rw [slotAt, hslot]
              rfl
            exact change_ensureFormat rfl hvacant (h.slotAt_decoder ⟨none, true⟩) rfl rfl hnone
      · rw [h.call_decoder_of_built (by rw [hslot])]
        exact .quiet (fun _ => rfl) rfl rfl hnone
  | digested level =>
      rcases hslot : h.slotOf level with ⟨_ | artifact, building⟩
      · cases building with
        | true =>
            rw [h.call_digested_of_building hslot]
            exact .quiet (fun _ => rfl) rfl rfl hnone
        | false =>
            rw [h.call_digested_of_vacant hslot]
            have hvacant : h.slotAt (.level level) = .vacant := by
              rw [slotAt, hslot]
              rfl
            exact change_ensureFormat rfl hvacant (h.slotAt_setSlot level ⟨none, true⟩) rfl rfl hnone
      · rw [h.call_digested_of_built (by rw [hslot])]
        exact .quiet (fun _ => rfl) rfl rfl hnone

/-- The answer of a format check lets a build go on, or ends it. -/
private theorem change_answerCheck (h : Handle A D) (verdict : Verdict Unit) :
    h.Change (.checked verdict) (h.answerCheck verdict).1 := by
  have hnone : ∀ other, ¬h.Completes (.checked verdict) other :=
    not_completes (fun _ hinput => by cases hinput) (fun _ hinput => by cases hinput)
  unfold answerCheck
  split
  · rename_i request rest hpending
    have hunderway : h.underway = ((⟨request, .checking⟩ : Pending) :: rest).filterMap
        (·.request.target?) := by
      rw [underway, hpending]
    cases request with
    | digested level =>
        cases verdict with
        | success _ => exact .quiet (fun _ => rfl) hunderway.symm rfl hnone
        | failed e =>
            exact .released (.level level) hunderway (h.slotAt_release level) rfl hnone
        | panicked text =>
            exact .released (.level level) hunderway (h.slotAt_release level) rfl hnone
    | decoder =>
        cases verdict with
        | success _ => exact .quiet (fun _ => rfl) hunderway.symm rfl hnone
        | failed e => exact .released .decoder hunderway h.slotAt_releaseDecoder rfl hnone
        | panicked text => exact .released .decoder hunderway h.slotAt_releaseDecoder rfl hnone
    | undigested => cases verdict <;> exact .quiet (fun _ => rfl) hunderway.symm rfl hnone
  · exact .quiet (fun _ => rfl) rfl rfl hnone

/-- The answer of a build fills the slot of its level, or releases it. -/
private theorem change_answerBuild (h : Handle A D) (verdict : Verdict A) :
    h.Change (.built verdict) (h.answerBuild verdict).1 := by
  unfold answerBuild
  split
  · rename_i level rest hpending
    have hunderway : h.underway = .level level :: rest.filterMap (·.request.target?) := by
      rw [underway, hpending]
      rfl
    cases verdict with
    | success value =>
        exact .built (.level level) (.inl value) hunderway
          (h.slotAt_setSlot level ⟨some ⟨value, h.nextStamp⟩, false⟩) rfl
          (.digest level value rest rfl hpending)
    | failed e =>
        exact .released (.level level) hunderway (h.slotAt_release level) rfl
          (not_completes (fun _ hinput => by cases hinput) (fun _ hinput => by cases hinput))
    | panicked text =>
        exact .released (.level level) hunderway (h.slotAt_release level) rfl
          (not_completes (fun _ hinput => by cases hinput) (fun _ hinput => by cases hinput))
  · rename_i hpending
    apply Change.quiet (fun _ => rfl) rfl rfl
    rintro other (⟨level, value, rest, -, htop⟩ | ⟨value, rest, hinput, -⟩)
    · exact hpending level rest htop
    · cases hinput

/-- The answer of the decoder's build fills its slot, or releases it. -/
private theorem change_answerDecoder (h : Handle A D) (verdict : Verdict D) :
    h.Change (.builtDecoder verdict) (h.answerDecoder verdict).1 := by
  unfold answerDecoder
  split
  · rename_i rest hpending
    have hunderway : h.underway = .decoder :: rest.filterMap (·.request.target?) := by
      rw [underway, hpending]
      rfl
    cases verdict with
    | success value =>
        exact .built .decoder (.inr value) hunderway
          (h.slotAt_decoder ⟨some ⟨value, h.nextStamp⟩, false⟩) rfl
          (.decoder value rest rfl hpending)
    | failed e =>
        exact .released .decoder hunderway h.slotAt_releaseDecoder rfl
          (not_completes (fun _ hinput => by cases hinput) (fun _ hinput => by cases hinput))
    | panicked text =>
        exact .released .decoder hunderway h.slotAt_releaseDecoder rfl
          (not_completes (fun _ hinput => by cases hinput) (fun _ hinput => by cases hinput))
  · rename_i hpending
    apply Change.quiet (fun _ => rfl) rfl rfl
    rintro other (⟨level, value, rest, hinput, -⟩ | ⟨value, rest, -, htop⟩)
    · cases hinput
    · exact hpending rest htop

/-- **What an input does to the slots.** -/
theorem step_change (h : Handle A D) (input : Input A D) : h.Change input (h.step input) := by
  cases input with
  | call request => exact h.change_call request
  | checked verdict => exact h.change_answerCheck verdict
  | built verdict => exact h.change_answerBuild verdict
  | builtDecoder verdict => exact h.change_answerDecoder verdict
  | prefixTaken =>
      refine .quiet (fun _ => rfl) rfl rfl (not_completes ?_ ?_) <;>
        exact fun _ hinput => by cases hinput

/-! ### What a run has done -/

/-- A run has completed a build of a target. -/
def Succeeded (h : Handle A D) (inputs : List (Input A D)) (target : BuildTarget) : Prop :=
  ∃ before input after, inputs = before ++ input :: after ∧ (h.run before).Completes input target

theorem not_succeeded_nil (h : Handle A D) (target : BuildTarget) : ¬h.Succeeded [] target := by
  rintro ⟨before, input, after, hsplit, -⟩
  cases before <;> cases hsplit

/-- One more input completes what was completed before and what it completes itself. -/
theorem succeeded_concat (h : Handle A D) (inputs : List (Input A D)) (input : Input A D)
    (target : BuildTarget) :
    h.Succeeded (inputs ++ [input]) target
      ↔ h.Succeeded inputs target ∨ (h.run inputs).Completes input target := by
  constructor
  · rintro ⟨before, found, after, hsplit, hcompletes⟩
    rcases List.eq_nil_or_concat after with rfl | ⟨after, last, rfl⟩
    · obtain ⟨rfl, hlast⟩ := List.append_inj' hsplit rfl
      cases hlast
      exact Or.inr hcompletes
    · have hsplit : inputs ++ [input] = (before ++ found :: after) ++ [last] := by
        rw [hsplit, List.concat_eq_append, List.append_assoc, List.cons_append]
      obtain ⟨rfl, -⟩ := List.append_inj' hsplit rfl
      exact Or.inl ⟨before, found, after, rfl, hcompletes⟩
  · rintro (⟨before, found, after, rfl, hcompletes⟩ | hcompletes)
    · exact ⟨before, found, after ++ [input], by simp, hcompletes⟩
    · exact ⟨inputs, input, [], rfl, hcompletes⟩

/-- An input completes a build of at most one target. -/
theorem Completes.unique {h : Handle A D} {input : Input A D} {target other : BuildTarget}
    (htarget : h.Completes input target) (hother : h.Completes input other) : other = target := by
  cases htarget with
  | digest level value rest hinput hpending =>
      cases hother with
      | digest level' value' rest' hinput' hpending' =>
          rw [hpending] at hpending'
          cases hpending'
          rfl
      | decoder value' rest' hinput' =>
          rw [hinput] at hinput'
          cases hinput'
  | decoder value rest hinput hpending =>
      cases hother with
      | digest level' value' rest' hinput' =>
          rw [hinput] at hinput'
          cases hinput'
      | decoder => rfl

/-! ### The invariant -/

/-- The slots and the stack agree: each pending build holds the slot of its target, a slot that is
held has no artifact yet, and there is an artifact exactly where a build has succeeded. -/
structure Consistent (h : Handle A D) (succeeded : BuildTarget → Prop) : Prop where
  nodup : h.underway.Nodup
  building : ∀ target, (h.slotAt target).building = true ↔ target ∈ h.underway
  unbuilt : ∀ target, target ∈ h.underway → (h.slotAt target).built = none
  built : ∀ target, (h.slotAt target).built.isSome ↔ succeeded target

theorem consistent_new (content : ByteArray) (isRaw : Bool) :
    (new content isRaw : Handle A D).Consistent
      ((new content isRaw : Handle A D).Succeeded []) := by
  have hvacant : ∀ target, (new content isRaw : Handle A D).slotAt target = .vacant := by
    intro target
    cases target <;> rfl
  constructor
  · exact List.nodup_nil
  · intro target
    rw [hvacant]
    exact iff_of_false Bool.false_ne_true List.not_mem_nil
  · intro target hmem
    cases hmem
  · intro target
    rw [hvacant]
    exact iff_of_false Bool.false_ne_true (not_succeeded_nil _ target)

variable {h h' : Handle A D} {input : Input A D} {succeeded : BuildTarget → Prop}

/-- Without a completed build, nothing more has succeeded. -/
private theorem or_completes_iff (hnone : ∀ target, ¬h.Completes input target)
    (target : BuildTarget) : succeeded target ∨ h.Completes input target ↔ succeeded target :=
  or_iff_left (hnone target)

/-- The innermost build ends and frees the slot of its target. -/
private theorem Consistent.next_of_popped {succeeded' : BuildTarget → Prop}
    (hh : h.Consistent succeeded) {target : BuildTarget} {freed : Slot (A ⊕ D)}
    (hunderway : h.underway = target :: h'.underway)
    (hslots : ∀ other, h'.slotAt other = if other = target then freed else h.slotAt other)
    (hfreed : freed.building = false)
    (hbuilt : ∀ other, (h'.slotAt other).built.isSome ↔ succeeded' other) :
    h'.Consistent succeeded' := by
  have hstack := hh.nodup
  rw [hunderway, List.nodup_cons] at hstack
  obtain ⟨hgone, hnodup⟩ := hstack
  refine ⟨hnodup, ?_, ?_, hbuilt⟩
  · intro other
    rw [hslots]
    by_cases hother : other = target
    · rw [if_pos hother, hother, hfreed]
      exact iff_of_false Bool.false_ne_true hgone
    · rw [if_neg hother, hh.building, hunderway, List.mem_cons, or_iff_right hother]
  · intro other hmem
    -- The stack held the target once, so whatever is still on it is another one.
    have hother : other ≠ target := fun heq => hgone (heq ▸ hmem)
    rw [hslots, if_neg hother]
    exact hh.unbuilt other (hunderway ▸ List.mem_cons_of_mem target hmem)

/-- **Every input keeps the slots and the stack in agreement.** -/
theorem Consistent.step (hh : h.Consistent succeeded) (hchange : h.Change input h') :
    h'.Consistent fun target => succeeded target ∨ h.Completes input target := by
  cases hchange with
  | quiet hslots hunderway hstamp hnone =>
      constructor
      · rw [hunderway]
        exact hh.nodup
      · intro target
        rw [hslots, hunderway]
        exact hh.building target
      · intro target hmem
        rw [hunderway] at hmem
        rw [hslots]
        exact hh.unbuilt target hmem
      · intro target
        rw [hslots, or_completes_iff hnone]
        exact hh.built target
  | taken target hvacant hslots hunderway hstamp hnone =>
      -- A vacant slot is not held, so its target is not on the stack yet.
      have hnew : target ∉ h.underway := by
        rw [← hh.building, hvacant]
        exact Bool.false_ne_true
      constructor
      · rw [hunderway]
        exact List.nodup_cons.mpr ⟨hnew, hh.nodup⟩
      · intro other
        rw [hslots, hunderway, List.mem_cons]
        by_cases hother : other = target
        · rw [if_pos hother]
          exact iff_of_true rfl (Or.inl hother)
        · rw [if_neg hother, hh.building, or_iff_right hother]
      · intro other hmem
        rw [hslots]
        by_cases hother : other = target
        · rw [if_pos hother]
        · rw [hunderway] at hmem
          rw [if_neg hother]
          exact hh.unbuilt other (List.mem_of_ne_of_mem hother hmem)
      · intro other
        rw [hslots, or_completes_iff hnone, ← hh.built]
        by_cases hother : other = target
        · rw [if_pos hother, hother, hvacant]
          rfl
        · rw [if_neg hother]
  | released target hunderway hslots hstamp hnone =>
      refine hh.next_of_popped hunderway hslots rfl fun other => ?_
      rw [hslots, or_completes_iff hnone, ← hh.built]
      by_cases hother : other = target
      · rw [if_pos hother, hother]
      · rw [if_neg hother]
  | built target value hunderway hslots hstamp hcompletes =>
      refine hh.next_of_popped hunderway hslots rfl fun other => ?_
      rw [hslots]
      by_cases hother : other = target
      · rw [if_pos hother, hother]
        exact iff_of_true rfl (Or.inr hcompletes)
      · rw [if_neg hother, hh.built]
        exact (or_iff_left fun hagain => hother (hcompletes.unique hagain)).symm

/-- **In every run from a new handle, the slots and the stack agree.** -/
theorem consistent_run (content : ByteArray) (isRaw : Bool) (inputs : List (Input A D)) :
    ((new content isRaw).run inputs).Consistent ((new content isRaw).Succeeded inputs) := by
  induction inputs using List.reverseRecOn with
  | nil => exact consistent_new content isRaw
  | append_singleton inputs input ih =>
      rw [run_concat]
      have hnext := ih.step (step_change _ input)
      have hsame : (new content isRaw).Succeeded (inputs ++ [input]) = fun target =>
          (new content isRaw).Succeeded inputs target
            ∨ ((new content isRaw).run inputs).Completes input target := by
        funext target
        exact propext (succeeded_concat _ inputs input target)
      rw [hsame]
      exact hnext

/-! ### What a handle shows -/

/-- A handle shows of which levels a build has succeeded, and of which one is pending. -/
structure Shows (h : Handle A D) (succeeded : BuildTarget → Prop) : Prop where
  cached : ∀ level, h.digestState level = .cached ↔ succeeded (.level level)
  materializing : ∀ level, h.digestState level = .materializing ↔ .level level ∈ h.underway
  absent : ∀ level, h.digestState level = .absent
    ↔ ¬succeeded (.level level) ∧ .level level ∉ h.underway
  ascending : h.cachedLevels.Pairwise (· < ·)
  mem_cachedLevels : ∀ level, level ∈ h.cachedLevels ↔ h.digestState level = .cached

/-- Where every level has at most one slot, the levels that are listed as cached are. -/
theorem mem_cachedLevels_iff (hdistinct : h.Distinct) (level : Int32) :
    level ∈ h.cachedLevels ↔ (h.slotOf level).built.isSome := by
  unfold cachedLevels
  rw [List.mem_mergeSort, List.mem_map]
  constructor
  · rintro ⟨⟨other, slot⟩, hmem, rfl⟩
    obtain ⟨hslot, hbuilt⟩ := List.mem_filter.mp hmem
    rw [slotOf, (mem_slots_iff hdistinct).mp hslot]
    exact hbuilt
  · intro hbuilt
    rcases hslot : h.slot? level with _ | slot
    · rw [slotOf, hslot] at hbuilt
      cases hbuilt
    · rw [slotOf, hslot] at hbuilt
      exact ⟨(level, slot), List.mem_filter.mpr ⟨(mem_slots_iff hdistinct).mpr hslot, hbuilt⟩, rfl⟩

/-- Where every level has at most one slot, none is listed twice. -/
theorem pairwise_cachedLevels (hdistinct : h.Distinct) : h.cachedLevels.Pairwise (· < ·) := by
  have hsorted : h.cachedLevels.Pairwise fun a b => decide (a ≤ b) = true := by
    apply List.pairwise_mergeSort
    · intro a b c hab hbc
      exact decide_eq_true (Int32.le_trans (of_decide_eq_true hab) (of_decide_eq_true hbc))
    · intro a b
      rcases Int32.le_total a b with hab | hba
      · rw [decide_eq_true hab, Bool.true_or]
      · rw [decide_eq_true hba, Bool.or_true]
  have hnodup : h.cachedLevels.Nodup := by
    refine (List.mergeSort_perm _ _).nodup_iff.mpr ?_
    exact List.Nodup.sublist (List.filter_sublist.map _) hdistinct
  exact (hsorted.and hnodup).imp fun hpair =>
    Int32.lt_of_le_of_ne (of_decide_eq_true hpair.1) hpair.2

/-- **Where slots and stack agree, a handle shows them.** -/
theorem Consistent.shows (hh : h.Consistent succeeded) (hdistinct : h.Distinct) :
    h.Shows succeeded where
  cached level := by
    rw [digestState_eq, Slot.state_eq_cached_iff]
    exact hh.built (.level level)
  materializing level := by
    rw [digestState_eq, Slot.state_eq_materializing_iff, hh.building]
    exact and_iff_right_of_imp (hh.unbuilt (.level level))
  absent level := by
    rw [digestState_eq, Slot.state_eq_absent_iff, ← hh.built, ← hh.building, Bool.not_eq_true,
      Bool.not_eq_true, Option.isSome_eq_false_iff, Option.isNone_iff_eq_none]
  ascending := pairwise_cachedLevels hdistinct
  mem_cachedLevels level := by
    rw [mem_cachedLevels_iff hdistinct, digestState_eq, Slot.state_eq_cached_iff, slotAt,
      Slot.isSome_built_map]

theorem shows_run (content : ByteArray) (isRaw : Bool) (inputs : List (Input A D)) :
    ((new content isRaw).run inputs).Shows ((new content isRaw).Succeeded inputs) :=
  (consistent_run content isRaw inputs).shows ((continues_run _ inputs).distinct List.nodup_nil)

/-- A build of level 3 asks for level 5, which is cached, and then breaks off. -/
example :
    let h : Handle Nat Nat := (new ByteArray.empty true).run [.call (.digested 3),
      .checked (.success ()), .call (.digested 5), .built (.success 0), .built (.panicked "")]
    (h.digestState 3, h.digestState 5) = (.absent, .cached) := rfl

/-! ### How levels move -/

/-- The moves that a level makes. -/
inductive Moves : DigestState → DigestState → Prop
  | stays (state : DigestState) : Moves state state
  | starts : Moves .absent .materializing
  | succeeds : Moves .materializing .cached
  | ends : Moves .materializing .absent

/-- The slot of a pending build materializes. -/
private theorem Consistent.state_of_mem (hh : h.Consistent succeeded) {target : BuildTarget}
    (hpending : target ∈ h.underway) : (h.slotAt target).state = .materializing := by
  rw [Slot.state_eq_materializing_iff]
  exact ⟨hh.unbuilt target hpending, (hh.building target).mpr hpending⟩

/-- **Where slots and stack agree, an input moves every level as it may move.** -/
theorem Consistent.moves (hh : h.Consistent succeeded) (hchange : h.Change input h')
    (level : Int32) : Moves (h.digestState level) (h'.digestState level) := by
  rw [digestState_eq, digestState_eq]
  cases hchange with
  | quiet hslots =>
      rw [hslots]
      exact .stays _
  | taken target hvacant hslots =>
      rw [hslots]
      split
      · rename_i hlevel
        rw [hlevel, hvacant]
        exact .starts
      · exact .stays _
  | released target hunderway hslots =>
      rw [hslots]
      split
      · rename_i hlevel
        have hpending : target ∈ h.underway := hunderway ▸ List.mem_cons_self
        have hnext : ({ h.slotAt target with building := false } : Slot (A ⊕ D)).state
            = .absent := by
          rw [Slot.state_eq_absent_iff]
          exact ⟨hh.unbuilt target hpending, rfl⟩
        rw [hlevel, hh.state_of_mem hpending, hnext]
        exact .ends
      · exact .stays _
  | built target value hunderway hslots =>
      rw [hslots]
      split
      · rename_i hlevel
        have hpending : target ∈ h.underway := hunderway ▸ List.mem_cons_self
        rw [hlevel, hh.state_of_mem hpending]
        exact .succeeds
      · exact .stays _

/-- A level that is cached moves no more. -/
theorem Moves.eq_cached {state : DigestState} (hmove : Moves .cached state) : state = .cached := by
  cases hmove
  rfl

theorem moves_run (content : ByteArray) (isRaw : Bool) (inputs : List (Input A D))
    (input : Input A D) (level : Int32) :
    Moves (((new content isRaw).run inputs).digestState level)
      (((new content isRaw).run (inputs ++ [input])).digestState level) := by
  rw [run_concat]
  exact (consistent_run content isRaw inputs).moves (step_change _ input) level

/-- **What is cached stays cached.** -/
theorem cached_run (content : ByteArray) (isRaw : Bool) (inputs later : List (Input A D))
    (level : Int32) (hcached : ((new content isRaw).run inputs).digestState level = .cached) :
    ((new content isRaw).run (inputs ++ later)).digestState level = .cached := by
  induction later using List.reverseRecOn with
  | nil =>
      rw [List.append_nil]
      exact hcached
  | append_singleton later input ih =>
      have hmove := moves_run content isRaw (inputs ++ later) input level
      rw [ih] at hmove
      rw [← List.append_assoc]
      exact hmove.eq_cached

/-- The success of the topmost build caches its level. -/
theorem digestState_built {level : Int32} {rest : List Pending}
    (hpending : h.pending = ⟨.digested level, .building⟩ :: rest) (value : A) :
    (h.step (.built (.success value))).digestState level = .cached := by
  have hslot : (h.step (.built (.success value))).slotAt (.level level)
      = (Slot.map Sum.inl ⟨some ⟨value, h.nextStamp⟩, false⟩ : Slot (A ⊕ D)) := by
    simp only [step, answerBuild, hpending]
    exact (slotAt_setSlot _ level _ _).trans (if_pos rfl)
  rw [digestState_eq, hslot]
  rfl

/-- **An absent level can be cached**, unless the content was refused. -/
theorem exists_cached_of_absent (h : Handle A D) {level : Int32}
    (habsent : h.digestState level = .absent) (hformat : ∀ e, h.format ≠ some (.error e))
    (value : A) : ∃ later, (h.run later).digestState level = .cached := by
  have hvacant : h.slotOf level = .vacant := by
    rw [digestState_eq, Slot.state_eq_absent_iff] at habsent
    obtain ⟨hbuilt, hbuilding⟩ := habsent
    rcases hslot : h.slotOf level with ⟨_ | artifact, building⟩
    · rw [slotAt, hslot] at hbuilding
      cases hbuilding
      rfl
    · rw [slotAt, hslot] at hbuilt
      cases hbuilt
  have hcall : h.step (.call (.digested level))
      = ((h.setSlot level ⟨none, true⟩).ensureFormat (.digested level)).1 :=
    congrArg Prod.fst (h.call_digested_of_vacant hvacant)
  rcases hknown : h.format with _ | ⟨e | ⟨⟩⟩
  · -- The engine is asked about the format first.
    have hchecking : (h.step (.call (.digested level))).pending
        = ⟨.digested level, .checking⟩ :: h.pending := by
      rw [hcall]
      simp only [ensureFormat, setSlot, hknown]
      rfl
    have hpending : ((h.step (.call (.digested level))).step (.checked (.success ()))).pending
        = ⟨.digested level, .building⟩ :: h.pending := by
      simp only [step, answerCheck] at hchecking ⊢
      rw [hchecking]
      rfl
    exact ⟨[.call (.digested level), .checked (.success ()), .built (.success value)],
      digestState_built hpending value⟩
  · exact absurd hknown (hformat e)
  · have hpending : (h.step (.call (.digested level))).pending
        = ⟨.digested level, .building⟩ :: h.pending := by
      rw [hcall]
      simp only [ensureFormat, setSlot, hknown]
      rfl
    exact ⟨[.call (.digested level), .built (.success value)], digestState_built hpending value⟩

end Handle

end SharedDictionary
