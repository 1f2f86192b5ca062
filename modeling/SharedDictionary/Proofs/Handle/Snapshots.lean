import Mathlib
import SharedDictionary.Proofs.Handle.Publication

/-!
# What a snapshot shows while others build

A snapshot is not taken at one moment.  The levels that are cached are looked at first, slot by slot, and then
the counters are read.  What it shows lies between what there was when the call began and what there is when
it returns (`Threads.Between`).  It is sane when nothing was published in the meantime and nobody owed a count
when the call began.  Otherwise a level can be seen that was not counted yet
(`Threads.snapshot_not_sane`).

The main result is `Threads.snapshot_between`.
-/

namespace SharedDictionary

variable {τ α : Type}

namespace Threads

/-! ### What only grows -/

/-- All that is cached stays so, and counts of builds go up. -/
structure Grows (before now : Threads τ α) : Prop where
  cached : ∀ level, before.isCached level = true → now.isCached level = true
  counted : before.counters.digestsBuilt ≤ now.counters.digestsBuilt

theorem Grows.refl (s : Threads τ α) : s.Grows s := ⟨fun _ h => h, UInt64.le_refl _⟩

theorem Grows.trans {s s' s'' : Threads τ α} (h : s.Grows s') (h' : s'.Grows s'') : s.Grows s'' :=
  ⟨fun level hlevel => h'.cached level (h.cached level hlevel), UInt64.le_trans h.counted h'.counted⟩

theorem Books.grows_apply {s : Threads τ α} (hs : s.Books) (thread : τ) (effect : Effect α) :
    s.Grows (s.apply thread effect) where
  cached level hlevel := (isCached_apply s thread effect level).mpr (.inr hlevel)
  counted := by
    rw [UInt64.le_iff_toNat_le, hs.digestsBuilt_step]
    exact Nat.le_add_right _ _

/-! ### What is gathered -/

/-- Of the levels that were cached before, those that are not left were found; and what was found is
cached. -/
structure Sighted (before now : Threads τ α) (found left : List Int32) : Prop where
  nodup : (found ++ left).Nodup
  cached : ∀ level ∈ found, now.isCached level = true
  complete : ∀ level, before.isCached level = true → level ∈ found ++ left

/-- What a snapshot shows lies between what there was before and what there is now. -/
structure Between (before now : Threads τ α) (snapshot : Snapshot) : Prop where
  ascending : snapshot.cachedLevels.Pairwise (· < ·)
  cached : ∀ level ∈ snapshot.cachedLevels, now.isCached level = true
  complete : ∀ level, before.isCached level = true → level ∈ snapshot.cachedLevels
  counted : before.counters.digestsBuilt ≤ snapshot.counters.digestsBuilt
    ∧ snapshot.counters.digestsBuilt ≤ now.counters.digestsBuilt

/-- What a thread has gathered for a snapshot where it stands. -/
def Gathers (before now : Threads τ α) : Station α → Prop
  | .surveying _ left found => Sighted before now found left
  | .copying levels seen left => levels.Pairwise (· < ·) ∧ Sighted before now levels []
      ∧ (.digestBuilt ∉ left → before.counters.digestsBuilt ≤ seen.digestsBuilt
          ∧ seen.digestsBuilt ≤ now.counters.digestsBuilt)
  | _ => True

/-- What a thread has gathered after a step. -/
def GathersNext (before now : Threads τ α) : Next α → Prop
  | .goes station => Gathers before now station
  | .returns (.snapshot snapshot) => Between before now snapshot
  | _ => True

section Gathers

variable {before now now' : Threads τ α}

theorem Sighted.grow {found left : List Int32} (h : Sighted before now found left) (hgrows : now.Grows now') :
    Sighted before now' found left :=
  ⟨h.nodup, fun level hlevel => hgrows.cached level (h.cached level hlevel), h.complete⟩

theorem Gathers.grow {station : Station α} (h : Gathers before now station) (hgrows : now.Grows now') :
    Gathers before now' station := by
  cases station with
  | surveying counters left found => exact Sighted.grow h hgrows
  | copying levels seen left =>
      obtain ⟨hascending, hsighted, hcounted⟩ := h
      exact ⟨hascending, hsighted.grow hgrows,
        fun hread => ⟨(hcounted hread).1, UInt64.le_trans (hcounted hread).2 hgrows.counted⟩⟩
  | _ => trivial

/-- All slots are left to be looked at. -/
theorem sighted_keys (hnow : now.Books) (hgrows : before.Grows now) : Sighted before now [] now.keys :=
  ⟨hnow.nodup, nofun, fun level hlevel => hnow.listed level (hgrows.cached level hlevel)⟩

/-- A slot is looked at. -/
theorem Sighted.visit {found left : List Int32} (h : Sighted before now found left)
    (hgrows : before.Grows now) {level : Int32} (hlevel : level ∈ left) :
    Sighted before now (if now.isCached level then level :: found else found) (left.erase level) := by
  have hperm : (found ++ left).Perm (level :: (found ++ left.erase level)) :=
    ((List.perm_cons_erase hlevel).append_left found).trans List.perm_middle
  have hnodup := hperm.nodup_iff.mp h.nodup
  split
  · refine ⟨hnodup, fun other hother => ?_, fun other hother => hperm.mem_iff.mp (h.complete other hother)⟩
    rcases List.mem_cons.mp hother with rfl | hother
    · assumption
    · exact h.cached other hother
  · refine ⟨(List.nodup_cons.mp hnodup).2, h.cached, fun other hother => ?_⟩
    refine (List.mem_cons.mp (hperm.mem_iff.mp (h.complete other hother))).resolve_left ?_
    rintro rfl
    exact ‹¬ now.isCached _ = true› (hgrows.cached _ hother)

/-- The levels that were found, in order, are the levels of the snapshot. -/
theorem Sighted.sorted {found : List Int32} (h : Sighted before now found []) :
    (found.mergeSort fun a b => decide (a ≤ b)).Pairwise (· < ·)
      ∧ Sighted before now (found.mergeSort fun a b => decide (a ≤ b)) [] := by
  have hperm : (found.mergeSort fun a b => decide (a ≤ b)).Perm found := List.mergeSort_perm _ _
  have hsorted : (found.mergeSort fun a b => decide (a ≤ b)).Pairwise fun a b => decide (a ≤ b) = true := by
    refine List.pairwise_mergeSort (fun a b c hab hbc => ?_) (fun a b => ?_) found
    · exact decide_eq_true (Int32.le_trans (of_decide_eq_true hab) (of_decide_eq_true hbc))
    · rcases Int32.le_total a b with hle | hle <;> simp [hle]
  have hnodup : found.Nodup := by
    have := h.nodup
    rwa [List.append_nil] at this
  refine ⟨?_, ?_, fun level hlevel => h.cached level (hperm.mem_iff.mp hlevel), fun level hlevel => ?_⟩
  · refine (hsorted.and (hperm.nodup_iff.mpr hnodup)).imp fun hle => ?_
    exact Int32.lt_of_le_of_ne (of_decide_eq_true hle.1) hle.2
  · rw [List.append_nil]
    exact hperm.nodup_iff.mpr hnodup
  · have hfound := h.complete level hlevel
    rw [List.append_nil] at hfound ⊢
    exact hperm.mem_iff.mpr hfound

/-- A counter is read, the one of builds or another. -/
theorem digestsBuilt_load (seen c : Counters) (event : CounterEvent) :
    (seen.load c event).digestsBuilt
      = if event = .digestBuilt then c.digestsBuilt else seen.digestsBuilt := by
  cases event <;> rfl

theorem gathersNext_afterCheck (target? : Option BuildTarget) (verdict : Verdict Unit) :
    GathersNext before now (afterCheck target? verdict : Next α) := by
  cases target? <;> cases verdict <;> trivial

theorem gathersNext_taking? {resource : Resource} {station : Station α} {effect : Effect α} {next : Next α}
    (h : now.taking? resource station = some (effect, next)) (hstation : Gathers before now station) :
    GathersNext before now next := by
  rw [taking?] at h
  split at h <;> cases h
  exact hstation

theorem gathersNext_advance? (hnow : now.Books) (hgrows : before.Grows now) {station : Station α}
    {effect : Effect α} {next : Next α} (h : now.advance? station = some (effect, next))
    (hstation : Gathers before now station) : GathersNext before now next := by
  cases station with
  | inside errand =>
      cases errand with
      | list counters =>
          cases h
          exact sighted_keys hnow hgrows
      | slot level =>
          cases h
          trivial
      | look level =>
          cases h
          split <;> trivial
  | surveying counters left found =>
      cases left with
      | nil =>
          cases h
          split
          · obtain ⟨hascending, hsighted⟩ := Sighted.sorted hstation
            exact ⟨hascending, hsighted, fun hread => absurd (by decide) hread⟩
          · trivial
      | cons level left => cases h
  | copying levels seen left =>
      obtain ⟨hascending, hsighted, hcounted⟩ := hstation
      cases left with
      | nil =>
          cases h
          refine ⟨hascending, hsighted.cached, fun level hlevel => ?_, hcounted nofun⟩
          exact List.append_nil levels ▸ hsighted.complete level hlevel
      | cons event left =>
          cases h
          refine ⟨hascending, hsighted, fun hread => ?_⟩
          rw [digestsBuilt_load]
          split
          · exact ⟨hgrows.counted, UInt64.le_refl _⟩
          · exact hcounted fun hmem => (List.mem_cons.mp hmem).elim (fun h => ‹event ≠ _› h.symm) hread
  | entering errand | waiting target => exact gathersNext_taking? h trivial
  | ensuring target? =>
      rw [advance?] at h
      split at h
      · cases h
        exact gathersNext_afterCheck target? _
      · exact gathersNext_taking? h trivial
  | reading target | rereading target =>
      rw [advance?] at h
      split at h <;> cases h <;> trivial
  | glancing level =>
      cases h
      split <;> trivial
  | trying level =>
      rw [advance?, taking?] at h
      split at h <;> cases h <;> trivial
  | _ => cases h <;> trivial

/-- **A step towards a snapshot** gathers what lies between before and now. -/
theorem gathersNext_plan? (hnow : now.Books) (hgrows : before.Grows now) {nests : BuildTarget → Int32 → Bool}
    {station : Station α} {event : ThreadEvent α} {effect : Effect α} {next : Next α}
    (h : now.plan? nests station event = some (effect, next)) (hstation : Gathers before now station) :
    GathersNext before now next := by
  unfold plan? at h
  split at h
  · rename_i call
    cases h
    cases call with
    | request request => cases request <;> trivial
    | _ => trivial
  · exact gathersNext_advance? hnow hgrows h hstation
  · split at h <;> cases h
    exact Sighted.visit hstation hgrows ‹_›
  · cases h
    exact gathersNext_afterCheck _ _
  · split at h <;> cases h
    trivial
  · rename_i target verdict
    cases verdict <;> cases h <;> trivial
  · cases h

end Gathers

/-! ### Runs -/

theorem answers_apply (s : Threads τ α) (thread : τ) (effect : Effect α) :
    (s.apply thread effect).answers = s.answers := by
  cases effect <;> rfl

variable [DecidableEq τ]

/-- What is answered is what a call returns. -/
theorem exists_plan?_of_answers {nests : BuildTarget → Int32 → Bool} {s : Threads τ α} {thread : τ}
    {event : ThreadEvent α} {answer : Answer α}
    (h : (s.step nests thread event).answers = (thread, answer) :: s.answers) :
    ∃ effect, s.plan? nests (s.thread thread).station event = some (effect, .returns answer) := by
  rcases s.step_cases nests thread event with hsame | ⟨effect, next, hplan, hstep⟩
  · rw [hsame] at h
    exact absurd h.symm (List.cons_ne_self _ _)
  · rw [hstep] at h
    replace h : (s.apply thread effect).answered thread next = (thread, answer) :: s.answers := h
    have hother : (s.apply thread effect).answers ≠ (thread, answer) :: s.answers := by
      rw [answers_apply]
      exact (List.cons_ne_self _ _).symm
    unfold answered at h
    split at h
    · split at h
      · obtain ⟨-, hsame⟩ := Prod.mk.inj (List.cons.inj h).1
        exact ⟨effect, hsame ▸ hplan⟩
      · exact absurd h hother
    · exact absurd h hother

theorem Books.grows_step {s : Threads τ α} (hs : s.Books) (nests : BuildTarget → Int32 → Bool) (thread : τ)
    (event : ThreadEvent α) : s.Grows (s.step nests thread event) := by
  rcases s.step_cases nests thread event with hsame | ⟨effect, next, -, hstep⟩
  · rw [hsame]
    exact .refl s
  · rw [hstep]
    exact ⟨(hs.grows_apply thread effect).cached, (hs.grows_apply thread effect).counted⟩

omit [DecidableEq τ] in
theorem Gathers.follow {before now : Threads τ α} {x : Thread α} {next : Next α}
    (h : GathersNext before now next) : Gathers before now (x.follow next).station := by
  cases next with
  | goes station => exact h
  | calls target level => trivial
  | returns answer =>
      rw [Thread.follow]
      cases x.pending <;> trivial

/-- What a thread has gathered stays right with what any thread does. -/
theorem Gathers.step {before now : Threads τ α} (hnow : now.Books) (hgrows : before.Grows now) {thread : τ}
    (h : Gathers before now (now.thread thread).station) (nests : BuildTarget → Int32 → Bool) (other : τ)
    (event : ThreadEvent α) :
    Gathers before (now.step nests other event) ((now.step nests other event).thread thread).station := by
  refine Gathers.grow ?_ (hnow.grows_step nests other event)
  rcases now.step_cases nests other event with hsame | ⟨effect, next, hplan, hstep⟩
  · rwa [hsame]
  · rw [hstep, thread_move, thread_apply]
    split
    · subst other
      exact Gathers.follow (gathersNext_plan? hnow hgrows hplan h)
    · exact h

theorem Gathers.run {before now : Threads τ α} (howned : now.Owned) (hnow : now.Books)
    (hgrows : before.Grows now) {thread : τ} (h : Gathers before now (now.thread thread).station)
    (nests : BuildTarget → Int32 → Bool) (events : List (τ × ThreadEvent α)) :
    before.Grows (now.run nests events)
      ∧ Gathers before (now.run nests events) ((now.run nests events).thread thread).station := by
  induction events generalizing now with
  | nil => exact ⟨hgrows, h⟩
  | cons event events ih =>
      exact ih (howned.step nests event.1 event.2) (hnow.step howned nests event.1 event.2)
        (hgrows.trans (hnow.grows_step nests event.1 event.2)) (h.step hnow hgrows nests event.1 event.2)

omit [DecidableEq τ] in
/-- What lies between two moments is sane if all that was published was counted at the first, and nothing was
published since. -/
theorem Between.isSane {before now : Threads τ α} {snapshot : Snapshot} (h : Between before now snapshot)
    (hbefore : before.Books) (hnow : now.Books)
    (howes : ∀ thread, (before.thread thread).station.owes = false)
    (hsame : ∀ level, now.isCached level = true → before.isCached level = true) :
    snapshot.isSane = true := by
  have hnodup : snapshot.cachedLevels.Nodup := h.ascending.imp fun hlt => Int32.ne_of_lt hlt
  have hfirst : snapshot.cachedLevels.length = before.cached.length :=
    hbefore.length_eq hnodup fun level =>
      ⟨fun hlevel => hsame level (h.cached level hlevel), h.complete level⟩
  have hlast : snapshot.cachedLevels.length = now.cached.length :=
    hnow.length_eq hnodup fun level =>
      ⟨h.cached level, fun hlevel => h.complete level (hsame level hlevel)⟩
  obtain ⟨debtors, hdebtors, hbalance⟩ := hbefore.balance
  have hempty : debtors = ∅ := Finset.eq_empty_of_forall_notMem fun thread hthread => by
    cases ((hdebtors thread).mp hthread).symm.trans (howes thread)
  rw [hempty, Finset.card_empty] at hbalance
  have hsmall := length_cached_le hbefore.nodup
  have hleast := UInt64.le_iff_toNat_le.mp h.counted.1
  have hmost := UInt64.le_iff_toNat_le.mp h.counted.2
  have hcounted := hnow.digestsBuilt_le
  rw [Snapshot.isSane, beq_iff_eq, ← UInt64.toNat_inj, UInt64.toNat_ofNat', Nat.mod_eq_of_lt (by omega)]
  omega

/-- **What a snapshot shows.**  Any number of threads use one handle, and one of them is idle.  Every snapshot
that it gets later shows, in ascending order, all levels that were cached before, and none that is not cached
when it is returned; and the count of builds that it shows lies in between, too.  It is sane if nobody owed a
count before, and nothing was published since. -/
theorem snapshot_between (nests : BuildTarget → Int32 → Bool) (content : ByteArray) (isRaw : Bool)
    (earlier later : List (τ × ThreadEvent α)) (thread : τ) (event : ThreadEvent α) (snapshot : Snapshot) :
    let before := (initial content isRaw).run nests earlier
    let now := before.run nests later
    (before.thread thread).station = .idle →
      (now.step nests thread event).answers = (thread, .snapshot snapshot) :: now.answers →
        Between before now snapshot
          ∧ ((∀ other, (before.thread other).station.owes = false) →
              (∀ level, now.isCached level = true → before.isCached level = true) →
                snapshot.isSane = true) := by
  intro before now hidle hanswer
  have howned : before.Owned := (owned_initial content isRaw).run nests earlier
  have hbefore : before.Books := (books_initial content isRaw).run (owned_initial content isRaw) nests earlier
  have hnow : now.Books := hbefore.run howned nests later
  have hnothing : Gathers before before (before.thread thread).station := by
    rw [hidle]
    trivial
  obtain ⟨hgrows, hgathers⟩ := hnothing.run howned hbefore (.refl before) nests later
  obtain ⟨effect, hplan⟩ := exists_plan?_of_answers hanswer
  have hbetween : Between before now snapshot := gathersNext_plan? hnow hgrows hplan hgathers
  exact ⟨hbetween, hbetween.isSane hbefore hnow⟩

/-! ### Two threads -/

/-- The first thread builds level 3 and publishes it. -/
def publication : List (Bool × ThreadEvent Unit) :=
  (true, .ask (.request (.digested 3))) :: .replicate 7 (true, .advance)
    ++ [(true, .answer (.success ())), (true, .finish (.success ())), (true, .advance)]

/-- The second thread asks for a snapshot, and is about to get it. -/
def sighting : List (Bool × ThreadEvent Unit) :=
  (false, .ask .telemetry) :: .replicate 2 (false, .advance)
    ++ (false, .visit 3) :: .replicate 8 (false, .advance)

/-- A snapshot of level 3. -/
def sight (digestsBuilt : UInt64) : Snapshot :=
  ⟨0, 0, true, [3], { Counters.zero with formatChecks := 1, digestsBuilt }⟩

/-- The first thread has counted level 3, too. -/
def settled : Threads Bool Unit :=
  (initial .empty true).run (fun _ _ => false) (publication ++ .replicate 2 (true, .advance))

/-- The second thread is about to get its snapshot. -/
def sighted : Threads Bool Unit := settled.run (fun _ _ => false) sighting

/-- Level 3 was built, published and counted before the second thread asks. -/
theorem snapshot_between_settled :
    (settled.thread false).station = .idle
      ∧ (sighted.step (fun _ _ => false) false .advance).answers
          = (false, .snapshot (sight 1)) :: sighted.answers
      ∧ Between settled sighted (sight 1) ∧ (sight 1).isSane = true := by
  have hidle : (settled.thread false).station = .idle := by cbv
  have hanswer : (sighted.step (fun _ _ => false) false .advance).answers
      = (false, .snapshot (sight 1)) :: sighted.answers := by
    cbv
  have howes : ∀ other, (settled.thread other).station.owes = false := by
    intro other
    cases other <;> cbv
  have hcached : sighted.isCached = settled.isCached := by cbv
  have hshown := snapshot_between (fun _ _ => false) .empty true
    (publication ++ .replicate 2 (true, .advance)) sighting false .advance (sight 1)
  obtain ⟨hbetween, hsane⟩ := hshown hidle hanswer
  exact ⟨hidle, hanswer, hbetween, hsane howes fun level hlevel => hcached ▸ hlevel⟩

/-- **Not every snapshot is sane.**  The second thread asks when the first has published level 3, and has not
counted it yet.  So it sees a level, and no build. -/
theorem snapshot_not_sane :
    ¬ ∀ (content : ByteArray) (isRaw : Bool) (events : List (Bool × ThreadEvent Unit)) (thread : Bool)
        (snapshot : Snapshot),
      (thread, .snapshot snapshot) ∈ ((initial content isRaw).run (fun _ _ => false) events).answers →
        snapshot.isSane = true := by
  intro hall
  have hanswers : ((initial .empty true).run (fun _ _ => false)
      (publication ++ sighting ++ [(false, .advance)])).answers = [(false, .snapshot (sight 0))] := by
    cbv
  have hsane := hall .empty true _ false (sight 0) (by rw [hanswers]; exact .head _)
  cases hsane

end Threads

end SharedDictionary
