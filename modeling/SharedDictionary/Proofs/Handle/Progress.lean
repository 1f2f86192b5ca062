import Mathlib.Data.Fintype.Order
import Mathlib.Order.WellFounded
import SharedDictionary.Proofs.Handle.Ownership

/-!
# Threads do not wait for each other for ever

A thread waits for the lock of the map, for the lock of a slot or for the format check.  Who holds the map
waits for nothing, and neither does who checks the format.  Who holds the lock of a slot may wait for another
lock, but then its build has called the handle back, for a level that is nested in what it builds
(`Thread.Nested`).  So if no level is nested in itself, by way of others, every wait ends at a thread that can
go on.

Where builds call nothing back, a build holds up only the calls for what it builds.  The main result is
`Threads.progress`.
-/

namespace SharedDictionary

open Relation

variable {τ α : Type}

/-! ### Builds that wait -/

/-- A build may call the handle back for what is below it. -/
def Below (nests : BuildTarget → Int32 → Bool) (inner outer : BuildTarget) : Prop :=
  ∃ level, inner = .level level ∧ nests outer level = true

/-- No level is nested in itself, not even by way of others. -/
def Acyclic (nests : BuildTarget → Int32 → Bool) : Prop :=
  ∀ level, ¬ TransGen (fun outer inner => nests (.level outer) inner = true) level level

theorem nested_of_below {nests : BuildTarget → Int32 → Bool} {inner : BuildTarget} {outer : Int32}
    (h : TransGen (Below nests) inner (.level outer)) :
    ∃ level, inner = .level level
      ∧ TransGen (fun outer inner => nests (.level outer) inner = true) outer level := by
  induction h using TransGen.head_induction_on with
  | single hbelow =>
      obtain ⟨level, rfl, hnests⟩ := hbelow
      exact ⟨level, rfl, .single hnests⟩
  | head hbelow _ ih =>
      obtain ⟨level, rfl, hnests⟩ := hbelow
      obtain ⟨middle, rfl, hmiddle⟩ := ih
      exact ⟨level, rfl, hmiddle.tail hnests⟩

/-- Only finitely many builds can be nested in each other. -/
theorem Acyclic.wellFounded {nests : BuildTarget → Int32 → Bool} (h : Acyclic nests) :
    WellFounded (TransGen (Below nests)) := by
  have hlevels : Finite Int32 := .of_injective (fun level : Int32 => level.toBitVec.toFin) fun a b hab =>
    Int32.toBitVec_inj.mp (BitVec.toFin_inj.mp hab)
  have htargets : Finite BuildTarget :=
    .of_surjective (fun level? : Option Int32 => level?.elim .decoder .level) fun target => match target with
      | .level level => ⟨some level, rfl⟩
      | .decoder => ⟨none, rfl⟩
  have hirrefl : Std.Irrefl (TransGen (Below nests)) := by
    refine ⟨fun target hcycle => ?_⟩
    cases target with
    | level level =>
        obtain ⟨_, hlevel, hnested⟩ := nested_of_below hcycle
        cases hlevel
        exact h level hnested
    | decoder =>
        obtain ⟨_, ⟨_, hlevel, _⟩, _⟩ := TransGen.head'_iff.mp hcycle
        cases hlevel
  exact Finite.wellFounded_of_trans_of_irrefl _

/-- Each build that waits has called back for what is built within it, and the innermost one for what the
call in progress is about.  An idle thread has none. -/
structure Thread.Nested (nests : BuildTarget → Int32 → Bool) (x : Thread α) : Prop where
  chain : (x.station.target?.toList ++ x.pending).IsChain (Below nests)
  about : x.pending ≠ [] → x.station.target?.isSome = true

theorem Thread.Nested.pending_eq_nil {nests : BuildTarget → Int32 → Bool} {x : Thread α} (h : x.Nested nests)
    (hidle : x.station = .idle) : x.pending = [] := by
  by_contra hpending
  have habout := h.about hpending
  rw [hidle] at habout
  cases habout

/-- What a call is about is below every build that waits. -/
theorem Thread.Nested.below {nests : BuildTarget → Int32 → Bool} {x : Thread α} (h : x.Nested nests)
    {target outer : BuildTarget} (htarget : x.station.target? = some target) (houter : outer ∈ x.pending) :
    TransGen (Below nests) target outer := by
  have hchain := h.chain
  rw [htarget] at hchain
  have htrans : (target :: x.pending).IsChain (TransGen (Below nests)) := hchain.imp fun _ _ => .single
  exact htrans.rel_cons houter

namespace Threads

/-- A thread that goes on leaves its builds nested. -/
theorem Conduct.nested_follow {nests : BuildTarget → Int32 → Bool} {s : Threads τ α} {x : Thread α}
    {effect : Effect α} {next : Next α} (h : s.Conduct nests x.station effect next)
    (hx : x.Nested nests) : (x.follow next).Nested nests := by
  cases next with
  | goes station =>
      by_cases hidle : x.station = .idle
      · have hpending := hx.pending_eq_nil hidle
        refine ⟨?_, fun hne => absurd hpending hne⟩
        show (station.target?.toList ++ x.pending).IsChain _
        rw [hpending, List.append_nil]
        cases station.target? <;> first | exact .nil | exact .singleton _
      · have habout := h.about hidle station rfl
        exact ⟨by rw [Thread.follow, habout]; exact hx.chain, by rw [Thread.follow, habout]; exact hx.about⟩
  | calls target level =>
      obtain ⟨hstation, hnests⟩ := h.calls target level rfl
      have hchain := hx.chain
      rw [hstation] at hchain
      exact ⟨.cons_cons ⟨level, rfl, hnests⟩ hchain, fun _ => rfl⟩
  | returns answer =>
      have hchain := hx.chain
      rw [Thread.follow]
      cases hpending : x.pending with
      | nil => exact ⟨.nil, fun hne => absurd rfl hne⟩
      | cons target pending =>
          rw [hpending] at hchain
          exact ⟨(List.isChain_append.mp hchain).2.1, fun _ => rfl⟩

variable [DecidableEq τ]

theorem nested_step {nests : BuildTarget → Int32 → Bool} {s : Threads τ α}
    (hs : ∀ thread, (s.thread thread).Nested nests) (thread : τ) (event : ThreadEvent α) (other : τ) :
    ((s.step nests thread event).thread other).Nested nests := by
  rcases s.step_cases nests thread event with hsame | ⟨effect, next, hplan, hstep⟩
  · rw [hsame]
    exact hs other
  · rw [hstep, thread_move, thread_apply]
    split
    · exact (conduct_plan? hplan).nested_follow (hs thread)
    · exact hs other

theorem nested_run {nests : BuildTarget → Int32 → Bool} {s : Threads τ α}
    (hs : ∀ thread, (s.thread thread).Nested nests) (events : List (τ × ThreadEvent α)) (thread : τ) :
    ((s.run nests events).thread thread).Nested nests := by
  induction events generalizing s with
  | nil => exact hs thread
  | cons event events ih => exact ih fun thread => nested_step hs event.1 event.2 thread

/-! ### Waiting -/

/-- A thread is in the middle of a call. -/
def Unfinished (s : Threads τ α) (thread : τ) : Prop := (s.thread thread).station ≠ .idle

/-- A thread cannot go on: nothing that may happen to it changes anything. -/
def Blocked (nests : BuildTarget → Int32 → Bool) (s : Threads τ α) (thread : τ) : Prop :=
  ∀ event, s.step nests thread event = s

/-- What a thread is about to take, and waits for if another holds it. -/
def wanted? (s : Threads τ α) (thread : τ) : Option Resource :=
  match (s.thread thread).station with
  | .entering _ => some .map
  | .waiting target => some (.lock target)
  | .ensuring _ => if s.format.isNone then some .check else none
  | _ => none

/-- A thread is about to take what another holds. -/
def WaitsFor (s : Threads τ α) (thread other : τ) : Prop :=
  ∃ resource, s.wanted? thread = some resource ∧ s.owner resource = some other

omit [DecidableEq τ] in
/-- A call for which nothing is to be waited for has something to do. -/
theorem exists_plan? (nests : BuildTarget → Int32 → Bool) {s : Threads τ α} {thread : τ}
    (hbusy : s.Unfinished thread) (hfree : ∀ resource, s.wanted? thread = some resource →
      s.owner resource = none) :
    ∃ event effect next, s.plan? nests (s.thread thread).station event = some (effect, next)
      ∧ next ≠ .goes (s.thread thread).station := by
  rw [Unfinished] at hbusy
  simp only [wanted?] at hfree
  generalize (s.thread thread).station = station at hbusy hfree
  have hadvance : (∃ effect next, s.advance? station = some (effect, next) ∧ next ≠ .goes station) →
      ∃ event effect next, s.plan? nests station event = some (effect, next) ∧ next ≠ .goes station := by
    rintro ⟨effect, next, hplan, hnext⟩
    exact ⟨.advance, effect, next, (by cases station <;> exact hplan), hnext⟩
  cases station with
  | idle => exact absurd rfl hbusy
  | checking target? =>
      exact ⟨.answer (.panicked ""), _, _, rfl, by cases target? <;> intro h <;> cases h⟩
  | building target => exact ⟨.finish (.panicked ""), _, _, rfl, fun h => (by cases h)⟩
  | surveying counters left found =>
      cases left with
      | nil => exact hadvance ⟨_, _, rfl, by split <;> intro h <;> cases h⟩
      | cons level left =>
          refine ⟨.visit level, _, _, if_pos List.mem_cons_self, fun hsame => ?_⟩
          obtain ⟨-, hleft, -⟩ := Station.surveying.inj (Next.goes.inj hsame)
          rw [List.erase_cons_head] at hleft
          exact List.cons_ne_self level left hleft.symm
  | entering _ | waiting _ => exact hadvance ⟨_, _, taking?_of_free (hfree _ rfl) _, fun h => (by cases h)⟩
  | inside errand =>
      cases errand with
      | look level => exact hadvance ⟨_, _, rfl, by split <;> intro h <;> cases h⟩
      | _ => exact hadvance ⟨_, _, rfl, fun h => (by cases h)⟩
  | reading target | rereading target =>
      refine hadvance ?_
      rw [advance?]
      cases s.built target <;> exact ⟨_, _, rfl, fun h => (by cases h)⟩
  | ensuring target? =>
      refine hadvance ?_
      rw [advance?]
      cases hformat : s.format with
      | some outcome =>
          refine ⟨_, _, rfl, ?_⟩
          cases target? <;> rcases outcome with e | ⟨⟩ <;> intro h <;> cases h
      | none => exact ⟨_, _, taking?_of_free (hfree _ (by rw [hformat]; rfl)) _, fun h => (by cases h)⟩
  | trying level =>
      refine hadvance ?_
      rw [advance?, taking?]
      split <;> exact ⟨_, _, rfl, fun h => (by cases h)⟩
  | glancing level => exact hadvance ⟨_, _, rfl, by split <;> intro h <;> cases h⟩
  | copying levels seen left =>
      cases left with
      | nil => exact hadvance ⟨_, _, rfl, fun h => (by cases h)⟩
      | cons event left =>
          refine hadvance ⟨_, _, rfl, fun hsame => ?_⟩
          obtain ⟨-, -, hleft⟩ := Station.copying.inj (Next.goes.inj hsame)
          exact List.cons_ne_self event left hleft.symm
  | _ => exact hadvance ⟨_, _, rfl, fun h => (by cases h)⟩

omit [DecidableEq τ] in
/-- A call that goes on, but not where it stands, is another state of its thread. -/
theorem follow_ne {x : Thread α} {next : Next α} (hbusy : x.station ≠ .idle)
    (hnext : next ≠ .goes x.station) : x.follow next ≠ x := by
  intro hsame
  cases next with
  | goes station => exact hnext (congrArg (fun x => Next.goes x.station) hsame)
  | calls target level => exact List.cons_ne_self _ _ (congrArg Thread.pending hsame)
  | returns answer =>
      rw [Thread.follow] at hsame
      cases hpending : x.pending with
      | nil =>
          rw [hpending] at hsame
          exact hbusy (congrArg Thread.station hsame).symm
      | cons target pending =>
          rw [hpending] at hsame
          have hlength := congrArg Thread.pending hsame
          rw [hpending] at hlength
          exact List.cons_ne_self target pending hlength.symm

/-- **A thread that is blocked waits for another.** -/
theorem exists_waitsFor_of_blocked {nests : BuildTarget → Int32 → Bool} {s : Threads τ α} {thread : τ}
    (hbusy : s.Unfinished thread) (hblocked : s.Blocked nests thread) : ∃ other, s.WaitsFor thread other := by
  by_contra hnone
  have hfree : ∀ resource, s.wanted? thread = some resource → s.owner resource = none := by
    intro resource hwanted
    by_contra howned
    obtain ⟨other, hother⟩ := Option.ne_none_iff_exists'.mp howned
    exact hnone ⟨other, resource, hwanted, hother⟩
  obtain ⟨event, effect, next, hplan, hnext⟩ := exists_plan? nests hbusy hfree
  have hstep : s.step nests thread event = (s.apply thread effect).move thread next := by
    rw [step, hplan]
  have hthread : ((s.apply thread effect).move thread next).thread thread = s.thread thread := by
    rw [← hstep, hblocked]
  rw [thread_move, thread_apply, if_pos rfl] at hthread
  exact follow_ne hbusy hnext hthread

omit [DecidableEq τ] in
/-- A thread that holds something is in the middle of a call. -/
theorem unfinished_of_owner {nests : BuildTarget → Int32 → Bool} {s : Threads τ α} (hs : s.Owned)
    {thread : τ} (hnested : (s.thread thread).Nested nests) {resource : Resource}
    (howner : s.owner resource = some thread) : s.Unfinished thread := by
  intro hidle
  have hheld := (hs.mem_held thread resource).mpr howner
  rw [Thread.held, hidle, hnested.pending_eq_nil hidle] at hheld
  cases hheld

omit [DecidableEq τ] in
/-- **Who holds the map waits for nothing**, and neither does who checks the format. -/
theorem wanted?_of_owner {s : Threads τ α} (hs : s.Owned) {thread : τ} {resource : Resource}
    (howner : s.owner resource = some thread) (hresource : ∀ target, resource ≠ .lock target) :
    s.wanted? thread = none := by
  have hheld := (hs.mem_held thread resource).mpr howner
  rw [Thread.held, List.mem_append] at hheld
  replace hheld : resource ∈ (s.thread thread).station.held := by
    refine hheld.resolve_right fun hpending => ?_
    obtain ⟨target, -, hlock⟩ := List.mem_map.mp hpending
    exact hresource target hlock.symm
  rw [wanted?]
  generalize (s.thread thread).station = station at hheld
  cases station with
  | entering errand => cases hheld
  | waiting target => cases hheld
  | ensuring target? =>
      obtain ⟨target, -, hlock⟩ := List.mem_map.mp hheld
      exact absurd hlock.symm (hresource target)
  | _ => rfl

omit [DecidableEq τ] in
/-- Only who is about to take the lock of a slot waits for it. -/
theorem station_of_wanted? {s : Threads τ α} {thread : τ} {target : BuildTarget}
    (hwanted : s.wanted? thread = some (.lock target)) :
    (s.thread thread).station = .waiting target := by
  rw [wanted?] at hwanted
  split at hwanted
  · cases hwanted
  · cases hwanted
    assumption
  · split at hwanted <;> cases hwanted
  · cases hwanted

omit [DecidableEq τ] in
/-- A thread that waits for the lock of a slot has the locks only of builds that wait for it to come back. -/
theorem mem_pending_of_owner {s : Threads τ α} (hs : s.Owned) {thread : τ} {resource : Resource}
    {target : BuildTarget} (hwanted : s.wanted? thread = some (.lock target))
    (howner : s.owner resource = some thread) :
    (s.thread thread).station.target? = some target
      ∧ ∃ outer ∈ (s.thread thread).pending, resource = .lock outer := by
  have hstation := station_of_wanted? hwanted
  have hheld : resource ∈ (s.thread thread).station.held ++ (s.thread thread).pending.map .lock :=
    (hs.mem_held thread resource).mpr howner
  rw [hstation] at hheld
  replace hheld : resource ∈ (s.thread thread).pending.map .lock := hheld
  obtain ⟨outer, houter, hlock⟩ := List.mem_map.mp hheld
  exact ⟨by rw [hstation]; rfl, outer, houter, hlock.symm⟩

/-! ### No wait is for ever -/

variable {nests : BuildTarget → Int32 → Bool}

/-- A thread from which a way of waiting leads to one that is in the middle of a call and can go on. -/
def Resolves (nests : BuildTarget → Int32 → Bool) (s : Threads τ α) (thread : τ) : Prop :=
  ∃ last, ReflTransGen s.WaitsFor thread last ∧ s.Unfinished last ∧ ¬ s.Blocked nests last

/-- What a thread waits for comes to an end if it does so for whoever holds it. -/
theorem resolves_of_owner {s : Threads τ α} {thread : τ} (hbusy : s.Unfinished thread)
    (hnext : ∀ resource other, s.wanted? thread = some resource → s.owner resource = some other →
      s.Resolves nests other) : s.Resolves nests thread := by
  by_cases hblocked : s.Blocked nests thread
  · obtain ⟨other, resource, hwanted, howner⟩ := exists_waitsFor_of_blocked hbusy hblocked
    obtain ⟨last, hway, hlast⟩ := hnext resource other hwanted howner
    exact ⟨last, .head ⟨resource, hwanted, howner⟩ hway, hlast⟩
  · exact ⟨thread, .refl, hbusy, hblocked⟩

/-- **Every wait ends** at a thread that can go on: along the locks of slots, what is built gets ever further
down. -/
theorem Owned.resolves {s : Threads τ α} (hs : s.Owned)
    (hnested : ∀ thread, (s.thread thread).Nested nests) (hacyclic : Acyclic nests) {thread : τ}
    (hbusy : s.Unfinished thread) : s.Resolves nests thread := by
  have hother : ∀ {resource owner}, s.owner resource = some owner → (∀ target, resource ≠ .lock target) →
      s.Resolves nests owner := by
    intro resource owner howner hresource
    refine resolves_of_owner (unfinished_of_owner hs (hnested owner) howner) fun other _ hwanted => ?_
    rw [wanted?_of_owner hs howner hresource] at hwanted
    cases hwanted
  have hlock : ∀ {target owner}, s.owner (.lock target) = some owner → s.Resolves nests owner := by
    intro target
    induction target using hacyclic.wellFounded.induction with
    | h target ih =>
        intro owner howner
        refine resolves_of_owner (unfinished_of_owner hs (hnested owner) howner) ?_
        intro resource other hwanted hholds
        cases resource with
        | lock inner =>
            obtain ⟨htarget, outer, houter, hsame⟩ := mem_pending_of_owner hs hwanted howner
            cases hsame
            exact ih inner ((hnested owner).below htarget houter) hholds
        | map => exact hother hholds nofun
        | check => exact hother hholds nofun
  refine resolves_of_owner hbusy fun resource other _ howner => ?_
  cases resource with
  | lock target => exact hlock howner
  | map => exact hother howner nofun
  | check => exact hother howner nofun

omit [DecidableEq τ] in
/-- A build that calls nothing back holds the lock of its own slot, and nothing else. -/
theorem eq_lock_of_owner {s : Threads τ α} (hs : s.Owned) {thread : τ}
    (hnested : (s.thread thread).Nested nests) (hcalls : ∀ target level, nests target level = false)
    {target : BuildTarget} (hstation : (s.thread thread).station = .building target) {resource : Resource}
    (howner : s.owner resource = some thread) : resource = .lock target := by
  have hpending : (s.thread thread).pending = [] := by
    by_contra hne
    obtain ⟨outer, houter⟩ := List.exists_mem_of_ne_nil _ hne
    have hbelow := hnested.below (by rw [hstation]; rfl) houter
    obtain ⟨_, ⟨level, -, hnests⟩, -⟩ := TransGen.head'_iff.mp hbelow
    rw [hcalls] at hnests
    cases hnests
  have hheld := (hs.mem_held thread resource).mpr howner
  rw [Thread.held, hstation, hpending] at hheld
  exact List.mem_singleton.mp hheld

/-- **No deadlock, and levels are independent.**  Any number of threads use one handle, and no level is nested
in itself.  Then from any thread in the middle of a call, waiting leads to one that can go on; who holds the
lock of the map waits for nothing.  Where builds call nothing back, a build holds nothing that a call for
anything else waits for. -/
theorem progress (nests : BuildTarget → Int32 → Bool) (hacyclic : Acyclic nests) (content : ByteArray)
    (isRaw : Bool) (events : List (τ × ThreadEvent α)) :
    let s := (initial content isRaw).run nests events
    (∀ thread, s.Unfinished thread →
        ∃ last, ReflTransGen s.WaitsFor thread last ∧ s.Unfinished last ∧ ¬ s.Blocked nests last)
      ∧ (∀ thread, s.owner .map = some thread → s.wanted? thread = none)
      ∧ ((∀ target level, nests target level = false) →
          ∀ thread target, (s.thread thread).station = .building target →
            ∀ other, (s.thread other).station.target? ≠ some target →
              ∀ resource, s.wanted? other = some resource → s.owner resource ≠ some thread) := by
  intro s
  have hs : s.Owned := (owned_initial content isRaw).run nests events
  have hnested : ∀ thread, (s.thread thread).Nested nests :=
    nested_run (fun _ => ⟨.nil, fun hne => absurd rfl hne⟩) events
  refine ⟨fun thread hbusy => hs.resolves hnested hacyclic hbusy,
    fun thread howner => wanted?_of_owner hs howner nofun, ?_⟩
  intro hcalls thread target hstation other hother resource hwanted howner
  cases eq_lock_of_owner hs (hnested thread) hcalls hstation howner
  rw [station_of_wanted? hwanted] at hother
  exact hother rfl

/-- A build may call the handle back for lower levels. -/
def descending : BuildTarget → Int32 → Bool
  | .level outer, inner => inner < outer
  | .decoder, _ => true

/-- The build of level 3 calls the handle back for level 1, and another thread asks for level 1 meanwhile. -/
def contended : List (Bool × ThreadEvent Unit) :=
  (false, .ask (.request (.digested 3))) :: .replicate 7 (false, .advance)
    ++ [(false, .answer (.success ())), (false, .callBack 1)] ++ .replicate 6 (false, .advance)
    ++ (true, .ask (.request (.digested 1))) :: .replicate 3 (true, .advance)

theorem progress_contended :
    let s := (initial .empty true).run descending contended
    Acyclic descending ∧ s.wanted? true = some (.lock (.level 1)) ∧ s.owner (.lock (.level 1)) = some false
      ∧ ∃ last, ReflTransGen s.WaitsFor true last ∧ s.Unfinished last ∧ ¬ s.Blocked descending last := by
  have hacyclic : Acyclic descending := by
    have hlt : ∀ outer inner,
        TransGen (fun outer inner => descending (.level outer) inner = true) outer inner → inner < outer := by
      intro outer inner h
      induction h with
      | single hbelow => exact of_decide_eq_true hbelow
      | tail _ hbelow ih => exact Int32.lt_trans (of_decide_eq_true hbelow) ih
    exact fun level hcycle => Int32.lt_irrefl (hlt level level hcycle)
  intro s
  refine ⟨hacyclic, rfl, rfl, (progress descending hacyclic .empty true _).1 true ?_⟩
  exact nofun

end Threads

end SharedDictionary
