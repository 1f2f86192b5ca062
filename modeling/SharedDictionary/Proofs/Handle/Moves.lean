import SharedDictionary.Handle.Interleaving

/-!
# The moves of runners

An event moves at most one runner, changes at most one place and notes at most one occurrence.  What
it may do is said once: `Shared.Move` lists the moves, each with where the runner stood, what it found
in the place, and what is new (`Shared.Changes`), and `step_move` says that every event is one of
them.  Invariants are then shown move by move.
-/

namespace SharedDictionary

variable {τ α : Type}

/-- The target whose lock a runner holds. -/
def Activity.held? : Activity α → Option BuildTarget
  | .rereading target | .building target | .publishing target _ | .releasing target _ => some target
  | _ => none

/-- The target that a runner asks for. -/
def Activity.target? : Activity α → Option BuildTarget
  | .idle => none
  | .finding target | .reading target | .waiting target => some target
  | .rereading target | .building target | .publishing target _ | .releasing target _ => some target

/-- A runner that holds a lock asks for what the lock guards. -/
theorem Activity.target?_of_held? {activity : Activity α} {target : BuildTarget}
    (h : activity.held? = some target) : activity.target? = some target := by
  cases activity <;> first | exact h | cases h

namespace Shared

/-! ### Places and activities after an update -/

theorem place_setPlace (s : Shared τ α) (target other : BuildTarget) (place : Place τ α) :
    (s.setPlace target place).place other = if other = target then place else s.place other := by
  unfold Shared.place setPlace
  dsimp only
  split <;> rfl

variable [DecidableEq τ]

/-! ### The moves -/

/-- A runner is moved on, the place of a target is set, and some occurrences are noted. -/
structure Changes (s s' : Shared τ α) (runner : τ) (activity : Activity α) (target : BuildTarget)
    (place : Place τ α) (happened : List (Occurrence τ α)) : Prop where
  activity : ∀ other, s'.activity other = if other = runner then activity else s.activity other
  place : ∀ other, s'.place other = if other = target then place else s.place other
  journal : s'.journal = happened ++ s.journal
  nextStamp : s.nextStamp ≤ s'.nextStamp

theorem Changes.activity_self {s s' : Shared τ α} {runner : τ} {activity : Activity α}
    {target : BuildTarget} {place : Place τ α} {happened : List (Occurrence τ α)}
    (h : s.Changes s' runner activity target place happened) : s'.activity runner = activity :=
  (h.activity runner).trans (if_pos rfl)

theorem Changes.place_self {s s' : Shared τ α} {runner : τ} {activity : Activity α}
    {target : BuildTarget} {place : Place τ α} {happened : List (Occurrence τ α)}
    (h : s.Changes s' runner activity target place happened) : s'.place target = place :=
  (h.place target).trans (if_pos rfl)

/-- What a change keeps of the place of its target, it keeps of every place. -/
theorem Changes.place_congr {s s' : Shared τ α} {runner : τ} {activity : Activity α}
    {target : BuildTarget} {place : Place τ α} {happened : List (Occurrence τ α)}
    (h : s.Changes s' runner activity target place happened) {β : Type} (f : Place τ α → β)
    (hkept : f place = f (s.place target)) (other : BuildTarget) :
    f (s'.place other) = f (s.place other) := by
  rw [h.place]
  split
  · rename_i heq
    rw [heq, hkept]
  · rfl

/-- What a change keeps of the activity of its runner, it keeps of every activity. -/
theorem Changes.activity_congr {s s' : Shared τ α} {runner : τ} {activity : Activity α}
    {target : BuildTarget} {place : Place τ α} {happened : List (Occurrence τ α)}
    (h : s.Changes s' runner activity target place happened) {β : Type} (f : Activity α → β)
    (hkept : f activity = f (s.activity runner)) (other : τ) :
    f (s'.activity other) = f (s.activity other) := by
  rw [h.activity]
  split
  · rename_i heq
    rw [heq, hkept]
  · rfl

/-- A runner moves on where no place changes. -/
theorem changes_turn (s : Shared τ α) (runner : τ) (activity : Activity α)
    (target : BuildTarget) :
    s.Changes (s.turn runner activity) runner activity target (s.place target) [] where
  activity _ := rfl
  place other := by
    split
    · rename_i heq
      rw [heq]
      rfl
    · rfl
  journal := rfl
  nextStamp := Nat.le_refl _

/-- A runner moves on as a place is set. -/
theorem changes_setPlace (s : Shared τ α) (runner : τ) (activity : Activity α)
    (target : BuildTarget) (place : Place τ α) :
    s.Changes ((s.setPlace target place).turn runner activity) runner activity target place [] where
  activity _ := rfl
  place other := s.place_setPlace target other place
  journal := rfl
  nextStamp := Nat.le_refl _

/-- What happens is noted. -/
theorem Changes.note {s s' : Shared τ α} {runner : τ} {activity : Activity α}
    {target : BuildTarget} {place : Place τ α}
    (h : s.Changes s' runner activity target place []) (occurrence : Occurrence τ α) :
    s.Changes (s'.note occurrence) runner activity target place [occurrence] where
  activity := h.activity
  place := h.place
  journal := congrArg (occurrence :: ·) h.journal
  nextStamp := h.nextStamp

/-- What an event may do. -/
inductive Move (s s' : Shared τ α) : Prop
  /-- Nothing. -/
  | rest (hsame : s' = s)
  /-- A runner that holds no lock moves on without one. -/
  | pass (runner : τ) (activity : Activity α) (target : BuildTarget)
      (hfrom : (s.activity runner).held? = none) (hto : activity.held? = none)
      (h : s.Changes s' runner activity target (s.place target) [])
  /-- A runner finds the artifact without the lock. -/
  | hit (runner : τ) (target : BuildTarget) (artifact : Built α)
      (hfrom : s.activity runner = .reading target)
      (hbuilt : (s.place target).built = some artifact)
      (h : s.Changes s' runner .idle target (s.place target)
        [.returned runner target (.returned artifact false)])
  /-- A runner takes the lock. -/
  | lock (runner : τ) (target : BuildTarget) (hfrom : s.activity runner = .waiting target)
      (hfree : (s.place target).holder = none)
      (h : s.Changes s' runner (.rereading target) target
        { s.place target with holder := some runner } [])
  /-- A runner finds the artifact under the lock. -/
  | rehit (runner : τ) (target : BuildTarget) (artifact : Built α)
      (hfrom : s.activity runner = .rereading target)
      (hbuilt : (s.place target).built = some artifact)
      (h : s.Changes s' runner (.releasing target (.returned artifact false)) target
        (s.place target) [])
  /-- A build starts. -/
  | start (runner : τ) (target : BuildTarget) (hfrom : s.activity runner = .rereading target)
      (hbuilt : (s.place target).built = none)
      (h : s.Changes s' runner (.building target) target (s.place target)
        [.started runner target])
  /-- A build succeeds. -/
  | succeed (runner : τ) (target : BuildTarget) (value : α)
      (hfrom : s.activity runner = .building target)
      (h : s.Changes s' runner (.publishing target ⟨value, s.nextStamp⟩) target (s.place target)
        [.ended runner target true])
      (hstamp : s.nextStamp < s'.nextStamp)
  /-- A build fails or breaks off. -/
  | fail (runner : τ) (target : BuildTarget) (outcome : Outcome α)
      (hfrom : s.activity runner = .building target)
      (houtcome : ∀ artifact built, outcome ≠ .returned artifact built)
      (h : s.Changes s' runner (.releasing target outcome) target (s.place target)
        [.ended runner target false])
  /-- What was built is published, unless something was before. -/
  | publish (runner : τ) (target : BuildTarget) (artifact : Built α)
      (hfrom : s.activity runner = .publishing target artifact)
      (h : s.Changes s' runner
        (.releasing target (.returned ((s.place target).built.getD artifact) true)) target
        { s.place target with built := some ((s.place target).built.getD artifact) } [])
  /-- A runner lets go of the lock and returns. -/
  | release (runner : τ) (target : BuildTarget) (outcome : Outcome α) (poisoned : Bool)
      (hfrom : s.activity runner = .releasing target outcome)
      (h : s.Changes s' runner .idle target ⟨(s.place target).built, none, poisoned⟩
        [.returned runner target outcome])

/-- Only the success of a build takes a stamp. -/
theorem nextStamp_advance (s : Shared τ α) (runner : τ) :
    (s.advance runner).nextStamp = s.nextStamp := by
  unfold advance
  split
  · rfl
  · rfl
  · split <;> rfl
  · split <;> rfl
  · split <;> rfl
  · rfl
  · rfl
  · rfl

/-- **The next step of a runner is a move.** -/
theorem advance_move (s : Shared τ α) (runner : τ) : s.Move (s.advance runner) := by
  unfold advance
  split
  · exact .rest rfl
  · rename_i target hfrom
    refine .pass runner (.reading target) target ?_ rfl (s.changes_setPlace runner _ target _)
    rw [hfrom]
    rfl
  · rename_i target hfrom
    split
    · rename_i artifact hbuilt
      exact .hit runner target artifact hfrom hbuilt ((s.changes_turn runner _ target).note _)
    · refine .pass runner (.waiting target) target ?_ rfl (s.changes_turn runner _ target)
      rw [hfrom]
      rfl
  · rename_i target hfrom
    split
    · exact .rest rfl
    · rename_i hfree
      exact .lock runner target hfrom hfree (s.changes_setPlace runner _ target _)
  · rename_i target hfrom
    split
    · rename_i artifact hbuilt
      exact .rehit runner target artifact hfrom hbuilt (s.changes_turn runner _ target)
    · rename_i hbuilt
      exact .start runner target hfrom hbuilt ((s.changes_turn runner _ target).note _)
  · exact .rest rfl
  · rename_i target artifact hfrom
    exact .publish runner target artifact hfrom (s.changes_setPlace runner _ target _)
  · rename_i target outcome hfrom
    exact .release runner target outcome _ hfrom ((s.changes_setPlace runner _ target _).note _)

/-- **The end of a build is a move.** -/
theorem finish_move (s : Shared τ α) (runner : τ) (verdict : Verdict α) :
    s.Move (s.finish runner verdict) := by
  unfold finish
  split
  · rename_i target hfrom
    cases verdict with
    | success value =>
        refine .succeed runner target value hfrom ?_ (Nat.lt_succ_self _)
        have hturn := s.changes_turn runner (.publishing target ⟨value, s.nextStamp⟩) target
        exact ⟨hturn.activity, hturn.place, rfl, Nat.le_succ _⟩
    | failed e =>
        refine .fail runner target _ hfrom ?_ ((s.changes_turn runner _ target).note _)
        exact fun _ _ hreturned => by cases hreturned
    | panicked text =>
        refine .fail runner target _ hfrom ?_ ((s.changes_turn runner _ target).note _)
        exact fun _ _ hreturned => by cases hreturned
  · exact .rest rfl

/-- **Every event is a move.** -/
theorem step_move (s : Shared τ α) (event : Event τ α) : s.Move (s.step event) := by
  cases event with
  | ask runner target =>
      unfold step
      dsimp only
      split
      · rename_i hfrom
        have hto : (Activity.entering target : Activity α).held? = none := by
          cases target <;> rfl
        refine .pass runner _ target ?_ hto (s.changes_turn runner _ target)
        rw [hfrom]
        rfl
      · exact .rest rfl
  | advance runner => exact s.advance_move runner
  | finish runner verdict => exact s.finish_move runner verdict

end Shared

end SharedDictionary
