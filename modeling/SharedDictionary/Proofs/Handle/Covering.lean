import SharedDictionary.Proofs.Handle.Runs

/-!
# Engines that cover others

What is asked of a handle from outside is a *demand*, and a run is a list of demands
(`World.after`).

An engine *covers* another if it does the same, seen through a function of its states
(`Engine.Covers`).  So an engine may note whatever it likes in its state: a run goes the same way with
the notes and without them (`after_covered`).
-/

namespace SharedDictionary

variable {σ τ A D : Type}

/-- What is asked of a handle from outside.  Queries leave a handle as it is. -/
inductive Demand where
  /-- A request, whose builds nest at most as deep as `depth`. -/
  | request (depth : Nat) (request : Request)
  | prefixTaken

/-- The world after a demand was met. -/
def World.meet (E : Engine σ A D) (w : World σ A D) (demand : Demand) : World σ A D :=
  match demand with
  | .request depth request => (serve E depth request w).2
  | .prefixTaken => ⟨w.handle.takePrefix, w.engine⟩

/-- The world after some demands were met, in order. -/
def World.after (E : Engine σ A D) (w : World σ A D) (demands : List Demand) : World σ A D :=
  demands.foldl (World.meet E) w

/-- **A relation that every input respects is respected by demands**, if it bears the taking of a
prefix. -/
theorem Respects.after {E : Engine σ A D} {R : World σ A D → World σ A D → Prop} (hR : Respects E R)
    (htaken : ∀ w, R w ⟨w.handle.takePrefix, w.engine⟩) (w : World σ A D)
    (demands : List Demand) : R w (w.after E demands) := by
  induction demands generalizing w with
  | nil => exact hR.refl w
  | cons demand demands ih =>
      have hmeet : R w (w.meet E demand) := by
        cases demand with
        | request depth request => exact hR.serve depth request w
        | prefixTaken => exact htaken w
      exact hR.trans hmeet (ih (w.meet E demand))

/-- Demands change neither the content of a handle nor whether it is raw. -/
theorem continues_after (E : Engine σ A D) (w : World σ A D) (demands : List Demand) :
    w.handle.Continues (w.after E demands).handle := by
  obtain ⟨inputs, hrun⟩ :=
    (respects_run E).after (fun _ => ⟨[.prefixTaken], rfl⟩) w demands
  rw [hrun]
  exact w.handle.continues_run inputs

/-- The demand that a view makes, whose digest is had by a request of its own. -/
def Demand.ofMode (depth : Nat) (digest : Request) : DictMode → Demand
  | .digested => .request depth digest
  | .undigested => .request depth .undigested
  | .prefixed => .prefixTaken

/-- A view for a compressor meets a demand. -/
theorem world_view (E : Engine σ A D) (depth : Nat) (mode : DictMode) (level : Int32)
    (w : World σ A D) :
    (view E depth mode level w).2 = w.meet E (.ofMode depth (.digested level) mode) := by
  cases mode with
  | digested =>
      show _ = (serve E depth (.digested level) w).2
      unfold view
      dsimp only
      split <;> rename_i hserve <;> rw [hserve]
  | undigested =>
      show _ = (serve E depth .undigested w).2
      unfold view
      dsimp only
      split <;> rename_i hserve <;> rw [hserve]
  | prefixed => rfl

/-- A view for a decompressor meets a demand. -/
theorem world_viewForDecompression (E : Engine σ A D) (depth : Nat) (mode : DictMode)
    (w : World σ A D) :
    (viewForDecompression E depth mode w).2 = w.meet E (.ofMode depth .decoder mode) := by
  cases mode with
  | digested =>
      show _ = (serve E depth .decoder w).2
      unfold viewForDecompression
      dsimp only
      split <;> rename_i hserve <;> rw [hserve]
  | undigested =>
      show _ = (serve E depth .undigested w).2
      unfold viewForDecompression
      dsimp only
      split <;> rename_i hserve <;> rw [hserve]
  | prefixed => rfl

/-! ### Covers -/

/-- An engine does what another does, seen through a function of its states. -/
structure Engine.Covers (f : τ → σ) (E' : Engine τ A D) (E : Engine σ A D) : Prop where
  check : ∀ state content isRaw, E.check (f state) content isRaw
    = ((E'.check state content isRaw).1, f (E'.check state content isRaw).2)
  prepare : ∀ state handle target, E.prepare (f state) handle target
    = ((E'.prepare state handle target).1, f (E'.prepare state handle target).2)
  build : ∀ state content level, E.build (f state) content level
    = ((E'.build state content level).1, f (E'.build state content level).2)
  buildDecoder : ∀ state content, E.buildDecoder (f state) content
    = ((E'.buildDecoder state content).1, f (E'.buildDecoder state content).2)

/-- A world whose engine is seen through a function of its states. -/
def World.through (f : τ → σ) (w : World τ A D) : World σ A D := ⟨w.handle, f w.engine⟩

section Covers

variable {f : τ → σ} {E' : Engine τ A D} {E : Engine σ A D} (hcovers : E'.Covers f E)
  (w : World τ A D)

include hcovers

theorem settleCheck_covered (p : Progress A D) :
    settleCheck E (w.through f) p = ((settleCheck E' w p).1.through f, (settleCheck E' w p).2) := by
  obtain ⟨handle, state⟩ := w
  unfold settleCheck World.through
  cases p with
  | replied reply => rfl
  | waiting =>
      rcases handle.pending with _ | ⟨⟨request, _ | _⟩, rest⟩
      · rfl
      · simp only [hcovers.check]
      · rfl

theorem startBuild_covered :
    startBuild E (w.through f) = ((startBuild E' w).1, (startBuild E' w).2.through f) := by
  obtain ⟨handle, state⟩ := w
  unfold startBuild World.through
  dsimp only
  split
  · simp only [hcovers.prepare]
  · simp only [hcovers.prepare]
  · rfl

theorem settleBuild_covered (brokenOff : Option String) :
    settleBuild E (w.through f) brokenOff
      = ((settleBuild E' w brokenOff).1.through f, (settleBuild E' w brokenOff).2) := by
  obtain ⟨handle, state⟩ := w
  unfold settleBuild World.through
  dsimp only
  split
  · cases brokenOff with
    | none => simp only [hcovers.build]
    | some text => rfl
  · cases brokenOff with
    | none => simp only [hcovers.buildDecoder]
    | some text => rfl
  · rfl

/-- Progress among the requests of a build, with the engine seen through a function. -/
private def progressThrough (f : τ → σ) (sofar : Option String × World τ A D) :
    Option String × World σ A D :=
  (sofar.1, sofar.2.through f)

private theorem runBuild_covered {depth : Nat}
    (hserve : ∀ request w, serve E depth request (World.through f w)
      = ((serve E' depth request w).1, (serve E' depth request w).2.through f)) :
    runBuild E depth (w.through f)
      = ((runBuild E' depth w).1, (runBuild E' depth w).2.through f) := by
  have hrequest : ∀ sofar level, requestNext E depth (progressThrough f sofar) level
      = progressThrough f (requestNext E' depth sofar level) := by
    rintro ⟨_ | text, w⟩ level
    · have hfirst := hserve (.digested level) w
      rcases hreply : serve E' depth (.digested level) w with ⟨reply, w'⟩
      rw [hreply] at hfirst
      simp only [requestNext, progressThrough, hreply, hfirst, Option.isSome_none,
        Bool.false_eq_true, if_false]
      cases reply <;> rfl
    · rfl
  have hrequests : ∀ (levels : List Int32) sofar,
      levels.foldl (requestNext E depth) (progressThrough f sofar)
        = progressThrough f (levels.foldl (requestNext E' depth) sofar) := by
    intro levels
    induction levels with
    | nil => exact fun _ => rfl
    | cons level levels ih =>
        intro sofar
        rw [List.foldl_cons, List.foldl_cons, hrequest, ih]
  unfold runBuild
  have hfold := hrequests (startBuild E' w).1 (none, (startBuild E' w).2)
  rw [startBuild_covered hcovers]
  dsimp only [progressThrough] at hfold ⊢
  rw [hfold, settleBuild_covered hcovers]

/-- **A request does the same with an engine and with one that it covers.** -/
theorem serve_covered (depth : Nat) (request : Request) :
    serve E depth request (w.through f)
      = ((serve E' depth request w).1, (serve E' depth request w).2.through f) := by
  induction depth generalizing request w with
  | zero => rfl
  | succ depth ih =>
      have hcheck := settleCheck_covered hcovers ⟨(w.handle.call request).1, w.engine⟩
        (w.handle.call request).2
      rw [serve_succ, serve_succ]
      rcases hsettled : settleCheck E' ⟨(w.handle.call request).1, w.engine⟩
        (w.handle.call request).2 with ⟨checked, progress⟩
      rw [hsettled] at hcheck
      change settleCheck E ⟨((w.through f).handle.call request).1, (w.through f).engine⟩
        ((w.through f).handle.call request).2 = _ at hcheck
      rw [hcheck]
      cases progress with
      | replied reply => rfl
      | waiting => exact runBuild_covered hcovers checked fun request w => ih w request

/-- **A run goes the same way with an engine and with one that it covers.** -/
theorem after_covered (demands : List Demand) :
    (w.through f).after E demands = (w.after E' demands).through f := by
  induction demands generalizing w with
  | nil => rfl
  | cons demand demands ih =>
      have hmeet : (w.through f).meet E demand = (w.meet E' demand).through f := by
        cases demand with
        | request depth request =>
            show (serve E depth request (w.through f)).2 = _
            rw [serve_covered hcovers]
            rfl
        | prefixTaken => rfl
      show ((w.through f).meet E demand).after E demands = _
      rw [hmeet]
      exact ih (w.meet E' demand)

end Covers

end SharedDictionary
