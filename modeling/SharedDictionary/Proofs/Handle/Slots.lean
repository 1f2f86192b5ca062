import SharedDictionary.Handle.Engine

/-!
# The slots of a handle

A handle holds the slots of its levels in a list.  Every step reads and writes them through
`Handle.slot?` and `Handle.setSlot`, which behave like a map: what is set is found, and nothing else
changes (`slot?_setSlot`).  A level that was never asked for looks like one whose build failed: both
have a vacant slot (`Handle.slotOf`).
-/

namespace SharedDictionary

variable {A D : Type}

/-! ### The state of a slot -/

/-- An artifact taken for another. -/
def Built.map {α β : Type} (f : α → β) (artifact : Built α) : Built β :=
  ⟨f artifact.value, artifact.stamp⟩

/-- A slot whose artifact is taken for another. -/
def Slot.map {α β : Type} (f : α → β) (slot : Slot α) : Slot β :=
  ⟨slot.built.map (Built.map f), slot.building⟩

@[simp] theorem Slot.building_map {α β : Type} (f : α → β) (slot : Slot α) :
    (slot.map f).building = slot.building := rfl

theorem Slot.isSome_built_map {α β : Type} (f : α → β) (slot : Slot α) :
    (slot.map f).built.isSome = slot.built.isSome := Option.isSome_map

theorem Slot.state_map {α β : Type} (f : α → β) (slot : Slot α) :
    (slot.map f).state = slot.state := by
  unfold Slot.state
  rw [Slot.isSome_built_map, Slot.building_map]

theorem Slot.state_eq_cached_iff (slot : Slot A) : slot.state = .cached ↔ slot.built.isSome := by
  rcases slot with ⟨_ | artifact, _ | _⟩ <;> simp [Slot.state]

theorem Slot.state_eq_materializing_iff (slot : Slot A) :
    slot.state = .materializing ↔ slot.built = none ∧ slot.building = true := by
  rcases slot with ⟨_ | artifact, _ | _⟩ <;> simp [Slot.state]

theorem Slot.state_eq_absent_iff (slot : Slot A) :
    slot.state = .absent ↔ slot.built = none ∧ slot.building = false := by
  rcases slot with ⟨_ | artifact, _ | _⟩ <;> simp [Slot.state]

theorem Slot.eq_vacant {slot : Slot A} (hbuilt : slot.built = none)
    (hidle : slot.building = false) : slot = .vacant := by
  obtain ⟨built, building⟩ := slot
  cases hbuilt
  cases hidle
  rfl

namespace Handle

/-! ### Slots as a map -/

/-- The slot of a level; a level that was not asked for has a vacant one. -/
def slotOf (h : Handle A D) (level : Int32) : Slot A := (h.slot? level).getD .vacant

/-- What is set is found, and nothing else changes. -/
theorem slot?_setSlot (h : Handle A D) (level other : Int32) (slot : Slot A) :
    (h.setSlot level slot).slot? other = if other = level then some slot else h.slot? other := by
  have hlookup : (h.setSlot level slot).slot? other
      = (((level, slot) :: h.slots.filter (·.1 != level)).find? (·.1 == other)).map (·.2) := rfl
  rw [hlookup]
  split
  · rename_i heq
    rw [List.find?_cons_of_pos (by simpa using heq.symm)]
    rfl
  · rename_i hne
    rw [List.find?_cons_of_neg (by simpa using Ne.symm hne), List.find?_filter, slot?]
    congr 2
    funext entry
    by_cases hentry : entry.1 = other
    · simp [hentry, hne]
    · simp [hentry]

theorem slotOf_setSlot (h : Handle A D) (level other : Int32) (slot : Slot A) :
    (h.setSlot level slot).slotOf other = if other = level then slot else h.slotOf other := by
  rw [slotOf, slot?_setSlot, slotOf]
  split <;> rfl

@[simp] theorem slotOf_count (h : Handle A D) (e : CounterEvent) (level : Int32) :
    (h.count e).slotOf level = h.slotOf level := rfl

@[simp] theorem slotOf_report (h : Handle A D) (e : HandleEvent) (level : Int32) :
    (h.report e).slotOf level = h.slotOf level := rfl

/-! ### Slots by target -/

/-- The slot of a target, with the artifacts of both kinds side by side. -/
def slotAt (h : Handle A D) : BuildTarget → Slot (A ⊕ D)
  | .level level => (h.slotOf level).map Sum.inl
  | .decoder => h.decoder.map Sum.inr

theorem slotAt_setSlot (h : Handle A D) (level : Int32) (slot : Slot A) (target : BuildTarget) :
    (h.setSlot level slot).slotAt target
      = if target = .level level then slot.map Sum.inl else h.slotAt target := by
  cases target with
  | decoder => exact (if_neg (fun heq => by cases heq)).symm
  | level other =>
      show ((h.setSlot level slot).slotOf other).map Sum.inl = _
      rw [slotOf_setSlot]
      by_cases hother : other = level
      · rw [if_pos hother, if_pos (congrArg BuildTarget.level hother)]
      · rw [if_neg hother, if_neg (fun heq => hother (BuildTarget.level.inj heq))]
        rfl

theorem slotAt_decoder (h : Handle A D) (slot : Slot D) (target : BuildTarget) :
    ({ h with decoder := slot } : Handle A D).slotAt target
      = if target = .decoder then slot.map Sum.inr else h.slotAt target := by
  cases target with
  | decoder => exact (if_pos rfl).symm
  | level other => exact (if_neg (fun heq => by cases heq)).symm

/-- The state of a level is read off its slot alone. -/
theorem digestState_eq (h : Handle A D) (level : Int32) :
    h.digestState level = (h.slotAt (.level level)).state := by
  rw [slotAt, Slot.state_map, digestState, slotOf]
  split
  · rename_i hnone
    rw [hnone]
    rfl
  · rename_i slot hsome
    rw [hsome]
    rfl

/-! ### At most one slot -/

/-- Every level has at most one slot. -/
def Distinct (h : Handle A D) : Prop := (h.slots.map (·.1)).Nodup

theorem distinct_setSlot {h : Handle A D} (hdistinct : h.Distinct) (level : Int32)
    (slot : Slot A) : (h.setSlot level slot).Distinct := by
  show (level :: (h.slots.filter (·.1 != level)).map (·.1)).Nodup
  rw [List.nodup_cons]
  constructor
  · intro hmem
    obtain ⟨entry, hentry, rfl⟩ := List.mem_map.mp hmem
    simp at hentry
  · exact List.Nodup.sublist (List.filter_sublist.map _) hdistinct

/-- Where every key occurs once, an entry is in a list exactly if its key finds it. -/
private theorem mem_iff_find?_eq_some {slots : List (Int32 × Slot A)}
    (hnodup : (slots.map (·.1)).Nodup) {level : Int32} {slot : Slot A} :
    (level, slot) ∈ slots ↔ (slots.find? (·.1 == level)).map (·.2) = some slot := by
  induction slots with
  | nil => simp
  | cons entry slots ih =>
      obtain ⟨other, found⟩ := entry
      rw [List.map_cons, List.nodup_cons] at hnodup
      obtain ⟨hnew, hnodup⟩ := hnodup
      rw [List.mem_cons, Prod.mk.injEq]
      by_cases hlevel : other = level
      · subst hlevel
        rw [List.find?_cons_of_pos (by simp)]
        constructor
        · rintro (⟨-, rfl⟩ | hmem)
          · rfl
          · exact absurd (List.mem_map_of_mem hmem) hnew
        · intro hsome
          exact Or.inl ⟨rfl, (Option.some.inj hsome).symm⟩
      · rw [List.find?_cons_of_neg (by simpa using hlevel), ← ih hnodup]
        constructor
        · rintro (⟨hsame, -⟩ | hmem)
          · exact absurd hsame.symm hlevel
          · exact hmem
        · exact Or.inr

/-- Where every level has at most one slot, the slots are those that are found. -/
theorem mem_slots_iff {h : Handle A D} (hdistinct : h.Distinct) {level : Int32} {slot : Slot A} :
    (level, slot) ∈ h.slots ↔ h.slot? level = some slot :=
  mem_iff_find?_eq_some hdistinct

/-! ### Requests that find a slot -/

section Call

variable (h : Handle A D) {level : Int32}

/-- A digest that is there is handed out. -/
theorem call_digested_of_built {artifact : Built A} (hbuilt : (h.slotOf level).built = some artifact) :
    h.call (.digested level) = ((h.count .digestHit).report (.digestHit level),
      .replied (.digested level artifact)) := by
  rw [slotOf] at hbuilt
  simp only [call, hbuilt]

/-- A digest that is being built cannot be waited for. -/
theorem call_digested_of_building (hslot : h.slotOf level = ⟨none, true⟩) :
    h.call (.digested level) = (h, .replied .blocked) := by
  rw [slotOf] at hslot
  simp only [call, hslot, if_true]

/-- A vacant slot is taken, and the format looked at. -/
theorem call_digested_of_vacant (hslot : h.slotOf level = .vacant) :
    h.call (.digested level)
      = (h.setSlot level ⟨none, true⟩).ensureFormat (.digested level) := by
  rw [slotOf] at hslot
  simp only [call, hslot]
  rfl

theorem call_decoder_of_built {artifact : Built D} (hbuilt : h.decoder.built = some artifact) :
    h.call .decoder = (h, .replied (.decoder artifact)) := by
  simp only [call, hbuilt]

theorem call_decoder_of_building (hslot : h.decoder = ⟨none, true⟩) :
    h.call .decoder = (h, .replied .blocked) := by
  simp only [call, hslot, if_true]

theorem call_decoder_of_vacant (hslot : h.decoder = .vacant) :
    h.call .decoder = ({ h with decoder := ⟨none, true⟩ } : Handle A D).ensureFormat .decoder := by
  simp only [call, hslot]
  rfl

end Call

end Handle

end SharedDictionary
