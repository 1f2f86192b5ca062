import SharedDictionary.Entropy.Huffman

/-!
# Which descriptions are tables

A description of a table is a row of numbers, and not every row is a table.  The numbers have to give
everything away: the counts of a state table all its states (`Counts.Normalised`), the weights of a
Huffman code all the values of the next bits (`HuffmanTable.Completes`).

Counts are read one by one until nothing is left, so what is read is normalised
(`Counts.normalised_of_read?`).  Of weights the last one is not stored.  It is found from the others, if
there is one that completes the code (`HuffmanTable.complete?_eq_some_iff`).
-/

namespace SharedDictionary.Entropy

namespace HuffmanTable

/-! ### Weights -/

/-- Stored weights are completed by the weight of a last symbol to a code of `2 ^ log` values. -/
structure Completes (stored : List Nat) (last log : Nat) : Prop where
  weight_le : ∀ w ∈ stored, w ≤ maxLog
  /-- Not all code words are the last symbol's. -/
  used : ∃ w ∈ stored, w ≠ 0
  /-- The last symbol has a code word. -/
  last_pos : 1 ≤ last
  /-- Every value of the next bits belongs to a symbol. -/
  full : ((stored ++ [last]).map share).sum = 2 ^ log
  log_le : log ≤ maxLog
  /-- Two code words at least have the greatest length. -/
  longest : 2 ≤ (stored ++ [last]).count 1

theorem share_zero : share 0 = 0 := rfl

theorem share_succ (w : Nat) : share (w + 1) = 2 ^ w := by
  rw [share, Nat.pow_succ, Nat.mul_div_cancel _ Nat.two_pos]

theorem sum_share_ne_zero_iff {weights : List Nat} :
    (weights.map share).sum ≠ 0 ↔ ∃ w ∈ weights, w ≠ 0 := by
  induction weights with
  | nil => simp
  | cons w weights ih =>
      rw [List.map_cons, List.sum_cons]
      cases w with
      | zero =>
          rw [share_zero, Nat.zero_add, ih]
          simp
      | succ w =>
          have hpos := Nat.two_pow_pos w
          rw [share_succ]
          exact iff_of_true (by omega) ⟨w + 1, List.mem_cons_self, Nat.succ_ne_zero w⟩

/-- Only the code words of the greatest length own an odd number of values. -/
theorem sum_share_mod_two (weights : List Nat) :
    (weights.map share).sum % 2 = weights.count 1 % 2 := by
  induction weights with
  | nil => rfl
  | cons w weights ih =>
      rw [List.map_cons, List.sum_cons, List.count_cons]
      match w with
      | 0 => rw [share_zero]; simpa using ih
      | 1 => rw [show share 1 = 1 from rfl, beq_self_eq_true, if_pos rfl]; omega
      | w + 2 =>
          have heven : share (w + 2) = 2 * 2 ^ w := by rw [share_succ, Nat.pow_succ, Nat.mul_comm]
          rw [heven, if_neg (by simp)]
          omega

/-- What is left of a power of two by more than half of it, or by half. -/
private theorem highBit_of_add_eq {total k log : Nat} (hpos : total ≠ 0)
    (hsum : total + 2 ^ k = 2 ^ log) : highBit total + 1 = log := by
  have hlt : k < log := by
    rw [← Nat.pow_lt_pow_iff_right (show 1 < 2 by decide)]
    omega
  obtain ⟨m, rfl⟩ : ∃ m, log = m + 1 := ⟨log - 1, by omega⟩
  have hhalf : 2 ^ k ≤ 2 ^ m := Nat.pow_le_pow_right Nat.two_pos (Nat.lt_succ_iff.mp hlt)
  have hkpos := Nat.two_pow_pos k
  rw [Nat.pow_succ] at hsum
  have hlog : total.log2 = m := by
    rw [Nat.log2_eq_iff hpos, Nat.pow_succ]
    omega
  rw [highBit, hlog]

/-- **The last weight is found from the stored ones**, exactly if there is one that completes them. -/
theorem complete?_eq_some_iff {stored weights : List Nat} {log : Nat} :
    complete? stored = some (weights, log)
      ↔ ∃ last, Completes stored last log ∧ weights = stored ++ [last] := by
  have hsum : ∀ k, ((stored ++ [k + 1]).map share).sum = (stored.map share).sum + 2 ^ k := by
    intro k
    rw [List.map_append, List.sum_append, List.map_singleton, List.sum_singleton, share_succ]
  unfold complete?
  constructor
  · intro h
    dsimp only at h
    split at h
    · rename_i hconditions
      obtain ⟨hle, htotal, hlog, hmissing, hlongest, -⟩ := hconditions
      cases h
      have hlt : (stored.map share).sum < 2 ^ (highBit (stored.map share).sum + 1) :=
        Nat.lt_log2_self
      refine ⟨_, ⟨?_, sum_share_ne_zero_iff.mp htotal, Nat.le_add_left 1 _, ?_, hlog, hlongest⟩, rfl⟩
      · simpa using hle
      · rw [hsum, ← hmissing]
        omega
    · cases h
  · rintro ⟨last, h, rfl⟩
    obtain ⟨k, rfl⟩ : ∃ k, last = k + 1 := ⟨last - 1, by have := h.last_pos; omega⟩
    have htotal := sum_share_ne_zero_iff.mpr h.used
    have hfull := h.full
    rw [hsum] at hfull
    have hlog : highBit (stored.map share).sum + 1 = log := highBit_of_add_eq htotal hfull
    have hmissing : 2 ^ log - (stored.map share).sum = 2 ^ k := by
      rw [← hfull, Nat.add_sub_cancel_left]
    have hlast : highBit (2 ^ k) = k := Nat.log2_two_pow
    -- The power of two is even, and so is what the code words of the greatest length own.
    have heven : (stored ++ [k + 1]).count 1 % 2 = 0 := by
      have hdouble : 2 ^ log = 2 * 2 ^ (log - 1) := by
        rw [← Nat.pow_succ', Nat.succ_eq_add_one, Nat.sub_add_cancel (by omega)]
      rw [← sum_share_mod_two, h.full, hdouble, Nat.mul_mod_right]
    dsimp only
    rw [hlog, hmissing, hlast, if_pos ⟨by simpa using h.weight_le, htotal, h.log_le, rfl, h.longest,
      heven⟩]

end HuffmanTable

namespace Counts

/-! ### Counts -/

/-- How many states symbols own: a count of `-1` stands for one as well. -/
def owned (counts : Array Int) : Nat := (counts.toList.map Int.natAbs).sum

@[simp] theorem owned_push (counts : Array Int) (count : Int) :
    owned (counts.push count) = owned counts + count.natAbs := by
  simp [owned]

@[simp] theorem owned_pushZeros (counts : Array Int) (count : Nat) :
    owned (pushZeros counts count) = owned counts := by
  simp [owned, pushZeros]

/-- Counts that describe a table of `2 ^ log` states: every state has one owner. -/
structure Normalised (log : Nat) (counts : Array Int) : Prop where
  owned_eq : owned counts = 2 ^ log
  neg_one_le : ∀ count ∈ counts, -1 ≤ count

section Read

variable {bytes : ByteArray} {stop limit : Nat}

/-- Counts that stand for states. -/
private abbrev Meant (counts : Array Int) : Prop := ∀ count ∈ counts, -1 ≤ count

private theorem meant_pushZeros {counts : Array Int} (h : Meant counts) (more : Nat) :
    Meant (pushZeros counts more) := by
  intro count hmem
  rw [pushZeros, Array.mem_append] at hmem
  rcases hmem with hmem | hmem
  · exact h count hmem
  · rw [Array.eq_of_mem_replicate hmem]
    decide

private theorem meant_push {counts : Array Int} (h : Meant counts) {count : Int} (hcount : -1 ≤ count) :
    Meant (counts.push count) := by
  intro other hmem
  rcases Array.mem_push.mp hmem with hmem | rfl
  · exact h other hmem
  · exact hcount

/-- A run of zeros gives no states away. -/
private theorem zeroRun_spec (bytes : ByteArray) (stop : Nat) (c : Cursor) (counts : Array Int) (fuel : Nat) :
    owned (zeroRun bytes stop c counts fuel).2 = owned counts
      ∧ (Meant counts → Meant (zeroRun bytes stop c counts fuel).2) := by
  induction fuel generalizing c counts with
  | zero => exact ⟨rfl, id⟩
  | succ fuel ih =>
      rw [zeroRun]
      split
      · obtain ⟨howned, hmeant⟩ := ih (c.skipThree stop) (pushZeros counts 36)
        exact ⟨by rw [howned, owned_pushZeros], fun h => hmeant (meant_pushZeros h 36)⟩
      · exact ⟨owned_pushZeros _ _, fun h => meant_pushZeros h _⟩

private theorem skipZeros_spec {c place : Cursor} {counts known : Array Int} {afterZero : Bool}
    (h : skipZeros bytes stop c counts afterZero = (place, known)) :
    owned known = owned counts ∧ (Meant counts → Meant known) := by
  unfold skipZeros at h
  split at h
  · have hrun := zeroRun_spec bytes stop c counts (stop + 8)
    rwa [h] at hrun
  · cases h
    exact ⟨rfl, id⟩

private theorem neg_one_le_readOne (window : Nat) (r : Remaining) : -1 ≤ (readOne window r).1 := by
  unfold readOne
  dsimp only
  split
  · show -1 ≤ (_ : Int) - 1
    omega
  · show -1 ≤ (_ : Int) - 1
    omega

/-- What is taken is not left, unless more is taken than there is. -/
theorem Remaining.states_take (r : Remaining) (count : Int) :
    (r.take count).states = r.states - count.natAbs := by
  unfold take
  dsimp only
  split <;> rfl

/-- **Every state is left or given away** while counts are read, if one is left in the end. -/
private theorem readAll_spec {c : Cursor} {r : Remaining} {counts : Array Int} {afterZero : Bool}
    {result : Cursor × Remaining × Array Int}
    (h : readAll bytes stop limit c r counts afterZero = result) (hleft : 1 ≤ result.2.1.states) :
    owned result.2.2 + result.2.1.states = owned counts + r.states
      ∧ (Meant counts → Meant result.2.2) := by
  induction hmany : limit - counts.size using Nat.strongRecOn
    generalizing c r counts afterZero with
  | ind many ih =>
      have hgrown := size_le_skipZeros bytes stop c counts afterZero
      rw [readAll] at h
      rcases hskip : skipZeros bytes stop c counts afterZero with ⟨place, known⟩
      rw [hskip] at h hgrown
      obtain ⟨howned, hmeant⟩ := skipZeros_spec hskip
      dsimp only at h hgrown
      by_cases hmore : known.size < limit
      · rw [if_pos hmore] at h
        rcases hread : readOne ((if afterZero then place.refill stop else place).window bytes) r with
          ⟨count, used⟩
        have hcount : -1 ≤ count := by
          have hone := neg_one_le_readOne
            ((if afterZero then place.refill stop else place).window bytes) r
          rwa [hread] at hone
        have hstates := r.states_take count
        rw [hread] at h
        dsimp only at h
        by_cases hlast : (r.take count).states ≤ 1
        · rw [if_pos hlast] at h
          subst h
          refine ⟨?_, fun h => meant_push (hmeant h) hcount⟩
          dsimp only at hleft ⊢
          rw [owned_push]
          omega
        · rw [if_neg hlast] at h
          by_cases hfits : known.size + 1 < limit
          · rw [if_pos hfits] at h
            obtain ⟨hsum, hall⟩ := ih _ (by rw [Array.size_push]; omega) h rfl
            refine ⟨?_, fun h => hall (meant_push (hmeant h) hcount)⟩
            rw [hsum, owned_push]
            omega
          · rw [if_neg hfits] at h
            subst h
            refine ⟨?_, fun h => meant_push (hmeant h) hcount⟩
            dsimp only at hleft ⊢
            rw [owned_push]
            omega
      · rw [if_neg hmore] at h
        subst h
        exact ⟨by rw [howned], hmeant⟩

end Read

/-- A long description that is read is of at least `2 ^ 5` states, has no symbol too large, and is
normalised. -/
private theorem normalised_of_readLong? {bytes : ByteArray} {start stop maxSymbol : Nat} {c : Counts}
    (h : readLong? bytes start stop maxSymbol = some c) :
    5 ≤ c.log ∧ c.counts.size ≤ maxSymbol + 1 ∧ Normalised c.log c.counts := by
  unfold readLong? at h
  dsimp only at h
  split at h
  · cases h
  · rcases hread : readAll bytes stop (maxSymbol + 1) ⟨start, 4⟩
      ⟨2 ^ (littleEndian bytes start 4 % 16 + 5) + 1, littleEndian bytes start 4 % 16 + 5 + 1⟩ #[] false
      with ⟨place, r, counts⟩
    rw [hread] at h
    dsimp only at h
    split at h
    · rename_i hconditions
      obtain ⟨hleft, hsize, -⟩ := hconditions
      cases h
      obtain ⟨hsum, hmeant⟩ := readAll_spec hread (Nat.le_of_eq hleft.symm)
      have hempty : owned #[] = 0 := rfl
      dsimp only at hsum ⊢
      rw [hleft, hempty, Nat.zero_add, Nat.add_right_cancel_iff] at hsum
      refine ⟨Nat.le_add_left 5 _, hsize, hsum, hmeant fun count hmem => ?_⟩
      exact absurd hmem (Array.not_mem_empty count)
    · cases h

/-- **Counts that are read are normalised.** -/
theorem normalised_of_read? {bytes : ByteArray} {start stop maxSymbol : Nat} {c : Counts}
    (h : read? bytes start stop maxSymbol = some c) :
    5 ≤ c.log ∧ c.counts.size ≤ maxSymbol + 1 ∧ Normalised c.log c.counts := by
  unfold read? at h
  split at h
  · exact normalised_of_readLong? h
  · exact normalised_of_readLong? (Option.eq_some_of_filter_eq_some h)

end Counts

end SharedDictionary.Entropy
