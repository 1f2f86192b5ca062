import SharedDictionary.Proofs.Handle.Accounting
import SharedDictionary.Proofs.Telemetry.SnapshotRoundTrip

/-!
# The share of the hits

The share of the look-ups that found a cached digest is taken of a sum, and the sum of two counters may not fit a
counter.  Where it fits, the hits are a share of the look-ups (`Snapshot.ShowsShare`).  Where it does not fit, the
program ends if it checks its sums; if it does not, fewer look-ups are left than there are hits
(`Snapshot.lookups_lt_of_overflow`).

The counters of a handle are bumped by one for every call, so that the sum fits as long as the calls do
(`Handle.lookups_le_run`).  A snapshot that is read from a text may have any counters, and such a text is read like
any other.

The main result is `Snapshot.showsShare_iff_fits`.
-/

namespace SharedDictionary

namespace Snapshot

variable {s : Snapshot}

/-- What becomes of a sum that does not fit a counter. -/
inductive Overflow where
  /-- The program ends. -/
  | checked
  /-- The sum loses what does not fit. -/
  | wrapping
  deriving DecidableEq

/-- The look-ups of a snapshot, before anything is known of their number. -/
def lookupSum (s : Snapshot) : Nat := s.counters.digestsBuilt.toNat + s.counters.digestHits.toNat

/-- How a program adds the look-ups up. -/
def lookupsUnder (s : Snapshot) : Overflow → Except Fault UInt64
  | .checked => if s.lookupSum < 2 ^ 64 then .ok s.lookups else .error (.panic "attempt to add with overflow")
  | .wrapping => .ok s.lookups

/-- The hits are a share of the look-ups, which are none only if nothing was counted, and every program comes
to them. -/
structure ShowsShare (s : Snapshot) : Prop where
  toNat_lookups : s.lookups.toNat = s.counters.digestsBuilt.toNat + s.counters.digestHits.toNat
  hits_le : s.counters.digestHits ≤ s.lookups
  eq_zero_iff : s.lookups = 0 ↔ s.counters.digestsBuilt = 0 ∧ s.counters.digestHits = 0
  returns : ∀ overflow, s.lookupsUnder overflow = .ok s.lookups

theorem toNat_lookups_eq_mod (s : Snapshot) : s.lookups.toNat = s.lookupSum % 2 ^ 64 := UInt64.toNat_add _ _

/-- **A sum that fits shows the share.** -/
theorem showsShare_of_fits (h : s.lookupSum < 2 ^ 64) : s.ShowsShare := by
  have hsum : s.lookups.toNat = s.lookupSum := s.toNat_lookups_eq_mod.trans (Nat.mod_eq_of_lt h)
  refine ⟨hsum, ?_, ?_, fun overflow => ?_⟩
  · rw [UInt64.le_iff_toNat_le, hsum]
    exact Nat.le_add_left _ _
  · simp only [← UInt64.toNat_inj, hsum, lookupSum, UInt64.toNat_zero]
    omega
  · cases overflow with
    | checked => exact if_pos h
    | wrapping => rfl

/-- **A sum that does not fit is less than the hits**, as what it loses is more than any number of built
digests. -/
theorem lookups_lt_of_overflow (h : 2 ^ 64 ≤ s.lookupSum) : s.lookups < s.counters.digestHits := by
  have hbuilt : s.counters.digestsBuilt.toNat < 2 ^ 64 := s.counters.digestsBuilt.toNat_lt
  have hhits : s.counters.digestHits.toNat < 2 ^ 64 := s.counters.digestHits.toNat_lt
  have hsum := s.toNat_lookups_eq_mod
  rw [UInt64.lt_iff_toNat_lt, hsum]
  unfold lookupSum at h ⊢
  omega

/-- **A snapshot is read from its own text**, whatever its counters are. -/
theorem parse_own_json (s : Snapshot) : parse s.json = .ok s := by
  rw [← text_document]
  exact (parse_document_eq_ok_iff s.document s).mpr s.denotes_document

end Snapshot

variable {A D : Type}

/-- **A handle has no more look-ups than calls**, as long as their number fits a counter. -/
theorem Handle.lookups_le_run (content : ByteArray) (isRaw : Bool) (inputs : List (Input A D))
    (hcalls : ((Handle.new content isRaw).chronicle inputs).countP Happening.isCall < 2 ^ 64) :
    ((Handle.new content isRaw).run inputs).snapshot.lookupSum
      ≤ ((Handle.new content isRaw).chronicle inputs).countP Happening.isCall := by
  have hlookups := (Handle.accounts_run content isRaw inputs hcalls).lookups
  have hended := (Handle.balances_run (Handle.new content isRaw) inputs).1
  have hreturned : ((Handle.new content isRaw : Handle A D).chronicle inputs).countP Happening.isLookup
      ≤ ((Handle.new content isRaw).chronicle inputs).countP Happening.isEnd := by
    refine List.countP_mono_left fun happening _ hlookup => ?_
    cases happening <;> first | rfl | cases hlookup
  have hends : ((Handle.new content isRaw : Handle A D).chronicle inputs).countP Happening.isEnd
      ≤ ((Handle.new content isRaw).chronicle inputs).countP Happening.isCall :=
    Nat.le_trans (Nat.le_add_right _ _) (Nat.le_of_eq hended)
  show ((Handle.new content isRaw).run inputs).counters.digestsBuilt.toNat
    + ((Handle.new content isRaw).run inputs).counters.digestHits.toNat ≤ _
  omega

namespace Snapshot

/-- **The hits are a share of the look-ups exactly where the sum of the counters fits a counter.**

Elsewhere fewer look-ups are left than there are hits, or the program ends.  There are such snapshots: each is read
from its own text.  But no handle comes to one, unless its calls are more than a counter holds. -/
theorem showsShare_iff_fits (A D : Type) :
    (∀ s : Snapshot, s.ShowsShare
        ↔ s.counters.digestsBuilt.toNat + s.counters.digestHits.toNat < 2 ^ 64)
      ∧ (∀ s : Snapshot, ¬s.ShowsShare →
        s.lookups < s.counters.digestHits
          ∧ s.lookupsUnder .checked = .error (.panic "attempt to add with overflow")
          ∧ parse s.json = .ok s)
      ∧ ∀ (content : ByteArray) (isRaw : Bool) (inputs : List (Handle.Input A D)),
        ((Handle.new content isRaw).chronicle inputs).countP Happening.isCall < 2 ^ 64 →
          ((Handle.new content isRaw).run inputs).snapshot.ShowsShare := by
  have hiff : ∀ s : Snapshot, s.ShowsShare ↔ s.lookupSum < 2 ^ 64 := by
    refine fun s => ⟨fun hshare => ?_, showsShare_of_fits⟩
    rw [lookupSum, ← hshare.toNat_lookups]
    exact s.lookups.toNat_lt
  refine ⟨hiff, fun s hover => ?_, fun content isRaw inputs hcalls => ?_⟩
  · rw [hiff] at hover
    exact ⟨lookups_lt_of_overflow (Nat.not_lt.mp hover), if_neg hover, parse_own_json s⟩
  · exact showsShare_of_fits (Nat.lt_of_le_of_lt (Handle.lookups_le_run content isRaw inputs hcalls) hcalls)

/-- Counters that add up to more than a counter holds, and a handle that has built a digest and found it. -/
theorem showsShare_iff_fits_bounds :
    let s : Snapshot := ⟨7, 4096, false, [3], { Counters.zero with digestsBuilt := 2, digestHits := -1 }⟩
    let h : Handle Unit Unit := .new ⟨#[1, 2, 3]⟩ true
    let inputs : List (Handle.Input Unit Unit) :=
      [.call (.digested 3), .checked (.success ()), .built (.success ()), .call (.digested 3)]
    (¬s.ShowsShare ∧ s.lookups < s.counters.digestHits ∧ parse s.json = .ok s)
      ∧ (h.chronicle inputs).countP Happening.isCall < 2 ^ 64
      ∧ (h.run inputs).snapshot.lookups = 2 ∧ (h.run inputs).snapshot.ShowsShare := by
  intro s h inputs
  obtain ⟨hiff, hover, hrun⟩ := showsShare_iff_fits Unit Unit
  have hnot : ¬s.ShowsShare := fun hshare => absurd ((hiff s).mp hshare) (by decide +kernel)
  obtain ⟨hless, -, hread⟩ := hover s hnot
  have hcalls : (h.chronicle inputs).countP Happening.isCall < 2 ^ 64 := by decide +kernel
  exact ⟨⟨hnot, hless, hread⟩, hcalls, by decide +kernel, hrun _ _ _ hcalls⟩

/-- **The hits need not be a share**: half of the look-ups that a text tells of are hits, but none are left to
divide by, or the program ends. -/
theorem hitRatio_overflows :
    ∃ s : Snapshot,
      parse ("\x7b\"dict_id\":7,\"dict_size\":4096,\"is_raw\":false,\"cached_levels\":[3],\"format_checks\":1,"
          ++ "\"digests_built\":9223372036854775808,\"digest_hits\":9223372036854775808,\"digest_failures\":0,"
          ++ "\"decoder_digests_built\":0,\"undigested_loads\":0,\"prefix_loads\":0\x7d") = .ok s
        ∧ 2 * s.counters.digestHits.toNat = s.lookupSum
        ∧ s.lookups = 0 ∧ s.counters.digestHits ≠ 0 ∧ ¬s.counters.digestHits ≤ s.lookups ∧ s.hitRatio = 0
        ∧ s.lookupsUnder .checked = .error (.panic "attempt to add with overflow") := by
  let s : Snapshot := ⟨7, 4096, false, [3],
    ⟨1, 9223372036854775808, 9223372036854775808, 0, 0, 0, 0⟩⟩
  have htext : s.json
      = "\x7b\"dict_id\":7,\"dict_size\":4096,\"is_raw\":false,\"cached_levels\":[3],\"format_checks\":1,"
          ++ "\"digests_built\":9223372036854775808,\"digest_hits\":9223372036854775808,\"digest_failures\":0,"
          ++ "\"decoder_digests_built\":0,\"undigested_loads\":0,\"prefix_loads\":0\x7d" := by
    decide +kernel
  refine ⟨s, ?_, by decide +kernel, by decide +kernel, by decide +kernel, by decide +kernel,
    if_pos (by decide +kernel), by decide +kernel⟩
  rw [← htext]
  exact parse_own_json s

end Snapshot

end SharedDictionary
