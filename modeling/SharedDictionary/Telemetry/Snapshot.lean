import SharedDictionary.Telemetry.Counters

/-!
# Snapshots of a dictionary

A snapshot is what a dictionary shows of itself at one moment: its identity, the levels of its
cached digests and its counters.

## Main definitions

* `Snapshot` — a snapshot
* `Snapshot.hitRatio` — the share of successful look-ups that found a cached digest
* `Snapshot.isSane` — every cached digest was built once
* `Snapshot.json` — the text of a snapshot
-/

namespace SharedDictionary

/-- What a dictionary shows of itself (`DictSnapshot`). -/
structure Snapshot where
  dictId : UInt32
  dictSize : UInt64
  isRaw : Bool
  cachedLevels : List Int32
  counters : Counters
  deriving Repr, DecidableEq, Inhabited

namespace Snapshot

/-- The successful look-ups of a digest. -/
def lookups (s : Snapshot) : UInt64 := s.counters.digestsBuilt + s.counters.digestHits

/-- The share of the successful look-ups that found a cached digest, zero if there were none
(`digest_hit_ratio`). -/
def hitRatio (s : Snapshot) : Float :=
  if s.lookups = 0 then 0 else s.counters.digestHits.toFloat / s.lookups.toFloat

/-- As many digests were built as are cached (`sanity_check`). -/
def isSane (s : Snapshot) : Bool :=
  s.counters.digestsBuilt == UInt64.ofNat s.cachedLevels.length

/-- The text of a level. -/
def levelText (level : Int32) : String := toString level.toInt

/-- The members of the text, in order, each with its value. -/
def members (s : Snapshot) : List (String × String) :=
  [("dict_id", toString s.dictId), ("dict_size", toString s.dictSize),
    ("is_raw", Text.bool s.isRaw),
    ("cached_levels", "[" ++ String.intercalate "," (s.cachedLevels.map levelText) ++ "]")]
    ++ s.counters.entries.map fun (name, value) => (name, toString value)

/-- The text of a snapshot: an object with a member for every field (`to_json`). -/
def json (s : Snapshot) : String :=
  "\x7b" ++ String.intercalate "," (s.members.map fun (name, value) =>
    "\"" ++ name ++ "\":" ++ value) ++ "\x7d"

end Snapshot

end SharedDictionary
