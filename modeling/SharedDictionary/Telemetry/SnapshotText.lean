import SharedDictionary.Telemetry.Snapshot
import SharedDictionary.Text.Json

/-!
# Reading snapshots

A snapshot is read from an object that has every field exactly once, in any order and among members
with other names, or from an array of the fields in their order.

## Main definitions

* `SnapshotField` — the fields, by name
* `Snapshot.parse` — reads a whole text
-/

namespace SharedDictionary

open SharedDictionary.Json

/-- The fields of a snapshot. -/
inductive SnapshotField where
  | dictId
  | dictSize
  | isRaw
  | cachedLevels
  | formatChecks
  | digestsBuilt
  | digestHits
  | digestFailures
  | decoderDigestsBuilt
  | undigestedLoads
  | prefixLoads
  deriving Repr, DecidableEq

namespace SnapshotField

/-- The fields in their order. -/
def all : List SnapshotField :=
  [dictId, dictSize, isRaw, cachedLevels, formatChecks, digestsBuilt, digestHits, digestFailures,
    decoderDigestsBuilt, undigestedLoads, prefixLoads]

/-- The name of a field. -/
def name : SnapshotField → String
  | dictId => "dict_id"
  | dictSize => "dict_size"
  | isRaw => "is_raw"
  | cachedLevels => "cached_levels"
  | formatChecks => "format_checks"
  | digestsBuilt => "digests_built"
  | digestHits => "digest_hits"
  | digestFailures => "digest_failures"
  | decoderDigestsBuilt => "decoder_digests_built"
  | undigestedLoads => "undigested_loads"
  | prefixLoads => "prefix_loads"

/-- The field with a name. -/
def ofName? (name : String) : Option SnapshotField := all.find? (·.name == name)

end SnapshotField

namespace Snapshot

/-- Reads a level. -/
def readLevel (cs : List Char) : Reading Int32 :=
  (readWhole (-2 ^ 31) (2 ^ 31 - 1) cs).map fun (value, rest) => (Int32.ofInt value, rest)

/-- Reads a counter. -/
def readCounter (cs : List Char) : Reading UInt64 :=
  (readUnsigned 64 cs).map fun (value, rest) => (UInt64.ofNat value, rest)

/-- Sets a counter to a value that is read. -/
def readInto (s : Snapshot) (set : Counters → UInt64 → Counters) (cs : List Char) :
    Reading Snapshot :=
  (readCounter cs).map fun (value, rest) => ({ s with counters := set s.counters value }, rest)

/-- Reads the value of a field into a snapshot. -/
def readField (s : Snapshot) (field : SnapshotField) (cs : List Char) : Reading Snapshot :=
  match field with
  | .dictId =>
    (readUnsigned 32 cs).map fun (value, rest) => ({ s with dictId := UInt32.ofNat value }, rest)
  | .dictSize =>
    (readUnsigned 64 cs).map fun (value, rest) => ({ s with dictSize := UInt64.ofNat value }, rest)
  | .isRaw => (Json.readBool cs).map fun (value, rest) => ({ s with isRaw := value }, rest)
  | .cachedLevels =>
    (Json.readArray readLevel cs).map fun (value, rest) => ({ s with cachedLevels := value }, rest)
  | .formatChecks => s.readInto (fun c value => { c with formatChecks := value }) cs
  | .digestsBuilt => s.readInto (fun c value => { c with digestsBuilt := value }) cs
  | .digestHits => s.readInto (fun c value => { c with digestHits := value }) cs
  | .digestFailures => s.readInto (fun c value => { c with digestFailures := value }) cs
  | .decoderDigestsBuilt => s.readInto (fun c value => { c with decoderDigestsBuilt := value }) cs
  | .undigestedLoads => s.readInto (fun c value => { c with undigestedLoads := value }) cs
  | .prefixLoads => s.readInto (fun c value => { c with prefixLoads := value }) cs

/-- Reads the elements of an array into the given fields; there must be one for each. -/
def readListed (s : Snapshot) (first : Bool) (cs : List Char) :
    (fields : List SnapshotField) → Reading Snapshot
  | [] => (endArray cs).map fun rest => (s, rest)
  | field :: fields =>
    match nextElement first cs with
    | .error e => .error e
    | .ok none => .error .unfit
    | .ok (some cs) =>
      match s.readField field cs with
      | .error e => .error e
      | .ok (s, rest) => readListed s false rest fields

/-- Reads the members of an object.  A field must not come twice, and at the end none may be
missing.  Members of other names are skipped.  Every member takes at least one character, and
`fuel` is greater than their number. -/
def readMembers (s : Snapshot) (known : List SnapshotField) (first : Bool) (cs : List Char) :
    (fuel : Nat) → Reading Snapshot
  | 0 => .error .unfinished
  | fuel + 1 =>
    match nextKey first cs with
    | .error e => .error e
    | .ok none =>
      if SnapshotField.all.all (known.contains ·) then .ok (s, (skipSpace cs).drop 1)
      else .error .unfit
    | .ok (some cs) =>
      match readString cs with
      | .error e => .error e
      | .ok (name, rest) =>
        match SnapshotField.ofName? name with
        | none =>
          match readColon rest with
          | .error e => .error e
          | .ok rest =>
            match skipValue rest with
            | .error e => .error e
            | .ok rest => readMembers s known false rest fuel
        | some field =>
          if known.contains field then .error .unfit
          else
            match readColon rest with
            | .error e => .error e
            | .ok rest =>
              match s.readField field rest with
              | .error e => .error e
              | .ok (s, rest) => readMembers s (field :: known) false rest fuel

/-- Reads a snapshot at the start of a text. -/
def read (cs : List Char) : Reading Snapshot :=
  match skipSpace cs with
  | '[' :: rest => readListed default true rest SnapshotField.all
  | '\x7b' :: rest => readMembers default [] true rest (rest.length + 1)
  | cs => .error (misfit cs)

/-- Reads a whole text. -/
def parse (text : String) : Except Failure Snapshot :=
  match read text.toList with
  | .error e => .error e
  | .ok (s, rest) => if (skipSpace rest).isEmpty then .ok s else .error .malformed

end Snapshot

end SharedDictionary
