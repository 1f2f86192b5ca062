import SharedDictionary.Text.Quoted

/-!
# Counters of a dictionary

A dictionary counts how often it was asked for its views and what that cost.

## Main definitions

* `Counters` — the counters
* `CounterEvent`, `Counters.record` — what is counted
-/

namespace SharedDictionary

/-- The counters of a dictionary (`DictCounters`). -/
structure Counters where
  formatChecks : UInt64
  digestsBuilt : UInt64
  digestHits : UInt64
  digestFailures : UInt64
  decoderDigestsBuilt : UInt64
  undigestedLoads : UInt64
  prefixLoads : UInt64
  deriving Repr, DecidableEq, Inhabited

/-- What is counted. -/
inductive CounterEvent where
  /-- The engine was asked to check the format (`record_format_check`). -/
  | formatCheck
  /-- A digested dictionary was built (`record_digest`). -/
  | digestBuilt
  /-- A digested dictionary was found (`record_digest`). -/
  | digestHit
  /-- A digested dictionary could not be had (`record_digest_failure`). -/
  | digestFailure
  /-- The decoder's digested dictionary was built (`record_decoder_digest`). -/
  | decoderBuilt
  /-- An undigested view was handed out (`record_undigested`). -/
  | undigestedLoad
  /-- A prefix view was handed out (`record_prefix`). -/
  | prefixLoad
  deriving Repr, DecidableEq, Inhabited

namespace Counters

/-- Nothing was counted yet. -/
def zero : Counters := ⟨0, 0, 0, 0, 0, 0, 0⟩

/-- Counts one event. -/
def record (c : Counters) : CounterEvent → Counters
  | .formatCheck => { c with formatChecks := c.formatChecks + 1 }
  | .digestBuilt => { c with digestsBuilt := c.digestsBuilt + 1 }
  | .digestHit => { c with digestHits := c.digestHits + 1 }
  | .digestFailure => { c with digestFailures := c.digestFailures + 1 }
  | .decoderBuilt => { c with decoderDigestsBuilt := c.decoderDigestsBuilt + 1 }
  | .undigestedLoad => { c with undigestedLoads := c.undigestedLoads + 1 }
  | .prefixLoad => { c with prefixLoads := c.prefixLoads + 1 }

/-- The names and values of the counters, in order. -/
def entries (c : Counters) : List (String × UInt64) :=
  [("format_checks", c.formatChecks), ("digests_built", c.digestsBuilt),
    ("digest_hits", c.digestHits), ("digest_failures", c.digestFailures),
    ("decoder_digests_built", c.decoderDigestsBuilt), ("undigested_loads", c.undigestedLoads),
    ("prefix_loads", c.prefixLoads)]

/-- The diagnostic text of the counters. -/
def diagnostic (c : Counters) : String :=
  Text.fields "CounterValues" (c.entries.map fun (name, value) => (name, toString value))

end Counters

end SharedDictionary
