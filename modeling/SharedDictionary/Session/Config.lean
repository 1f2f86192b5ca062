import SharedDictionary.Text.Quoted

/-!
# Session parameters

A session is configured by parameters that may each be left open.

## Main definitions

* `SessionConfig` — the parameters
* `SessionConfig.standard` — every parameter at its default
* `SessionConfig.effectiveLevel` and its companions — the parameters as they are used
-/

namespace SharedDictionary

/-- The parameters of a session; one that is missing has its default. -/
structure SessionConfig where
  /-- The compression level, which a digested dictionary overrides. -/
  level : Option Int32
  /-- Frames end with a checksum of their content. -/
  checksum : Option Bool
  /-- Long distance matching. -/
  longDistance : Option Bool
  /-- The most content that a frame may have when it is decompressed. -/
  maxFrameSize : Option Nat
  deriving Repr, DecidableEq, Inhabited

namespace SessionConfig

/-- The default level (`DEFAULT_LEVEL`). -/
def defaultLevel : Int32 := 3

/-- The default limit of a frame's content (`DEFAULT_MAX_FRAME_SIZE`). -/
def defaultMaxFrameSize : Nat := 32 * 1024 * 1024

/-- Every parameter is given, at its default (`default`). -/
def standard : SessionConfig :=
  ⟨some defaultLevel, some true, some false, some defaultMaxFrameSize⟩

/-- The given level, and every other parameter at its default (`with_level`). -/
def withLevel (level : Int32) : SessionConfig := { standard with level := some level }

/-- The level in use (`level`). -/
def effectiveLevel (c : SessionConfig) : Int32 := c.level.getD defaultLevel

/-- Whether frames end with a checksum (`checksum`). -/
def usesChecksum (c : SessionConfig) : Bool := c.checksum.getD true

/-- Whether long distance matching is on (`long_distance_matching`). -/
def usesLongDistance (c : SessionConfig) : Bool := c.longDistance.getD false

/-- The limit of a frame's content (`max_frame_size`). -/
def frameLimit (c : SessionConfig) : Nat := c.maxFrameSize.getD defaultMaxFrameSize

/-- The diagnostic text of the parameters. -/
def diagnostic (c : SessionConfig) : String :=
  Text.fields "SessionConfig"
    [("level", Text.option (c.level.map fun l => toString l.toInt)),
      ("checksum", Text.option (c.checksum.map Text.bool)),
      ("long_distance_matching", Text.option (c.longDistance.map Text.bool)),
      ("max_frame_size", Text.option (c.maxFrameSize.map toString))]

end SessionConfig

end SharedDictionary
