import SharedDictionary.Handle.Engine

/-!
# An engine that follows a script

The cache of a handle matters most where builds fail, break off, or request other digests.  This
engine does all of that as a script says, and keeps a record of what it was asked.

## Main definitions

* `EngineScript` — what the engine does
* `ScriptState` — what is left of the script, and the record
* `scriptedEngine` — the engine
-/

namespace SharedDictionary

/-- What a scripted engine does. -/
structure EngineScript where
  /-- The bytes that content must start with unless it is raw. -/
  tag : Option ByteArray
  /-- The reason for which every check fails. -/
  formatFails : Option String
  /-- The levels that the build for a level requests. -/
  nested : List (Int32 × List Int32)
  /-- The levels that the build for the decoder requests. -/
  decoderNested : List Int32
  /-- Every build records what the handle shows. -/
  probe : Bool

/-- What a build saw of its handle: the level and its state, for the decoder neither, and the cached
levels. -/
structure Probe where
  building : Option (Int32 × DigestState)
  cached : List Int32

/-- A number for every level, zero where none is given. -/
abbrev LevelCounts := List (Int32 × Nat)

/-- The number of a level. -/
def LevelCounts.get (counts : LevelCounts) (level : Int32) : Nat := (counts.lookup level).getD 0

/-- Sets the number of a level. -/
def LevelCounts.set (counts : LevelCounts) (level : Int32) (n : Nat) : LevelCounts :=
  (level, n) :: counts.filter (·.1 != level)

/-- The numbers by level, ascending. -/
def LevelCounts.sorted (counts : LevelCounts) : LevelCounts :=
  counts.mergeSort fun a b => decide (a.1 ≤ b.1)

/-- What is left of a script, and the record of what was asked. -/
structure ScriptState where
  /-- How many checks still break off. -/
  formatPanics : Nat
  /-- How many builds for a level still break off. -/
  panics : LevelCounts
  /-- How many builds for a level still fail. -/
  failures : LevelCounts
  decoderPanics : Nat
  decoderFailures : Nat
  formatChecks : Nat
  attempts : LevelCounts
  built : LevelCounts
  decoderAttempts : Nat
  /-- What builds saw, the latest first. -/
  probes : List Probe

/-- An artifact of a scripted engine. -/
structure ScriptedArtifact where
  level : Option Int32
  serial : Nat
  deriving Repr, DecidableEq

namespace EngineScript

/-- Content starts with the given bytes. -/
def startsWith (content tag : ByteArray) : Bool :=
  tag.size ≤ content.size && content.extract 0 tag.size == tag

/-- Answers a format check. -/
def check (script : EngineScript) (s : ScriptState) (content : ByteArray) (isRaw : Bool) :
    Verdict Unit × ScriptState :=
  let s := { s with formatChecks := s.formatChecks + 1 }
  if 0 < s.formatPanics then
    (.panicked "scripted format panic", { s with formatPanics := s.formatPanics - 1 })
  else
    match script.formatFails with
    | some reason => (.failed (.badFormat reason), s)
    | none =>
      if !isRaw && script.tag.any (!startsWith content ·) then
        (.failed (.badFormat "missing tag"), s)
      else (.success (), s)

/-- Starts a build. -/
def prepare {A D : Type} (script : EngineScript) (s : ScriptState) (h : Handle A D)
    (target : BuildTarget) : List Int32 × ScriptState :=
  let (building, levels, s) := match target with
    | .level level =>
      (some (level, h.digestState level), (script.nested.lookup level).getD [],
        { s with attempts := s.attempts.set level (s.attempts.get level + 1) })
    | .decoder =>
      (none, script.decoderNested, { s with decoderAttempts := s.decoderAttempts + 1 })
  (levels,
    if script.probe then { s with probes := ⟨building, h.cachedLevels⟩ :: s.probes } else s)

/-- Ends the build for a level: it breaks off, fails or succeeds, in this order as long as the
script says so. -/
def build (s : ScriptState) (level : Int32) : Verdict ScriptedArtifact × ScriptState :=
  if 0 < s.panics.get level then
    (.panicked "scripted panic", { s with panics := s.panics.set level (s.panics.get level - 1) })
  else if 0 < s.failures.get level then
    (.failed (.allocation ("fake digest " ++ Snapshot.levelText level)),
      { s with failures := s.failures.set level (s.failures.get level - 1) })
  else
    let serial := s.built.get level + 1
    (.success ⟨some level, serial⟩, { s with built := s.built.set level serial })

/-- Ends the build for the decoder. -/
def buildDecoder (s : ScriptState) : Verdict ScriptedArtifact × ScriptState :=
  if 0 < s.decoderPanics then
    (.panicked "scripted decoder panic", { s with decoderPanics := s.decoderPanics - 1 })
  else if 0 < s.decoderFailures then
    (.failed (.allocation "fake decoder"), { s with decoderFailures := s.decoderFailures - 1 })
  else (.success ⟨none, s.decoderAttempts⟩, s)

/-- How deep builds can nest without waiting for themselves. -/
def depth (script : EngineScript) : Nat := script.nested.length + 2

end EngineScript

/-- The engine of a script. -/
def scriptedEngine (script : EngineScript) :
    Engine ScriptState ScriptedArtifact ScriptedArtifact where
  check := script.check
  prepare := script.prepare
  build s _ level := EngineScript.build s level
  buildDecoder s _ := EngineScript.buildDecoder s

end SharedDictionary
