/-!
# What can go wrong in the codec

Every failure of the codec has a number and a name.  The numbers are part of the format's interface:
a caller that only knows the number can still ask for the name.

## Main definitions

* `CodecError` — the failures
* `CodecError.number`, `CodecError.message` — their numbers and names
* `CodecError.messageOfNumber` — the name of a number, also of one that means no failure
-/

namespace SharedDictionary

/-- A failure of the codec. -/
inductive CodecError where
  | generic
  | unknownMagic
  | unsupportedVersion
  | unsupportedFrameParameter
  | windowTooLarge
  | corruption
  | wrongChecksum
  | wrongLiteralsHeader
  | corruptDictionary
  | wrongDictionary
  | dictionaryCreation
  | unsupportedParameter
  | unsupportedParameterCombination
  | parameterOutOfBound
  | tableTooLarge
  | symbolLimitTooLarge
  | symbolLimitTooSmall
  | notUncompressed
  | unstableBuffer
  | wrongStage
  | missingInit
  | allocation
  | workspaceTooSmall
  | outputTooSmall
  | wrongInputSize
  | nullOutput
  | noProgressOutputFull
  | noProgressInputEmpty
  | frameIndexTooLarge
  | seekFailed
  | wrongOutputBuffer
  | wrongInputBuffer
  | sequenceProducerFailed
  | invalidSequences
  deriving Repr, DecidableEq, Inhabited

namespace CodecError

/-- The number of a failure and its name. -/
def entry : CodecError → Nat × String
  | generic => (1, "Error (generic)")
  | unknownMagic => (10, "Unknown frame descriptor")
  | unsupportedVersion => (12, "Version not supported")
  | unsupportedFrameParameter => (14, "Unsupported frame parameter")
  | windowTooLarge => (16, "Frame requires too much memory for decoding")
  | corruption => (20, "Data corruption detected")
  | wrongChecksum => (22, "Restored data doesn't match checksum")
  | wrongLiteralsHeader =>
    (24, "Header of Literals' block doesn't respect format specification")
  | corruptDictionary => (30, "Dictionary is corrupted")
  | wrongDictionary => (32, "Dictionary mismatch")
  | dictionaryCreation => (34, "Cannot create Dictionary from provided samples")
  | unsupportedParameter => (40, "Unsupported parameter")
  | unsupportedParameterCombination => (41, "Unsupported combination of parameters")
  | parameterOutOfBound => (42, "Parameter is out of bound")
  | tableTooLarge => (44, "tableLog requires too much memory : unsupported")
  | symbolLimitTooLarge => (46, "Unsupported max Symbol Value : too large")
  | symbolLimitTooSmall => (48, "Specified maxSymbolValue is too small")
  | notUncompressed => (49, "This mode cannot generate an uncompressed block")
  | unstableBuffer => (50, "pledged buffer stability condition is not respected")
  | wrongStage => (60, "Operation not authorized at current processing stage")
  | missingInit => (62, "Context should be init first")
  | allocation => (64, "Allocation error : not enough memory")
  | workspaceTooSmall => (66, "workSpace buffer is not large enough")
  | outputTooSmall => (70, "Destination buffer is too small")
  | wrongInputSize => (72, "Src size is incorrect")
  | nullOutput => (74, "Operation on NULL destination buffer")
  | noProgressOutputFull =>
    (80, "Operation made no progress over multiple calls, due to output buffer being full")
  | noProgressInputEmpty =>
    (82, "Operation made no progress over multiple calls, due to input being empty")
  | frameIndexTooLarge => (100, "Frame index is too large")
  | seekFailed => (102, "An I/O error occurred when reading/seeking")
  | wrongOutputBuffer => (104, "Destination buffer is wrong")
  | wrongInputBuffer => (105, "Source buffer is wrong")
  | sequenceProducerFailed =>
    (106, "Block-level external sequence producer returned an error code")
  | invalidSequences => (107, "External sequences are not valid")

/-- The number of a failure. -/
def number (e : CodecError) : Nat := e.entry.1

/-- The name of a failure. -/
def message (e : CodecError) : String := e.entry.2

/-- All failures, by number. -/
def all : List CodecError :=
  [generic, unknownMagic, unsupportedVersion, unsupportedFrameParameter, windowTooLarge, corruption,
    wrongChecksum, wrongLiteralsHeader, corruptDictionary, wrongDictionary, dictionaryCreation,
    unsupportedParameter, unsupportedParameterCombination, parameterOutOfBound, tableTooLarge,
    symbolLimitTooLarge, symbolLimitTooSmall, notUncompressed, unstableBuffer, wrongStage,
    missingInit, allocation, workspaceTooSmall, outputTooSmall, wrongInputSize, nullOutput,
    noProgressOutputFull, noProgressInputEmpty, frameIndexTooLarge, seekFailed, wrongOutputBuffer,
    wrongInputBuffer, sequenceProducerFailed, invalidSequences]

/-- Numbers from here on are not reserved for failures. -/
def numberLimit : Nat := 120

/-- The name of a number: zero and the numbers from `numberLimit` on mean no failure. -/
def messageOfNumber (n : Nat) : String :=
  if n = 0 ∨ numberLimit ≤ n then "No error detected"
  else match all.find? (·.number == n) with
    | some e => e.message
    | none => "Unspecified error code"

theorem messageOfNumber_number (e : CodecError) : messageOfNumber e.number = e.message := by
  cases e <;> rfl

end CodecError

end SharedDictionary
