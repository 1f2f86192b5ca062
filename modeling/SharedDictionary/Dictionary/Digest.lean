import SharedDictionary.Dictionary.Content
import SharedDictionary.Error

/-!
# Checking and digesting dictionaries

Content that is not declared raw must be a dictionary of the format.  Whatever the declaration says,
content that opens with the magic number is digested as a formatted dictionary, and so the digest of
raw content can still fail.

## Main definitions

* `checkFormat` — the format check
* `CompressionDigest`, `DecompressionDigest` — digested dictionaries
* `buildDigest`, `buildDecoderDigest` — build them

## Design decisions

* The codec has two loaders, one for compressors and one for decompressors.  They read the same tables
  with the same limits, and accept the same content.  So one loader stands for both
  (`LoadedDictionary.load?`): the format check, the digest for a level and the digest of the decoder
  refuse tables alike.
* Memory is taken for granted, so that content without a header is always loaded.
-/

namespace SharedDictionary

/-- Checks that content is a dictionary of the format, unless it is declared raw (`check_format`).
The first condition that fails is reported: the header, the magic number, an identifier other than
zero, the tables. -/
def checkFormat (content : ByteArray) (isRaw : Bool) : Except DictError Unit :=
  if isRaw then .ok ()
  else if content.size < Dictionary.headerLength then
    .error (.badFormat (toString content.size ++ " bytes is shorter than the "
      ++ toString Dictionary.headerLength ++ "-byte dictionary header"))
  else if !Dictionary.hasMagic content then
    .error (.badFormat
      "missing dictionary magic number, pass is_raw=true for raw content")
  else if Dictionary.readId content = 0 then .error (.badFormat "dictionary id is zero")
  else if (LoadedDictionary.load? content).isNone then
    .error (.badFormat "zstd rejected the dictionary entropy tables")
  else .ok ()

/-- A dictionary prepared for compression at a level (`ZstdDigested`). -/
structure CompressionDigest where
  level : Int32
  dict : LoadedDictionary
  deriving Inhabited

/-- A dictionary prepared for decompression (`ZstdDecoderDigested`). -/
structure DecompressionDigest where
  dict : LoadedDictionary
  deriving Inhabited

/-- The error of a digest that cannot be built: only formatted content has tables to refuse
(`load_failure`). -/
def loadFailure (content : ByteArray) (what : String) : DictError :=
  if Dictionary.hasMagic content then
    .badFormat ("zstd rejected the dictionary tables while building a " ++ what)
  else .allocation what

/-- Builds the digest for a level (`materialize`). -/
def buildDigest (content : ByteArray) (level : Int32) : Except DictError CompressionDigest :=
  match LoadedDictionary.load? content with
  | some dict => .ok ⟨level, dict⟩
  | none => .error (loadFailure content "digested compression dictionary")

/-- Builds the digest of the decoder (`materialize_decoder`). -/
def buildDecoderDigest (content : ByteArray) : Except DictError DecompressionDigest :=
  match LoadedDictionary.load? content with
  | some dict => .ok ⟨dict⟩
  | none => .error (loadFailure content "digested decompression dictionary")

/-- The diagnostic text of a digest. -/
def CompressionDigest.diagnostic (d : CompressionDigest) : String :=
  Text.someFields "ZstdDigested" [("level", toString d.level.toInt)]

/-- The diagnostic text of a decoder's digest, which shows nothing of it. -/
def DecompressionDigest.diagnostic (_ : DecompressionDigest) : String :=
  Text.someFields "ZstdDecoderDigested" []

end SharedDictionary
