import SharedDictionary.Binding.Calls
import SharedDictionary.Frame.Summary
import SharedDictionary.Handle.ScriptedEngine
import SharedDictionary.Session.ChunkStream
import SharedDictionary.Telemetry.SnapshotText
import SharedDictionary.Training
import SharedDictionary.Proofs.Session.Conduct
import SharedDictionary.Proofs.Session.Streaming
import SharedDictionary.Proofs.Handle.Alone
import SharedDictionary.Proofs.Handle.Chronicle
import SharedDictionary.Proofs.Handle.Watching
import SharedDictionary.Proofs.Handle.Logging
import SharedDictionary.Proofs.Handle.Accounting
import SharedDictionary.Proofs.Handle.FormatCheck
import SharedDictionary.Proofs.Handle.FormattedContent
import SharedDictionary.Proofs.Handle.Observing
import SharedDictionary.Proofs.Handle.Prewarm
import SharedDictionary.Proofs.Session.RawContent
import SharedDictionary.Proofs.Session.Concatenation
import SharedDictionary.Proofs.Session.Identifiers
import SharedDictionary.Proofs.Session.Interchange
import SharedDictionary.Proofs.Session.WrittenFrames
import SharedDictionary.Proofs.Session.Mismatch
import SharedDictionary.Proofs.Binding.RoundTrip
import SharedDictionary.Proofs.Telemetry.SnapshotRoundTrip
import SharedDictionary.Proofs.Handle.Progress
import SharedDictionary.Proofs.Handle.Snapshots
import SharedDictionary.Proofs.Handle.SoleThread
import SharedDictionary.Proofs.Session.TrailingFrames
import SharedDictionary.Proofs.Session.Truncation
import SharedDictionary.Proofs.Session.Padding
import SharedDictionary.Proofs.Session.SizeLimit
import SharedDictionary.Proofs.Session.Chunking
import SharedDictionary.Proofs.Handle.Failing
import SharedDictionary.Proofs.Session.OutputBound
import SharedDictionary.Proofs.Session.Overflow
import SharedDictionary.Proofs.Session.Termination
import SharedDictionary.Proofs.Session.Trained
import SharedDictionary.Proofs.Binding.DictionaryArgument
import SharedDictionary.Proofs.Binding.BytesArgument
import SharedDictionary.Proofs.Telemetry.HitShare
