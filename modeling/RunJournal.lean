import RunJournal.Number.Binary64
import RunJournal.Number.Shortest
import RunJournal.Number.Fixed
import RunJournal.Json.Value
import RunJournal.Json.Write
import RunJournal.Json.Read
import RunJournal.Json.Decode
import RunJournal.Time.Instant
import RunJournal.Time.Rfc3339
import RunJournal.Digest.Sha256
import RunJournal.Number.Word
import RunJournal.Trace.Status
import RunJournal.Trace.Step
import RunJournal.Trace.Basic
import RunJournal.Trace.Codec
import RunJournal.Units
import RunJournal.Disk.IoError
import RunJournal.Store.Error
import RunJournal.Trace.Event
import RunJournal.Trace.Apply
import RunJournal.Diff.Basic
import RunJournal.Diff.Report
import RunJournal.Replay.Timeline
import RunJournal.Replay.Report
import RunJournal.Baseline.Approval
import RunJournal.Yaml.Text
import RunJournal.Yaml.Token
import RunJournal.Yaml.Scalar
import RunJournal.Yaml.Scan
import RunJournal.Yaml.Event
import RunJournal.Yaml.Load
import RunJournal.Yaml.Resolve
import RunJournal.Yaml.Decode
import RunJournal.Yaml.Write
import RunJournal.Baseline.Record
import RunJournal.Toml.Read
import RunJournal.Disk.Path
import RunJournal.Config.Settings
import RunJournal.Disk.Fs
import RunJournal.World
import RunJournal.Store.Log
import RunJournal.Store.Runs
import RunJournal.Baseline.Error
import RunJournal.Baseline.Lock
import RunJournal.Baseline.Manager
import RunJournal.Cli.Similar
import RunJournal.Cli.Grammar
import RunJournal.Cli.Help
import RunJournal.Cli.Parse
import RunJournal.Cli.Ledger
import RunJournal.Cli.Run
import RunJournal.Main
import RunJournal.Proofs.Path
import RunJournal.Proofs.Disk
import RunJournal.Proofs.World
import RunJournal.Proofs.LogText
import RunJournal.Proofs.TornAppends
import RunJournal.Proofs.Frame
import RunJournal.Proofs.StoreReads
import RunJournal.Proofs.Lifecycle
import RunJournal.Proofs.JsonText
import RunJournal.Proofs.JsonRead
import RunJournal.Proofs.JsonDecode
import RunJournal.Proofs.JsonCut
import RunJournal.Proofs.TraceCodec
import RunJournal.Proofs.EventFraming
import RunJournal.Proofs.Approval
import RunJournal.Proofs.Footprint
import RunJournal.Proofs.Recording
import RunJournal.Proofs.CatchUp
import RunJournal.Proofs.Counters
import RunJournal.Proofs.Refusals
import RunJournal.Proofs.Widths
import RunJournal.Proofs.StoredTraces
import RunJournal.Proofs.WholeLogs
import RunJournal.Proofs.MakeDirs
import RunJournal.Proofs.RunFiles
import RunJournal.Proofs.Divergence
import RunJournal.Proofs.Changes
import RunJournal.Proofs.AgentMatching
import RunJournal.Proofs.RunOps
import RunJournal.Proofs.Saturation
import RunJournal.Proofs.StoreCalls
import RunJournal.Proofs.Histories
import RunJournal.Proofs.LockedRuns
import RunJournal.Proofs.Verification
import RunJournal.Proofs.Orientation
import RunJournal.Proofs.ReplayLayout
import RunJournal.Proofs.RememberedTails
import RunJournal.Proofs.RootPaths
import RunJournal.Proofs.BaselinePointer
import RunJournal.Proofs.AtomicApproval
