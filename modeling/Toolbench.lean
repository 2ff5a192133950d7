import Toolbench.Build.Arguments
import Toolbench.Build.Invocation
import Toolbench.Build.Manager
import Toolbench.Build.Observer
import Toolbench.Build.Status
import Toolbench.Cli.Options
import Toolbench.Cli.Report
import Toolbench.Cli.Task
import Toolbench.Daemon.Assembly
import Toolbench.Daemon.Client
import Toolbench.Daemon.Link
import Toolbench.Daemon.Match
import Toolbench.Daemon.Pending
import Toolbench.Daemon.Request
import Toolbench.Diagnostic.Basic
import Toolbench.Diagnostic.Collection
import Toolbench.Diagnostic.CompilerMessage
import Toolbench.Diagnostic.HumanBlock
import Toolbench.Diagnostic.JsonForm
import Toolbench.Diagnostic.LegacyLine
import Toolbench.Diagnostic.Level
import Toolbench.Diagnostic.OutputMode
import Toolbench.Diagnostic.Reader
import Toolbench.Diagnostic.Severity
import Toolbench.Diagnostic.Snapshot
import Toolbench.Diagnostic.TextRange
import Toolbench.Diagnostic.ToolMessage
import Toolbench.Environment
import Toolbench.Job.Basic
import Toolbench.Job.Command
import Toolbench.Job.Group
import Toolbench.Job.Machine
import Toolbench.Json.Basic
import Toolbench.Json.Number
import Toolbench.Json.Reader
import Toolbench.Json.Token
import Toolbench.Machine
import Toolbench.Main
import Toolbench.Path
import Toolbench.Proofs.Build.Forwarding
import Toolbench.Proofs.Build.Handover
import Toolbench.Proofs.Build.Manifest
import Toolbench.Proofs.Build.Numbering
import Toolbench.Proofs.Build.Published
import Toolbench.Proofs.Build.Refusal
import Toolbench.Proofs.Build.RunEvents
import Toolbench.Proofs.Build.Silence
import Toolbench.Proofs.Build.SingleFlight
import Toolbench.Proofs.Build.Step
import Toolbench.Proofs.Build.Stopping
import Toolbench.Proofs.Build.Streaming
import Toolbench.Proofs.Daemon.Accounting
import Toolbench.Proofs.Daemon.Client
import Toolbench.Proofs.Daemon.Coherence
import Toolbench.Proofs.Daemon.Framing
import Toolbench.Proofs.Daemon.Isolation
import Toolbench.Proofs.Daemon.LastAnswers
import Toolbench.Proofs.Daemon.LifeCycle
import Toolbench.Proofs.Daemon.MatchLine
import Toolbench.Proofs.Daemon.Pairing
import Toolbench.Proofs.Daemon.Queue
import Toolbench.Proofs.Daemon.Reading
import Toolbench.Proofs.Daemon.RequestLine
import Toolbench.Proofs.Daemon.RequestStream
import Toolbench.Proofs.Daemon.SessionLog
import Toolbench.Proofs.Daemon.Step
import Toolbench.Proofs.Daemon.Turn
import Toolbench.Proofs.Daemon.TypedRequests
import Toolbench.Proofs.Diagnostic.BlockLines
import Toolbench.Proofs.Diagnostic.Collection
import Toolbench.Proofs.Diagnostic.Contents
import Toolbench.Proofs.Diagnostic.Descendants
import Toolbench.Proofs.Diagnostic.Envelope
import Toolbench.Proofs.Diagnostic.LineEndings
import Toolbench.Proofs.Diagnostic.MarkedWidth
import Toolbench.Proofs.Diagnostic.Mirror
import Toolbench.Proofs.Diagnostic.OneLineForm
import Toolbench.Proofs.Diagnostic.PrimaryPlace
import Toolbench.Proofs.Diagnostic.ReadingOrder
import Toolbench.Proofs.Diagnostic.RenderedBlocks
import Toolbench.Proofs.Diagnostic.Scanning
import Toolbench.Proofs.Diagnostic.Segments
import Toolbench.Proofs.Job.Callbacks
import Toolbench.Proofs.Job.Cancellation
import Toolbench.Proofs.Job.Coherence
import Toolbench.Proofs.Job.LifeCycle
import Toolbench.Proofs.Job.Step
import Toolbench.Proofs.Json.Alike
import Toolbench.Proofs.Json.Objects
import Toolbench.Proofs.Path.Joining
import Toolbench.Proofs.Path.Normal
import Toolbench.Proofs.Path.Order
import Toolbench.Proofs.Path.Places
import Toolbench.Proofs.Settings.Expansion
import Toolbench.Proofs.Stream.Chunks
import Toolbench.Proofs.Stream.Failures
import Toolbench.Proofs.Stream.Reports
import Toolbench.Proofs.Text.Pieces
import Toolbench.Proofs.Text.Runs
import Toolbench.Proofs.Trace
import Toolbench.Rehearsal.BuildScript
import Toolbench.Rehearsal.CommandLine
import Toolbench.Rehearsal.DaemonScript
import Toolbench.Rehearsal.Host
import Toolbench.Rehearsal.JobScript
import Toolbench.Rehearsal.Schedule
import Toolbench.Settings.Basic
import Toolbench.Settings.Expansion
import Toolbench.Settings.Load
import Toolbench.Settings.Reader
import Toolbench.Stream.LineBuffer
import Toolbench.Stream.LineSource
import Toolbench.System
import Toolbench.Text.Blank
import Toolbench.Text.Decimal
import Toolbench.Text.Digit
import Toolbench.Text.Lines
import Toolbench.Text.Utf8
import Toolbench.Text.Word
import Toolbench.Toml.Document
import Toolbench.Toml.Moment
import Toolbench.Toml.Reader
import Toolbench.Toml.Scalar
import Toolbench.Toml.Token
import Toolbench.Toml.Value
