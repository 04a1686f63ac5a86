import LookupTap.Address
import LookupTap.Address.Text
import LookupTap.Artifact
import LookupTap.Artifact.Object
import LookupTap.Bytes
import LookupTap.Channel
import LookupTap.Channel.Perf
import LookupTap.Channel.Ring
import LookupTap.Command
import LookupTap.Command.Options
import LookupTap.Elf.Header
import LookupTap.Elf.Image
import LookupTap.Elf.Layout
import LookupTap.Elf.Strings
import LookupTap.Elf.Symbol
import LookupTap.Fault
import LookupTap.Files
import LookupTap.Kernel
import LookupTap.Keyed
import LookupTap.Library
import LookupTap.Lifecycle
import LookupTap.Log
import LookupTap.Log.Filter
import LookupTap.Main
import LookupTap.Number.Binary64
import LookupTap.Number.Digits
import LookupTap.Number.Shortest
import LookupTap.OsError
import LookupTap.Path
import LookupTap.Probe
import LookupTap.Probe.Catalog
import LookupTap.Probe.Pass
import LookupTap.Proofs.Address.Text
import LookupTap.Proofs.Artifact.Programs
import LookupTap.Proofs.Channel.Drain
import LookupTap.Proofs.Elf.Defined
import LookupTap.Proofs.Lifecycle.Announced
import LookupTap.Proofs.Lifecycle.Begin
import LookupTap.Proofs.Lifecycle.Order
import LookupTap.Proofs.Lifecycle.Report
import LookupTap.Proofs.Number.Digits
import LookupTap.Proofs.Probe.Enumeration
import LookupTap.Proofs.Probe.Offset
import LookupTap.Proofs.Probe.Pass
import LookupTap.Proofs.Probe.Reading
import LookupTap.Proofs.Probe.Spelling
import LookupTap.Proofs.Probe.Target
import LookupTap.Proofs.Probe.Verdict
import LookupTap.Proofs.Pump.Control
import LookupTap.Proofs.Pump.Delivery
import LookupTap.Proofs.Pump.Ending
import LookupTap.Proofs.Pump.Moves
import LookupTap.Proofs.Pump.Progress
import LookupTap.Proofs.Pump.Queue
import LookupTap.Proofs.Pump.Told
import LookupTap.Proofs.Pump.Trace
import LookupTap.Proofs.Resolver.Snapshot
import LookupTap.Proofs.Settings.Key
import LookupTap.Proofs.Settings.Layers
import LookupTap.Proofs.Text.Case
import LookupTap.Proofs.Text.Utf8
import LookupTap.Proofs.Tracker.Mailbox
import LookupTap.Pump.Handle
import LookupTap.Pump.Plan
import LookupTap.Pump.Pool
import LookupTap.Pump.Source
import LookupTap.Record
import LookupTap.Resolver
import LookupTap.Settings
import LookupTap.Settings.Dotenv
import LookupTap.Settings.Environment
import LookupTap.Settings.Fault
import LookupTap.Settings.File
import LookupTap.Settings.Json
import LookupTap.Settings.Key
import LookupTap.Settings.Toml
import LookupTap.Settings.Toml.Scalar
import LookupTap.Settings.Toml.Tree
import LookupTap.Settings.Value
import LookupTap.Settings.Yaml
import LookupTap.Settings.Yaml.Scalar
import LookupTap.Stage
import LookupTap.Step
import LookupTap.SymbolTable
import LookupTap.Tap
import LookupTap.Telemetry
import LookupTap.Text.Blank
import LookupTap.Text.Case
import LookupTap.Text.Quoted
import LookupTap.Text.Scan
import LookupTap.Text.Utf8
import LookupTap.Tracker
import LookupTap.Proofs.Record.Wire
import LookupTap.Proofs.Address.Canonical
import LookupTap.Proofs.Elf.Listing
import LookupTap.Proofs.Elf.Search
import LookupTap.Proofs.Number.Numeral
import LookupTap.Proofs.Number.Shortest
import LookupTap.Proofs.Number.Written
import LookupTap.Proofs.Settings.Verbatim
import LookupTap.Proofs.Tracker.Fifo
import LookupTap.Proofs.Channel.Batches
import LookupTap.Proofs.Channel.Reads
import LookupTap.Proofs.Probe.Order
import LookupTap.Proofs.Library.Locators
import LookupTap.Proofs.Files.Spelling
import LookupTap.Proofs.Resolver.Alone
import LookupTap.Proofs.Artifact.Homes
import LookupTap.Proofs.Probe.RawName
import LookupTap.Proofs.Text.Pieces
import LookupTap.Proofs.Record.Host
import LookupTap.Proofs.Probe.RoundTrip
