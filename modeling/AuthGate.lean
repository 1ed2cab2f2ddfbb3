import AuthGate.Call.Audit
import AuthGate.Call.Exchange
import AuthGate.Call.Pipeline
import AuthGate.Call.Service
import AuthGate.Call.Timers
import AuthGate.Command.Options
import AuthGate.Command.Program
import AuthGate.Config.Basic
import AuthGate.Config.File
import AuthGate.Decimal.Bounded
import AuthGate.Decimal.Double
import AuthGate.Decimal.Shortest
import AuthGate.Decision.Basic
import AuthGate.Decision.Shape
import AuthGate.Engine.BuiltinCache
import AuthGate.Engine.Interpreter
import AuthGate.Engine.Query
import AuthGate.Engine.QueryCache
import AuthGate.Engine.Value
import AuthGate.EntryPoint.Basic
import AuthGate.EntryPoint.Parser
import AuthGate.Failure
import AuthGate.Fields
import AuthGate.FileTree
import AuthGate.Input.Attributes
import AuthGate.Input.Body
import AuthGate.Input.Document
import AuthGate.Input.Path
import AuthGate.Instant
import AuthGate.Json.Basic
import AuthGate.Json.Literal
import AuthGate.Json.Parser
import AuthGate.Json.Printer
import AuthGate.Log.Event
import AuthGate.Log.Filter
import AuthGate.Main
import AuthGate.Policy.Load
import AuthGate.Policy.Modules
import AuthGate.Policy.Watch
import AuthGate.Proofs.Call.Audit
import AuthGate.Proofs.Call.DryRun
import AuthGate.Proofs.Call.Durations
import AuthGate.Proofs.Call.EngineRecord
import AuthGate.Proofs.Call.Finalization
import AuthGate.Proofs.Call.Findings
import AuthGate.Proofs.Call.Record
import AuthGate.Proofs.Call.Stages
import AuthGate.Proofs.Call.Stopwatch
import AuthGate.Proofs.Call.TimerNames
import AuthGate.Proofs.Call.TimerTotals
import AuthGate.Proofs.Call.Totals
import AuthGate.Proofs.Call.Traffic
import AuthGate.Proofs.Call.Verdict
import AuthGate.Proofs.Call.Versions
import AuthGate.Proofs.Config.Resolve
import AuthGate.Proofs.Config.Settled
import AuthGate.Proofs.Decimal.Finite
import AuthGate.Proofs.Decimal.Nearest
import AuthGate.Proofs.Decimal.Value
import AuthGate.Proofs.Decision.Acceptance
import AuthGate.Proofs.Decision.Emission
import AuthGate.Proofs.Decision.HttpStatus
import AuthGate.Proofs.Decision.WellFormed
import AuthGate.Proofs.Engine.Callers
import AuthGate.Proofs.Engine.Coherence
import AuthGate.Proofs.Engine.CompileOnce
import AuthGate.Proofs.EntryPoint.Cursor
import AuthGate.Proofs.EntryPoint.Grammar
import AuthGate.Proofs.EntryPoint.Offsets
import AuthGate.Proofs.EntryPoint.Path
import AuthGate.Proofs.EntryPoint.RoundTrip
import AuthGate.Proofs.Input.Attributes
import AuthGate.Proofs.Input.Body
import AuthGate.Proofs.Input.Confinement
import AuthGate.Proofs.Input.Document
import AuthGate.Proofs.Input.Frame
import AuthGate.Proofs.Input.MapOrder
import AuthGate.Proofs.Input.Order
import AuthGate.Proofs.Input.Parameters
import AuthGate.Proofs.Input.Path
import AuthGate.Proofs.Input.Refusal
import AuthGate.Proofs.Input.Truncation
import AuthGate.Proofs.Input.Version
import AuthGate.Proofs.Json.Fields
import AuthGate.Proofs.Json.Literal
import AuthGate.Proofs.Json.Reading
import AuthGate.Proofs.Json.WellFormed
import AuthGate.Proofs.Policy.Watch
import AuthGate.Proofs.Proto.Conformance
import AuthGate.Proofs.Proto.Extent
import AuthGate.Proofs.Proto.Fields
import AuthGate.Proofs.Proto.Json
import AuthGate.Proofs.Proto.Padding
import AuthGate.Proofs.Proto.Parts
import AuthGate.Proofs.Proto.RoundTrip
import AuthGate.Proofs.Proto.Scalar
import AuthGate.Proofs.Proto.Varint
import AuthGate.Proofs.Request.Order
import AuthGate.Proofs.Request.Wire
import AuthGate.Proofs.Response.Downgrade
import AuthGate.Proofs.Response.LegacyWire
import AuthGate.Proofs.Result
import AuthGate.Proofs.Server.Address
import AuthGate.Proofs.Server.Deadline
import AuthGate.Proofs.Server.Duration
import AuthGate.Proofs.Server.Readiness
import AuthGate.Proofs.Server.Transparency
import AuthGate.Proofs.Store.History
import AuthGate.Proofs.Store.Ledger
import AuthGate.Proofs.Store.Recompilation
import AuthGate.Proofs.Store.Replacement
import AuthGate.Proofs.Store.Transactions
import AuthGate.Proofs.Struct.Conversion
import AuthGate.Proofs.Struct.Order
import AuthGate.Proofs.Struct.Wire
import AuthGate.Proofs.Text.Base64
import AuthGate.Proofs.Text.Blank
import AuthGate.Proofs.Text.ByteOrder
import AuthGate.Proofs.Text.Digits
import AuthGate.Proofs.Text.Percent
import AuthGate.Proofs.Text.Split
import AuthGate.Proofs.Text.Utf8
import AuthGate.Proto.Descriptor
import AuthGate.Proto.Descriptor.Basic
import AuthGate.Proto.Descriptor.Fields
import AuthGate.Proto.Descriptor.Names
import AuthGate.Proto.Json
import AuthGate.Proto.Message
import AuthGate.Proto.Reader
import AuthGate.Proto.Schema
import AuthGate.Proto.Varint
import AuthGate.Proto.WellKnown
import AuthGate.Proto.Writer
import AuthGate.Rego.Basic
import AuthGate.Rego.Parser
import AuthGate.Rego.Program
import AuthGate.Rego.Session
import AuthGate.Rego.Token
import AuthGate.Rego.Value
import AuthGate.Request.Basic
import AuthGate.Request.Wire
import AuthGate.Response.Basic
import AuthGate.Response.Legacy
import AuthGate.Response.LegacyWire
import AuthGate.Response.StatusCode
import AuthGate.Response.Wire
import AuthGate.Server.Address
import AuthGate.Server.Diagnostics
import AuthGate.Server.HostPort
import AuthGate.Server.Latency
import AuthGate.Server.Lifecycle
import AuthGate.Server.Listener
import AuthGate.Server.Plugin
import AuthGate.Server.Reflection
import AuthGate.Server.Timeout
import AuthGate.Store.Basic
import AuthGate.Struct.Any
import AuthGate.Struct.Basic
import AuthGate.Struct.Json
import AuthGate.Struct.Wire
import AuthGate.Text.Base64
import AuthGate.Text.Blank
import AuthGate.Text.CharClass
import AuthGate.Text.Digits
import AuthGate.Text.Percent
import AuthGate.Text.Quoted
import AuthGate.Text.Utf8
import AuthGate.Yaml.Cursor
import AuthGate.Yaml.Node
import AuthGate.Yaml.Scalar
import AuthGate.Yaml.Token
