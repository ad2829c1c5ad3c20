import DebugAdapter.Breakpoints.Basic
import DebugAdapter.Breakpoints.Path
import DebugAdapter.Codec.Basic
import DebugAdapter.Codec.Error
import DebugAdapter.Codec.Record
import DebugAdapter.Debugger
import DebugAdapter.Decimal.Layout
import DebugAdapter.Decimal.Numeral
import DebugAdapter.Decimal.Shortest
import DebugAdapter.Error
import DebugAdapter.Host
import DebugAdapter.Inspection.Frame
import DebugAdapter.Inspection.Graph
import DebugAdapter.Inspection.Request
import DebugAdapter.Inspection.Scalar
import DebugAdapter.Interpreter.Basic
import DebugAdapter.Interpreter.Scripted
import DebugAdapter.Json.Basic
import DebugAdapter.Json.Number
import DebugAdapter.Json.Reader
import DebugAdapter.Json.Token
import DebugAdapter.Json.Writer
import DebugAdapter.Numbering
import DebugAdapter.Packet.Basic
import DebugAdapter.Packet.Header
import DebugAdapter.Packet.Reader
import DebugAdapter.Packet.Writer
import DebugAdapter.Pattern.Basic
import DebugAdapter.Pattern.Reader
import DebugAdapter.Pattern.Support
import DebugAdapter.Proofs.Breakpoints.Casing
import DebugAdapter.Proofs.Breakpoints.Lasting
import DebugAdapter.Proofs.Breakpoints.Latest
import DebugAdapter.Proofs.Breakpoints.Reported
import DebugAdapter.Proofs.Breakpoints.Sets
import DebugAdapter.Proofs.Codec.Stable
import DebugAdapter.Proofs.Inspection.Askers
import DebugAdapter.Proofs.Inspection.Covers
import DebugAdapter.Proofs.Inspection.Eager
import DebugAdapter.Proofs.Inspection.Faithful
import DebugAdapter.Proofs.Inspection.Forest
import DebugAdapter.Proofs.Inspection.Growth
import DebugAdapter.Proofs.Inspection.Numbers
import DebugAdapter.Proofs.Inspection.Pages
import DebugAdapter.Proofs.Inspection.Places
import DebugAdapter.Proofs.Inspection.Remembered
import DebugAdapter.Proofs.Inspection.Slices
import DebugAdapter.Proofs.Inspection.WellFormed
import DebugAdapter.Proofs.Interleaved
import DebugAdapter.Proofs.Interpreter.Answers
import DebugAdapter.Proofs.Interpreter.Scripted
import DebugAdapter.Proofs.Json.Keys
import DebugAdapter.Proofs.Json.Ordered
import DebugAdapter.Proofs.Json.ReadBack
import DebugAdapter.Proofs.Json.Scalars
import DebugAdapter.Proofs.Packet.Chunks
import DebugAdapter.Proofs.Packet.Content
import DebugAdapter.Proofs.Packet.Envelope
import DebugAdapter.Proofs.Packet.Grammar
import DebugAdapter.Proofs.Packet.Interruptions
import DebugAdapter.Proofs.Packet.Lines
import DebugAdapter.Proofs.Packet.RoundTrip
import DebugAdapter.Proofs.Packet.Stream
import DebugAdapter.Proofs.Protocol.Reread
import DebugAdapter.Proofs.Session.Akin
import DebugAdapter.Proofs.Session.Announcements
import DebugAdapter.Proofs.Session.Aside
import DebugAdapter.Proofs.Session.Batches
import DebugAdapter.Proofs.Session.Closing
import DebugAdapter.Proofs.Session.Conversation
import DebugAdapter.Proofs.Session.Decisions
import DebugAdapter.Proofs.Session.Deeds
import DebugAdapter.Proofs.Session.Delivery
import DebugAdapter.Proofs.Session.Discipline
import DebugAdapter.Proofs.Session.Failures
import DebugAdapter.Proofs.Session.Faults
import DebugAdapter.Proofs.Session.Granularity
import DebugAdapter.Proofs.Session.Handle
import DebugAdapter.Proofs.Session.Handshake
import DebugAdapter.Proofs.Session.Ignored
import DebugAdapter.Proofs.Session.Inquiries
import DebugAdapter.Proofs.Session.Journal
import DebugAdapter.Proofs.Session.Keeping
import DebugAdapter.Proofs.Session.Lockstep
import DebugAdapter.Proofs.Session.Measuring
import DebugAdapter.Proofs.Session.Nesting
import DebugAdapter.Proofs.Session.Outbox
import DebugAdapter.Proofs.Session.Parking
import DebugAdapter.Proofs.Session.Recorder
import DebugAdapter.Proofs.Session.Recording
import DebugAdapter.Proofs.Session.Regular
import DebugAdapter.Proofs.Session.Responses
import DebugAdapter.Proofs.Session.Run
import DebugAdapter.Proofs.Session.Service
import DebugAdapter.Proofs.Session.Starting
import DebugAdapter.Proofs.Session.Steps
import DebugAdapter.Proofs.Session.Stops
import DebugAdapter.Proofs.Session.Transparency
import DebugAdapter.Proofs.Session.Wire
import DebugAdapter.Protocol.Breakpoints
import DebugAdapter.Protocol.Catalogue
import DebugAdapter.Protocol.Inspection
import DebugAdapter.Protocol.Lifecycle
import DebugAdapter.Protocol.Message
import DebugAdapter.Protocol.Running
import DebugAdapter.Session.Bridge
import DebugAdapter.Session.Connection
import DebugAdapter.Session.Drain
import DebugAdapter.Session.Handle
import DebugAdapter.Session.Lockstep
import DebugAdapter.Session.Phase
import DebugAdapter.Session.Request
import DebugAdapter.Session.Server
import DebugAdapter.Session.System
import DebugAdapter.Session.Writer
import DebugAdapter.Settings.Basic
import DebugAdapter.Settings.LogFilter
import DebugAdapter.Settings.SocketAddress
import DebugAdapter.Stepping
import DebugAdapter.Text.Alphanumeric
import DebugAdapter.Text.Ascii
import DebugAdapter.Text.Blank
import DebugAdapter.Text.Hexadecimal
import DebugAdapter.Text.Hidden
import DebugAdapter.Text.Quoted
import DebugAdapter.Text.Utf8
import DebugAdapter.Toml.Reader
import DebugAdapter.Toml.Scalar
import DebugAdapter.Toml.Table
import DebugAdapter.Toml.Text
