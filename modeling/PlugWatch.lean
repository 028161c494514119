import PlugWatch.Bus
import PlugWatch.Bus.Memory
import PlugWatch.Bus.Usb
import PlugWatch.Bus.Usb.Device
import PlugWatch.Bus.Usb.Listing
import PlugWatch.Change
import PlugWatch.CommandLine
import PlugWatch.Config
import PlugWatch.Config.Document
import PlugWatch.Config.Storage
import PlugWatch.Device
import PlugWatch.EventLoop
import PlugWatch.Failure
import PlugWatch.Files
import PlugWatch.Files.Path
import PlugWatch.Filter
import PlugWatch.Log
import PlugWatch.Log.Directive
import PlugWatch.Mailbox
import PlugWatch.Main
import PlugWatch.Pattern
import PlugWatch.Program
import PlugWatch.Proofs.Admission
import PlugWatch.Proofs.Alternation
import PlugWatch.Proofs.Attached
import PlugWatch.Proofs.Attention
import PlugWatch.Proofs.Books
import PlugWatch.Proofs.Bursts
import PlugWatch.Proofs.Calls
import PlugWatch.Proofs.Coalescing
import PlugWatch.Proofs.Conduct
import PlugWatch.Proofs.Configurations
import PlugWatch.Proofs.Convergence
import PlugWatch.Proofs.Course
import PlugWatch.Proofs.Delivery
import PlugWatch.Proofs.Deregistration
import PlugWatch.Proofs.Destruction
import PlugWatch.Proofs.Dispatch
import PlugWatch.Proofs.Documents
import PlugWatch.Proofs.Edit
import PlugWatch.Proofs.Enumeration
import PlugWatch.Proofs.Frame
import PlugWatch.Proofs.Grammar
import PlugWatch.Proofs.Hearing
import PlugWatch.Proofs.Identity
import PlugWatch.Proofs.Interruption
import PlugWatch.Proofs.Isolation
import PlugWatch.Proofs.Lifecycle
import PlugWatch.Proofs.Lines
import PlugWatch.Proofs.Messages
import PlugWatch.Proofs.Monitoring
import PlugWatch.Proofs.Move
import PlugWatch.Proofs.Nesting
import PlugWatch.Proofs.Parting
import PlugWatch.Proofs.Patterns
import PlugWatch.Proofs.Pending
import PlugWatch.Proofs.Places
import PlugWatch.Proofs.Profile
import PlugWatch.Proofs.Queueing
import PlugWatch.Proofs.Quoting
import PlugWatch.Proofs.Reclaiming
import PlugWatch.Proofs.Records
import PlugWatch.Proofs.Recovery
import PlugWatch.Proofs.Removal
import PlugWatch.Proofs.Replay
import PlugWatch.Proofs.Saving
import PlugWatch.Proofs.Snapshot
import PlugWatch.Proofs.Speech
import PlugWatch.Proofs.Storage
import PlugWatch.Proofs.Tracking
import PlugWatch.Proofs.Traffic
import PlugWatch.Proofs.Turn
import PlugWatch.Proofs.Validity
import PlugWatch.Proofs.Values
import PlugWatch.Proofs.Wakeup
import PlugWatch.Proofs.Walk
import PlugWatch.Proofs.Watches
import PlugWatch.Proofs.Wellformed
import PlugWatch.Proofs.Whereabouts
import PlugWatch.Registry
import PlugWatch.Registry.Delivery
import PlugWatch.Registry.Session
import PlugWatch.Script
import PlugWatch.Text.Alphanumeric
import PlugWatch.Text.Blank
import PlugWatch.Text.Bytes
import PlugWatch.Text.Expression
import PlugWatch.Text.Expression.Atom
import PlugWatch.Text.Expression.Bracket
import PlugWatch.Text.Hidden
import PlugWatch.Text.Numeral
import PlugWatch.Text.Quoted
import PlugWatch.Text.Runs
import PlugWatch.Text.Terminal
import PlugWatch.Text.Units
import PlugWatch.Toml.Document
import PlugWatch.Toml.Lexical
import PlugWatch.Toml.Library
import PlugWatch.Toml.Number
import PlugWatch.Toml.Quoted
import PlugWatch.Toml.Table
import PlugWatch.Toml.Value
import PlugWatch.Toml.Writer
import PlugWatch.Watch
import PlugWatch.Watch.Registration
