import MinimalVm.Agent.Awaiting
import MinimalVm.Agent.BrokenPipe
import MinimalVm.Agent.Closing
import MinimalVm.Agent.Concluding
import MinimalVm.Agent.Conversation
import MinimalVm.Agent.Delivering
import MinimalVm.Agent.Drawing
import MinimalVm.Agent.Finishing
import MinimalVm.Agent.Forwarding
import MinimalVm.Agent.Handle
import MinimalVm.Agent.Headway
import MinimalVm.Agent.Hearing
import MinimalVm.Agent.Input
import MinimalVm.Agent.Killing
import MinimalVm.Agent.Kinds
import MinimalVm.Agent.Leaving
import MinimalVm.Agent.Lines
import MinimalVm.Agent.Mail
import MinimalVm.Agent.Main
import MinimalVm.Agent.Malformed
import MinimalVm.Agent.Moves
import MinimalVm.Agent.Ordering
import MinimalVm.Agent.Pipe
import MinimalVm.Agent.Process
import MinimalVm.Agent.Receiving
import MinimalVm.Agent.Relaying
import MinimalVm.Agent.Returning
import MinimalVm.Agent.Sending
import MinimalVm.Agent.Serving
import MinimalVm.Agent.Spawn
import MinimalVm.Agent.Speech
import MinimalVm.Agent.Spinning
import MinimalVm.Agent.Splitting
import MinimalVm.Agent.Tasks
import MinimalVm.Agent.Watching
import MinimalVm.Io.Accepted
import MinimalVm.Io.Backlog
import MinimalVm.Io.Clones
import MinimalVm.Io.Closing
import MinimalVm.Io.Delivery
import MinimalVm.Io.HandingOn
import MinimalVm.Io.Handles
import MinimalVm.Io.LineParser
import MinimalVm.Io.Mailbox
import MinimalVm.Io.MessageReader
import MinimalVm.Io.Prompt
import MinimalVm.Io.Receive
import MinimalVm.Io.Reference
import MinimalVm.Io.RoundTrip
import MinimalVm.Io.Send
import MinimalVm.Io.SendWakeUps
import MinimalVm.Io.Sorting
import MinimalVm.Io.Staying
import MinimalVm.Io.TypedReceive
import MinimalVm.Io.WakeUps
import MinimalVm.Io.Wire
import MinimalVm.Json.Decode
import MinimalVm.Json.Grammar
import MinimalVm.Json.Nesting
import MinimalVm.Json.Print
import MinimalVm.Json.Record
import MinimalVm.Liveness.Arriving
import MinimalVm.Liveness.Capacity
import MinimalVm.Liveness.Codec
import MinimalVm.Liveness.Counters
import MinimalVm.Liveness.CpuLoad
import MinimalVm.Liveness.Disks
import MinimalVm.Liveness.Fields
import MinimalVm.Liveness.Guest
import MinimalVm.Liveness.Labels
import MinimalVm.Liveness.LineReader
import MinimalVm.Liveness.Loads
import MinimalVm.Liveness.Looping
import MinimalVm.Liveness.Metrics
import MinimalVm.Liveness.Mounts
import MinimalVm.Liveness.Outcome
import MinimalVm.Liveness.Report
import MinimalVm.Liveness.Running
import MinimalVm.Liveness.Shutdown
import MinimalVm.Liveness.Stacking
import MinimalVm.Liveness.Stopping
import MinimalVm.Liveness.Transport
import MinimalVm.Liveness.Unescaping
import MinimalVm.Protocol.Codec
import MinimalVm.Protocol.HostFormat
import MinimalVm.Protocol.Message
import MinimalVm.Semantics.Counting
import MinimalVm.Semantics.Execution
import MinimalVm.Semantics.Fallible
import MinimalVm.Semantics.Inevitable
import MinimalVm.Semantics.Ledger
import MinimalVm.Semantics.Overflow
import MinimalVm.Semantics.Polling
import MinimalVm.Semantics.Reaching
import MinimalVm.Semantics.Trace
import MinimalVm.Text.Cuts
import MinimalVm.Text.Firsts
import MinimalVm.Text.Numerals
import MinimalVm.Text.Segments
import MinimalVm.Text.Utf8
import MinimalVm.Text.Words
