import Gearman.Address
import Gearman.Bytes
import Gearman.Client.Basic
import Gearman.Client.Dispatch
import Gearman.Client.Exchange
import Gearman.Client.Progress
import Gearman.Client.Pump
import Gearman.Client.Request
import Gearman.Client.Wait
import Gearman.Duration
import Gearman.Error
import Gearman.Job.Basic
import Gearman.Job.Counter
import Gearman.Job.Handle
import Gearman.Job.Result
import Gearman.Job.Status
import Gearman.Json.Basic
import Gearman.Json.Reader
import Gearman.Json.Token
import Gearman.Json.Writer
import Gearman.Link.Connection
import Gearman.Link.Outbound
import Gearman.Link.Stream
import Gearman.Packet.Basic
import Gearman.Packet.Codec
import Gearman.Packet.Header
import Gearman.Packet.Kind
import Gearman.Packet.Reassembly
import Gearman.Session
import Gearman.Session.Record
import Gearman.Settings
import Gearman.Settings.Document
import Gearman.Table
import Gearman.Task
import Gearman.Task.Script
import Gearman.Text.Blank
import Gearman.Text.Decimal
import Gearman.Text.Hidden
import Gearman.Text.Quoted
import Gearman.Text.Utf8
import Gearman.Worker.Basic
import Gearman.Worker.Context
import Gearman.Worker.Dispatch
import Gearman.Worker.Execution
import Gearman.Worker.Performance
import Gearman.Worker.Pump
import Gearman.Worker.Recipe
import Gearman.Worker.Registry
import Gearman.Worker.Run
import Gearman.Proofs.Client.Settled
import Gearman.Proofs.Client.Routing
import Gearman.Proofs.Link.Feed
import Gearman.Proofs.Link.Writing
import Gearman.Proofs.Session.Correlation
import Gearman.Proofs.Worker.Turns
import Gearman.Proofs.Worker.Delivery
import Gearman.Proofs.Client.Disturbance
import Gearman.Proofs.Client.Growth
import Gearman.Proofs.Client.Chronicle
import Gearman.Proofs.Client.Queues
import Gearman.Proofs.Client.Exchanges
import Gearman.Proofs.Client.Execution
import Gearman.Proofs.Client.Rehearsal
import Gearman.Proofs.Client.Pool.Tidy
import Gearman.Proofs.Client.Order
import Gearman.Proofs.Client.Streams
import Gearman.Proofs.Client.Orderly
import Gearman.Proofs.Client.Replies
import Gearman.Proofs.Client.Outcomes
import Gearman.Proofs.Link.Intake
import Gearman.Proofs.Client.Farewell
import Gearman.Proofs.Client.News
import Gearman.Proofs.Client.Conversation
import Gearman.Proofs.Client.Deadline
import Gearman.Proofs.Client.Overdue
import Gearman.Proofs.Packet.Decoding
import Gearman.Proofs.Link.Passage
import Gearman.Proofs.Worker.Docket
import Gearman.Proofs.Worker.Announcements
import Gearman.Proofs.Task.Lifecycle
import Gearman.Proofs.Worker.Handover
import Gearman.Proofs.Worker.Exceptions
import Gearman.Proofs.Client.Isolation
import Gearman.Proofs.Job.Refusals
import Gearman.Proofs.Job.Status
import Gearman.Proofs.Worker.Timeouts
import Gearman.Proofs.Client.Subjects
import Gearman.Proofs.Session.Draining
import Gearman.Proofs.Session.Sending
import Gearman.Proofs.Session.Lifecycle
import Gearman.Proofs.Session.Submission
import Gearman.Proofs.Worker.Registration
import Gearman.Proofs.Client.Oversized
import Gearman.Proofs.Packet.Joining
import Gearman.Proofs.Link.Extraction
import Gearman.Proofs.Link.Readiness
import Gearman.Proofs.Link.Discards
import Gearman.Proofs.Text.Decimal
import Gearman.Proofs.Text.Numerals
import Gearman.Proofs.Address.RoundTrip
import Gearman.Proofs.Json.Tokens
import Gearman.Proofs.Json.Documents
import Gearman.Proofs.Settings.RoundTrip
