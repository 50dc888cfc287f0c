import Gearman.Packet.Basic
import Gearman.Text.Quoted

/-!
What can go wrong, by cause, and how it is reported. Each cause belongs to one category; callers that
only want to know what to do next look at the category.
-/

namespace Gearman

/-- What a stream did instead of carrying bytes. -/
inductive LinkFault where
  /-- No connection was accepted. -/
  | refused
  /-- The peer aborted the connection. -/
  | reset
  /-- The writing half of the connection is shut. -/
  | shut
deriving DecidableEq, Repr

/-- A number that tells one task from all others. -/
abbrev TaskId := Nat

/-- How messages mention a task. -/
structure TaskName where
  id : TaskId
  /-- The kind of its request. -/
  kind : Kind
deriving DecidableEq, Repr

/-- The cause of a failure. Servers, packets and handles are carried in their printed form. -/
inductive Error where
  | link (fault : LinkFault)
  /-- A settings document was not understood. -/
  | settings
  | invalidAddress (text : String)
  /-- The first four bytes of a packet are no magic word. -/
  | badMagic (bytes : Bytes)
  | unknownKind (code : UInt32)
  | truncated (expected actual : Nat)
  | payloadTooLarge (size : Nat) (limit : UInt32)
  /-- A field other than the last holds a zero byte. -/
  | nulInIdentifier (kind : Kind)
  | missingFields (kind : Kind) (expected found : Nat)
  /-- The field called `field` has this text, which is no decimal numeral. -/
  | notDecimal (field text : String)
  | notAnUpdate (kind : Kind)
  | notAStatus (kind : Kind)
  /-- A payload that a response handler refuses. -/
  | malformed (detail : String)
  | notARequest (packet : String)
  | sessionUnopened (server : String)
  | sessionOpenedTwice (server : String)
  | sessionClosed (server : String)
  /-- The peer ended the stream. -/
  | severed (server : String)
  | timeout (awaited : String)
  | noServers
  | unknownServer (server : String)
  | shutDown
  /-- A background job has no result to wait for. -/
  | backgroundJob
  /-- An exchange called `exchange` ended and left no `missing` behind. -/
  | incomplete (exchange missing : String)
  | unexpectedPacket (kind : Kind) (server : String)
  | alreadyWorking
  | invalidState (detail : String)
  | noResponder (task : TaskName) (packet : String)
  | responderFailed (task : TaskName) (cause : Error)
  | alreadyFailed (task : TaskName) (request : String)
  | taskDropped (task : TaskId)
  | taskFailed (detail : String)
  /-- The server answered with an error of its own. -/
  | remote (code text : String)
  | unknownJob (handle : String)
  /-- No answer but a panic: there is no room for a number or for what it counts. -/
  | panicked (report : String)
deriving DecidableEq, Repr

namespace Error

/-- The kinds of failure that callers distinguish. -/
inductive Category where
  | link | settings | invalidAddress | badMagic | unknownKind | truncated | payloadTooLarge
  | malformedPayload | notARequest | sessionUnopened | sessionOpenedTwice | sessionClosed | severed
  | timeout | noServers | unknownServer | shutDown | invalidState | taskFailed | remote | unknownJob
  | panicked
deriving DecidableEq, Repr

def category : Error → Category
  | link _ => .link
  | settings => .settings
  | invalidAddress _ => .invalidAddress
  | badMagic _ => .badMagic
  | unknownKind _ => .unknownKind
  | truncated _ _ => .truncated
  | payloadTooLarge _ _ => .payloadTooLarge
  | nulInIdentifier _ | missingFields _ _ _ | notDecimal _ _ | notAnUpdate _ | notAStatus _
  | malformed _ => .malformedPayload
  | notARequest _ => .notARequest
  | sessionUnopened _ => .sessionUnopened
  | sessionOpenedTwice _ => .sessionOpenedTwice
  | sessionClosed _ => .sessionClosed
  | severed _ => .severed
  | timeout _ => .timeout
  | noServers => .noServers
  | unknownServer _ => .unknownServer
  | shutDown => .shutDown
  | backgroundJob | incomplete _ _ | unexpectedPacket _ _ | alreadyWorking | invalidState _ =>
    .invalidState
  | noResponder _ _ | responderFailed _ _ | alreadyFailed _ _ | taskDropped _ | taskFailed _ =>
    .taskFailed
  | remote _ _ => .remote
  | unknownJob _ => .unknownJob
  | panicked _ => .panicked

/-- Whether a packet was refused for the size of its payload. -/
def isTooLarge (e : Error) : Bool := e.category = .payloadTooLarge

/-- Bytes as two hexadecimal digits each, in brackets. -/
def showBytes (bs : Bytes) : String :=
  "[" ++ ", ".intercalate (bs.map fun b => String.ofList (Text.hexByte b)) ++ "]"

/-- The report of a failure; `label` says how a task's number is written. -/
def messageWith (label : TaskId → String) : Error → String
  | link .refused => "I/O error: connection refused"
  | link .reset => "I/O error: connection reset"
  | link .shut => "I/O error: write half shut"
  | settings => "Configuration error: not a settings document"
  | invalidAddress text => "Invalid job server address: " ++ Text.quote text
  | badMagic bytes => "Bad packet magic: " ++ showBytes bytes
  | unknownKind code => "Unknown packet type: " ++ toString code
  | truncated expected actual =>
    "Truncated packet: expected " ++ toString expected ++ " bytes, got " ++ toString actual
  | payloadTooLarge size limit =>
    "Payload size " ++ toString size ++ " exceeds maximum " ++ toString limit
  | nulInIdentifier kind => malformedText (kind.name ++ " identifier contains a NUL byte")
  | missingFields kind expected found =>
    malformedText (kind.name ++ " expects " ++ toString expected ++ " components, found " ++
      toString found)
  | notDecimal field text =>
    malformedText (field ++ " is not a decimal number: " ++ Text.quote text)
  | notAnUpdate kind => malformedText (kind.name ++ " is not a work update")
  | notAStatus kind => malformedText ("expected STATUS_RES, got " ++ kind.name)
  | malformed detail => malformedText detail
  | notARequest packet => "Task requires a request packet, got " ++ packet
  | sessionUnopened server => "Session " ++ server ++ " has not been initialized"
  | sessionOpenedTwice server => "Session " ++ server ++ " can not be initialized twice"
  | sessionClosed server => "Session " ++ server ++ " is closed"
  | severed server => "Connection to job server " ++ server ++ " severed"
  | timeout awaited => "Timed out waiting for " ++ awaited
  | noServers => "No job servers registered"
  | unknownServer server => "Job server " ++ server ++ " has not been registered"
  | shutDown => "Shut down"
  | backgroundJob => invalidText "background jobs report no result"
  | incomplete exchange missing => invalidText (exchange ++ " finished without " ++ missing)
  | unexpectedPacket kind server => invalidText ("unexpected " ++ kind.name ++ " from " ++ server)
  | alreadyWorking => invalidText "worker loop is already running"
  | invalidState detail => invalidText detail
  | noResponder task packet =>
    failedText (taskText task ++ " has no response handler for " ++ packet)
  | responderFailed task cause => failedText (taskText task ++ ": " ++ messageWith label cause)
  | alreadyFailed task request =>
    failedText (taskText task ++ " already failed while driving " ++ request)
  | taskDropped task => failedText ("task " ++ label task ++ " was dropped with its session")
  | taskFailed detail => failedText detail
  | remote code text => "Job server error " ++ code ++ ": " ++ text
  | unknownJob handle => "Unknown job handle: " ++ handle
  | panicked report => report
where
  malformedText (detail : String) : String := "Malformed payload: " ++ detail
  invalidText (detail : String) : String := "Invalid state: " ++ detail
  failedText (detail : String) : String := "Task failed: " ++ detail
  taskText (task : TaskName) : String :=
    "task " ++ label task.id ++ " (" ++ task.kind.name ++ ")"

/-- The report of a failure. -/
def message (e : Error) : String := e.messageWith toString

instance : ToString Error where
  toString := message

end Error

end Gearman
