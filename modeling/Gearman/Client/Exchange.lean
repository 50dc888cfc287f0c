import Gearman.Job.Status
import Gearman.Session

/-!
Exchanges: the requests that a client makes and what it reads out of their replies.
-/

namespace Gearman

/-- A request of a client, with the content of its reply once that is here. -/
inductive Exchange where
  /-- A submission, in the background or not; the reply is the handle of the job. -/
  | submission (background : Bool) (handle : Option Bytes)
  | status (answer : Option JobStatus)
  | echo (data : Option Bytes)
deriving DecidableEq, Repr

namespace Exchange

/-- Reads the reply. Every reply that can be read completes its exchange. -/
def respond (x : Exchange) (p : Packet) : Except Error Bool × Exchange :=
  match x with
  | .submission background _ => (.ok true, .submission background (some p.payload))
  | .status answer =>
    match JobStatus.ofPacket p with
    | .ok found => (.ok true, .status (some found))
    | .error e => (.error e, .status answer)
  | .echo _ => (.ok true, .echo (some p.payload))

instance : Responder Exchange where
  respond := respond

/-- The handle of a job that a client gets news of. -/
def attachedHandle? : Exchange → Option Bytes
  | .submission false handle => handle
  | _ => none

end Exchange

/-- An exchange that a client has started. -/
structure PendingExchange where
  task : Task Exchange
  server : Address
  /-- Whether the operation that started it has given up. -/
  detached : Bool := false

end Gearman
