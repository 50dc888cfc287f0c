import Gearman.Job.Counter
import Gearman.Packet.Codec

/-!
What a worker function is told about its job, and the reports that it sends while it runs.
-/

namespace Gearman

/-- What a function is told about the job that it executes. -/
structure Context where
  handle : Bytes
  function : String
  uniqueId : Option String := none
  data : Bytes
deriving DecidableEq, Repr

/-- A report on a job that goes on. -/
inductive Report where
  | data (bs : Bytes)
  | warning (bs : Bytes)
  | exception (bs : Bytes)
  | status (numerator denominator : UInt64)
deriving DecidableEq, Repr

namespace Report

def kind : Report → Kind
  | .data _ => .workData
  | .warning _ => .workWarning
  | .exception _ => .workException
  | .status _ _ => .workStatus

/-- The fields that follow the handle. -/
def fields : Report → List Bytes
  | .data bs | .warning bs | .exception bs => [bs]
  | .status numerator denominator => [writeCounter numerator, writeCounter denominator]

end Report

/-- The packet that makes a report on the job of a context. -/
def Context.packet (c : Context) (r : Report) : Except Error Packet :=
  Packet.ofFields .request r.kind (c.handle :: r.fields)

/-- The packets that a function has sent and that nobody has taken yet. -/
structure Mailbox where
  packets : List Packet := []
  /-- Whether anyone will take them. -/
  isOpen : Bool := true
deriving DecidableEq, Repr

namespace Mailbox

def push (m : Mailbox) (p : Packet) : Except Error Unit × Mailbox :=
  if m.isOpen then (.ok (), { m with packets := m.packets ++ [p] }) else (.error .shutDown, m)

/-- Sends a report. A report that makes no packet fails even when nobody would take it. -/
def send (m : Mailbox) (c : Context) (r : Report) : Except Error Unit × Mailbox :=
  match c.packet r with
  | .ok p => m.push p
  | .error e => (.error e, m)

/-- Takes the oldest packet. -/
def receive (m : Mailbox) : Option Packet × Mailbox :=
  match m.packets with
  | p :: rest => (some p, { m with packets := rest })
  | [] => (none, m)

/-- Gives up on the packets, those that are there and those to come. -/
def close (_ : Mailbox) : Mailbox := ⟨[], false⟩

end Mailbox

end Gearman
