import Gearman.Packet.Basic
import Gearman.Error

/-!
Tasks: the life of one request, as told by the packets that are delivered to it.

A task leaves `fresh` when its own request is delivered, which says that it was sent: to `submitted`
if the server will answer, to `finished` if not. The first response makes it `running`; from then on
the responder sees every response until it calls the task complete or fails. `finished` and `failed`
are final.
-/

namespace Gearman

/-- Reads the responses to a request: says of each one whether it completes the request. -/
class Responder (η : Type) where
  respond : η → Packet → Except Error Bool × η

inductive TaskState where
  | fresh | submitted | running | finished | failed
deriving DecidableEq, Repr, Inhabited

namespace TaskState

/-- The place of a state in the life of a task. -/
def rank : TaskState → Nat
  | .fresh => 0
  | .submitted => 1
  | .running => 2
  | .finished => 3
  | .failed => 4

def name : TaskState → String
  | .fresh => "NEW"
  | .submitted => "SUBMITTED"
  | .running => "RUNNING"
  | .finished => "FINISHED"
  | .failed => "EXCEPTION"

/-- Whether a response has been delivered, or none is to come. -/
def isAnswered (s : TaskState) : Bool := running.rank ≤ s.rank

instance : ToString TaskState where
  toString := name

end TaskState

/-- A request and what became of it. -/
structure Task (η : Type) where
  id : TaskId
  request : Packet
  /-- Reads the responses, if anyone does. -/
  responder : Option η
  state : TaskState := .fresh
  isRequest_request : request.isRequest = true

namespace Task

variable {η : Type}

/-- A task that sends `request`; a response cannot be sent. -/
def new (id : TaskId) (request : Packet) (responder : Option η) : Except Error (Task η) :=
  if h : request.isRequest = true then
    .ok { id, request, responder, isRequest_request := h }
  else .error (.notARequest request.summary)

def name (t : Task η) : TaskName := ⟨t.id, t.request.kind⟩

/-- The state of a fresh task once its request is on its way. -/
def sentState (t : Task η) : TaskState :=
  if t.request.kind.isAnswered then .submitted else .finished

variable [Responder η]

/-- Hands a response to the responder. A task without one fails. -/
def respond (t : Task η) (p : Packet) : Except Error TaskState × Task η :=
  match t.responder with
  | none => (.error (.noResponder t.name p.summary), { t with state := .failed })
  | some responder =>
    match Responder.respond responder p with
    | (.ok true, responder) =>
      (.ok .finished, { t with responder := some responder, state := .finished })
    | (.ok false, responder) =>
      (.ok .running, { t with responder := some responder, state := .running })
    | (.error e, responder) =>
      (.error (.responderFailed t.name e), { t with responder := some responder, state := .failed })

/-- Delivers a packet. -/
def deliver (t : Task η) (p : Packet) : Except Error TaskState × Task η :=
  match t.state with
  | .fresh =>
    if p.isRequest then (.ok t.sentState, { t with state := t.sentState }) else (.ok .fresh, t)
  | .submitted | .running => if p.isResponse then t.respond p else (.ok t.state, t)
  | .finished => (.ok .finished, t)
  | .failed => (.error (.alreadyFailed t.name t.request.summary), t)

/-- A fresh task learns from its own request that it was sent. -/
theorem deliver_request {t : Task η} (h : t.state = .fresh) :
    t.deliver t.request = (.ok t.sentState, { t with state := t.sentState }) := by
  simp [deliver, h, t.isRequest_request]

end Task

end Gearman
