import Gearman.Link.Connection
import Gearman.Task

/-!
The record of a session: how far it has got, the one connection to its job server, and the queue of
requests that the server still has to answer.

Job servers answer requests in the order in which they arrive, so a response that can be an answer to
the oldest request of the queue is taken for it. A session is opened once and closed once; a fault of
the stream or a packet that makes no sense closes it.
-/

namespace Gearman

/-- A request that a server has not answered. -/
structure Awaited where
  task : TaskId
  kind : Kind
deriving DecidableEq, Repr

namespace Session

/-- A packet from the server. -/
inductive Event where
  /-- The answer to the request of `task`. -/
  | reply (task : TaskId) (packet : Packet)
  | unsolicited (packet : Packet)
deriving DecidableEq, Repr

namespace Event

def packet : Event → Packet
  | .reply _ p => p
  | .unsolicited p => p

end Event

/-- Whether a packet can be the answer to a request. -/
def isReply (p : Packet) (a : Awaited) : Bool := p.isResponse && p.kind.answers a.kind

/-- Tells an answer to the oldest request of the queue from all other packets, and takes that request
off the queue. -/
def classify (awaiting : List Awaited) (p : Packet) : Event × List Awaited :=
  match awaiting with
  | a :: rest => if isReply p a then (.reply a.task p, rest) else (.unsolicited p, awaiting)
  | [] => (.unsolicited p, [])

inductive State where
  | unopened | live | closed
deriving DecidableEq, Repr

def State.name : State → String
  | .unopened => "Uninitialized"
  | .live => "Initialized"
  | .closed => "Closed"

/-- Nothing here ties the fields to each other; the operations do. -/
structure Record where
  address : Address
  settings : ConnectionSettings
  state : State := .unopened
  connection? : Option Connection := none
  /-- The requests without an answer, oldest first. -/
  awaiting : List Awaited := []
  /-- What was sent on connections that the session has let go of. -/
  past : List Packet := []
deriving DecidableEq, Repr

namespace Record

/-- The name of the server. -/
def text (r : Record) : String := r.address.text

/-- What the session has sent, oldest first. -/
def sent (r : Record) : List Packet :=
  match r.connection? with
  | some c => r.past ++ c.sent
  | none => r.past

def hasPendingWrites (r : Record) : Bool := r.connection?.any (·.hasPendingWrites)

/-- Why a session that is not live cannot be used. -/
def lifecycleError (r : Record) : Error :=
  match r.state with
  | .closed => .sessionClosed r.text
  | _ => .sessionUnopened r.text

/-- The connection, for an operation that needs one. -/
def use (r : Record) : Except Error Connection :=
  if r.state = .live then
    match r.connection? with
    | some c => .ok c
    | none => .error (.sessionUnopened r.text)
  else .error r.lifecycleError

/-- Closes the session, whatever it was. -/
def teardown (r : Record) : Record :=
  { r with past := r.sent, connection? := none, awaiting := [], state := .closed }

/-- Connects to the server, which accepts the connection or refuses it. One that accepts takes what is
written in the steps that `uptakes` tells of. -/
def init (r : Record) (accepted : Bool) (uptakes : List Uptake := []) : Except Error Unit × Record :=
  match r.state with
  | .live => (.error (.sessionOpenedTwice r.text), r)
  | .closed => (.error (.sessionClosed r.text), r)
  | .unopened =>
    match Connection.connect r.address r.settings accepted uptakes with
    | .ok c => (.ok (), { r with connection? := some c, state := .live })
    | .error e => (.error e, r)

def close (r : Record) : Except Error Unit × Record :=
  match r.state with
  | .unopened => (.error (.sessionUnopened r.text), r)
  | .closed => (.error (.sessionClosed r.text), r)
  | .live => (.ok (), r.teardown)

/-- Closes the session after it has written what waits to be written, as far as that works. -/
def closeGracefully (r : Record) : Except Error Unit × Record :=
  if r.state = .live then
    { r with connection? := r.connection?.map fun c : Connection => c.shutdown.2 }.close
  else r.close

/-- Writes a packet, if there is one, and what waits to be written. A packet that is too long changes
nothing; a fault closes the session. -/
def write (r : Record) (p? : Option Packet) : Except Error Nat × Record :=
  match r.use with
  | .error e => (.error e, r)
  | .ok c =>
    match p?.elim (.ok ()) c.checkOutbound with
    | .error e => (.error e, r)
    | .ok () =>
      match c.write p? with
      | (.ok n, c) => (.ok n, { r with connection? := some c })
      | (.error e, c) => (.error e, { r with connection? := some c }.teardown)

/-- Sends a packet that is not answered. -/
def send (r : Record) (p : Packet) : Except Error Unit × Record :=
  match r.write (some p) with
  | (.ok _, r) => (.ok (), r)
  | (.error e, r) => (.error e, r)

/-- Sends the request of a task and tells the task so. The session awaits an answer if the task
does. -/
def submit {η : Type} [Responder η] (r : Record) (t : Task η) : Except Error Unit × Record × Task η :=
  match r.write (some t.request) with
  | (.error e, r) => (.error e, r, t)
  | (.ok _, r) =>
    match t.deliver t.request with
    | (.error e, t) => (.error e, r, t)
    | (.ok .submitted, t) =>
      (.ok (), { r with awaiting := r.awaiting ++ [⟨t.id, t.request.kind⟩] }, t)
    | (.ok _, t) => (.ok (), r, t)

/-- Writes what waits to be written, reads once and reports at most one packet. -/
def step (r : Record) : Except Error (Option Event) × Record :=
  match r.write none with
  | (.error e, r) => (.error e, r)
  | (.ok _, r) =>
    match r.use with
    | .error e => (.error e, r)
    | .ok c =>
      match c.read with
      | (.error e, c) => (.error e, { r with connection? := some c }.teardown)
      | (.ok none, c) => (.ok none, { r with connection? := some c })
      | (.ok (some p), c) =>
        let (event, awaiting) := classify r.awaiting p
        (.ok (some event), { r with connection? := some c, awaiting })

/-- Whether there is something to do without waiting for the server. -/
def ready (r : Record) : Except Error Bool :=
  match r.connection?, r.state with
  | some c, .live => .ok c.isReady
  | _, _ => .error r.lifecycleError

/-- Adds what a server sends; the second part is `false` if no stream takes it. -/
def deliver (r : Record) (a : Arrival) : Record × Bool :=
  match r.connection? with
  | some c => let (c, delivered) := c.deliver a; ({ r with connection? := some c }, delivered)
  | none => (r, false)

/-- A session in one line, as reports mention it. -/
def describe (r : Record) : String :=
  "Session \x7b address: " ++ r.address.describe ++ ", state: " ++ r.state.name ++
    ", awaiting: " ++ toString r.awaiting.length ++ " \x7d"

end Record

/-- A reply answers the oldest request, and no other request leaves the queue. -/
theorem classify_reply {awaiting rest : List Awaited} {p q : Packet} {id : TaskId}
    (h : classify awaiting p = (.reply id q, rest)) :
    q = p ∧ ∃ a, awaiting = a :: rest ∧ a.task = id ∧ isReply p a = true := by
  unfold classify at h
  split at h
  · next a rest =>
    split at h
    · next hreply =>
      cases h
      exact ⟨rfl, a, rfl, rfl, hreply⟩
    · simp at h
  · simp at h

/-- A packet that is no reply does not answer the oldest request and leaves the queue alone. -/
theorem classify_unsolicited {awaiting rest : List Awaited} {p q : Packet}
    (h : classify awaiting p = (.unsolicited q, rest)) :
    q = p ∧ rest = awaiting ∧ ∀ a ∈ awaiting.head?, isReply p a = false := by
  unfold classify at h
  split at h
  · next a rest =>
    split at h
    · simp at h
    · next hreply =>
      cases h
      refine ⟨rfl, rfl, fun a ha => ?_⟩
      obtain rfl : _ = a := by simpa using ha
      simpa using hreply
  · cases h
    exact ⟨rfl, rfl, by simp⟩

end Session

end Gearman
