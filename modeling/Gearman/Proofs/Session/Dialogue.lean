import Gearman.Proofs.Link.Inbound
import Gearman.Proofs.Link.Writing
import Gearman.Session

/-!
Dialogues of a session and its server.

The server takes what is written in pieces, and answers the requests that need an answer in the order in
which they were written. It makes remarks in between. What it says goes over the wire as bytes, of which any
number arrives at a time.
-/

namespace Gearman

/-- The task whose request was answered. -/
def Session.Event.task? : Session.Event → Option TaskId
  | .reply task _ => some task
  | .unsolicited _ => none

/-- Something that a server says. -/
inductive Said where
  | answer (request : Awaited) (packet : Packet)
  | remark (packet : Packet)
deriving DecidableEq, Repr

namespace Said

def packet : Said → Packet
  | .answer _ p => p
  | .remark p => p

/-- The report that a session owes to its user. -/
def event : Said → Session.Event
  | .answer a p => .reply a.task p
  | .remark p => .unsolicited p

/-- The request that is answered. -/
def request? : Said → Option Awaited
  | .answer a _ => some a
  | .remark _ => none

/-- What can be said: packets that have an encoding, and answers that answer their request. -/
structure Valid (x : Said) : Prop where
  length_lt : x.packet.payload.length < UInt32.size
  isReply : ∀ a p, x = .answer a p → Session.isReply p a = true

end Said

/-- A session with its server. -/
structure Dialogue where
  session : Session
  /-- The requests that need an answer, in the order in which they were written. -/
  written : List Awaited := []
  /-- What the server has said so far. -/
  said : List Said := []
  /-- The part of it that has not arrived. -/
  wire : Bytes := []
  /-- What the session has reported so far. -/
  reports : List Session.Event := []

namespace Dialogue

/-- The requests that the server has answered. -/
def answered (d : Dialogue) : List Awaited := d.said.filterMap Said.request?

/-- What the server has said and the session has reported. -/
def heard (d : Dialogue) : List Said := d.said.take d.reports.length

def unheard (d : Dialogue) : List Said := d.said.drop d.reports.length

/-- The next thing that the session will hear is no remark that looks like the answer to its oldest
request. -/
def Unmistakable (d : Dialogue) : Prop :=
  ∀ p rest, d.unheard = .remark p :: rest → ∀ a ∈ d.session.awaiting.head?,
    Session.isReply p a = false

inductive Step : Dialogue → Dialogue → Prop
  | submitted {η : Type} [Responder η] {d : Dialogue} {t t' : Task η} {s : Session}
    (hfresh : t.state = .fresh) (hid : ∀ a ∈ d.written, a.task ≠ t.id)
    (h : d.session.submit t = (.ok (), s, t')) :
    Step d { d with session := s, written := d.written ++ Session.awaitedOf t }
  | refused {η : Type} [Responder η] {d : Dialogue} {t t' : Task η} {s : Session} {e : Error}
    (hfresh : t.state = .fresh) (h : d.session.submit t = (.error e, s, t')) :
    Step d { d with session := s }
  | sent (d : Dialogue) {p : Packet} (hp : p.kind.isAnswered = false) :
    Step d { d with session := (d.session.send p).2 }
  | answered {d : Dialogue} {a : Awaited} {rest : List Awaited} {p : Packet}
    (h : d.written.drop d.answered.length = a :: rest) (hreply : Session.isReply p a = true)
    (hlength : p.payload.length < UInt32.size) :
    Step d { d with said := d.said ++ [.answer a p], wire := d.wire ++ p.encode }
  | remarked (d : Dialogue) {p : Packet} (hlength : p.payload.length < UInt32.size) :
    Step d { d with said := d.said ++ [.remark p], wire := d.wire ++ p.encode }
  | arrived (d : Dialogue) (n : Nat) (ending : Ending) :
    Step d { d with
      session := (d.session.deliver ⟨d.session.address, d.wire.take n, ending⟩).1
      wire := d.wire.drop n }
  | driven {d : Dialogue} {event : Option Session.Event} {s : Session}
    (h : d.session.step = (.ok event, s)) (hclear : event.isSome = true → d.Unmistakable) :
    Step d { d with session := s, reports := d.reports ++ event.toList }
  | failed {d : Dialogue} {s : Session} {e : Error} (h : d.session.step = (.error e, s)) :
    Step d { d with session := s }

/-- The dialogues with a server at this address. -/
inductive Reached (address : Address) (settings : ConnectionSettings) : Dialogue → Prop
  | opened (uptakes : List Uptake) {s : Session}
    (h : ({ address, settings } : Session).init true uptakes = (.ok (), s)) :
    Reached address settings { session := s }
  | next {d d' : Dialogue} (h : Reached address settings d) (hstep : Step d d') :
    Reached address settings d'

/-- What is in the connection and on the wire is what the session has not heard. -/
structure Carries (c : Connection) (wire : Bytes) (unheard : List Said) : Prop where
  fate : c.stream.fate ≠ .reset true
  sawEnd : c.sawEnd = true → c.stream.fate = .ended ∧ c.stream.arriving = []
  bytes : ∃ lost, c.pending ++ lost = unheard.flatMap (·.packet.encode) ∧
    (c.stream.fate = .flowing → lost = wire)

/-- What holds of a dialogue after every step. -/
structure Sound (settings : ConnectionSettings) (d : Dialogue) : Prop where
  valid : ∀ x ∈ d.said, x.Valid
  answered : d.answered <+: d.written
  nodup : (d.written.map (·.task)).Nodup
  reports : d.reports = d.heard.map Said.event
  queue : d.session.isLive = true →
    d.session.awaiting = d.written.drop (d.heard.filterMap Said.request?).length
  carries : ∀ c, d.session.connection? = some c → Carries c d.wire d.unheard
  sent : ∀ c, d.session.connection? = some c → c.maxPayload = settings.maxPayloadSize ∧
    (c.outgoing.filter (·.kind.isAnswered)).map (·.kind) = d.written.map (·.kind)

end Dialogue

end Gearman
