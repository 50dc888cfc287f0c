import Gearman.Client.Request

/-!
Histories of a client.

A client goes on in small steps: something arrives, one packet is handled, a session is lost, a request
is sent. A chain of steps tells what happened to the client in the order in which it happened, as far as
the fate of jobs depends on it.
-/

namespace Gearman

/-- Whether a packet brings news of a job. -/
def Packet.isReport (p : Packet) : Bool := p.isResponse && p.kind.isUpdate

/-- Whether a request of kind `k` asks what the exchange wants to know. -/
def Exchange.fits (x : Exchange) (k : Kind) : Bool :=
  match x with
  | .submission background _ => k.isSubmission && k.isBackground == background
  | .status _ => k = .getStatus
  | .echo _ => k = .echoReq

/-- Whether the exchange submits a job that the client wants to hear about. -/
def Exchange.isAttached : Exchange → Bool
  | .submission false _ => true
  | _ => false

namespace Client

inductive Happening where
  /-- A packet was handled; `exchange` is the one that it answers, if that was still held. -/
  | packet (server : Address) (event : Session.Event) (exchange : Option Exchange)
  /-- All that hung on the session of a server was forgotten. -/
  | forgotten (server : Address)
  | collected (job : JobHandle)
  | drained (updates : List JobUpdate)
  | ended
deriving DecidableEq, Repr

/-- What happened to a client, oldest first. -/
abbrev History := List Happening

/-- The exchange with this number, if it is held. -/
def exchange? (c : Client) (id : TaskId) : Option Exchange :=
  (c.tasks.get? id).bind (·.task.responder)

/-- Whether the exchange with this number still waits for its reply. -/
def IsOpen (c : Client) (id : TaskId) : Prop :=
  ∃ pending, c.tasks.get? id = some pending ∧ pending.task.state.isAnswered = false

/-- The steps that servers bring about. -/
inductive Drive : Client → History → Client → Prop
  | arrival (c : Client) (a : Arrival) : Drive c [] (c.deliver a).1
  | idle {c c' : Client} {server : Address} (h : c.receive server = (.ok none, c')) :
    Drive c [] c'
  | failed {c c' : Client} {server : Address} {e : Error}
    (h : c.receive server = (.error e, c')) : Drive c [.forgotten server] c'
  | reply {c c' : Client} {server : Address} {id : TaskId} {p : Packet}
    (h : c.receive server = (.ok (some (.reply id p)), c')) :
    Drive c [.packet server (.reply id p) (c'.exchange? id)] (c'.handleReply server id p).2
  | report {c c' : Client} {server : Address} {p : Packet}
    (h : c.receive server = (.ok (some (.unsolicited p)), c')) (hp : p.isReport = true) :
    Drive c [.packet server (.unsolicited p) none] (c'.handleUpdate server p).2
  | expelled {c c' : Client} {server : Address} {p : Packet}
    (h : c.receive server = (.ok (some (.unsolicited p)), c')) (hp : p.isReport = false) :
    Drive c [.packet server (.unsolicited p) none, .forgotten server] (c'.discard server)
  | deserted {c : Client} (h : c.sessions.isEmpty = true) : Drive c [.ended] c.shutdownNow

/-- The steps of a client. -/
inductive Step : Client → History → Client → Prop
  | drive {c c' : Client} {log : History} (h : Drive c log c') : Step c log c'
  | added (c : Client) (server : Address) : Step c [] (c.addServer server).2
  | removed {c : Client} {server : Address} (h : c.hasServer server = true) :
    Step c [.forgotten server] (c.discard server)
  | opened (c : Client) (env : Surroundings) (server : Address) : Step c [] (c.session env server).2
  | asked {c c' : Client} {server : Address} {s : Session} {request : Packet} {x : Exchange}
    {task : Task Exchange} {id : TaskId} (hs : c.sessions.get? server = some s)
    (hx : x.fits request.kind = true) (htask : Task.new c.issued request (some x) = .ok task)
    (h : c.ask server s task = (.ok id, c')) : Step c [] c'
  | refused {c c' : Client} {server : Address} {s : Session} {request : Packet} {x : Exchange}
    {task : Task Exchange} {e : Error} (hs : c.sessions.get? server = some s)
    (htask : Task.new c.issued request (some x) = .ok task)
    (h : c.ask server s task = (.error e, c')) (he : e.isTooLarge = true) : Step c [] c'
  | severed {c c' : Client} {server : Address} {s : Session} {request : Packet} {x : Exchange}
    {task : Task Exchange} {e : Error} (hs : c.sessions.get? server = some s)
    (htask : Task.new c.issued request (some x) = .ok task)
    (h : c.ask server s task = (.error e, c')) (he : e.isTooLarge = false) :
    Step c [.forgotten server] c'
  | released (c : Client) (id : TaskId) : Step c [] { c with tasks := c.tasks.erase id }
  | detached {c : Client} {id : TaskId} (h : c.IsOpen id) : Step c [] (c.detach id)
  | collected {c : Client} {job : JobHandle} {r : JobResult} (h : c.finished.get? job = some r) :
    Step c [.collected job] (c.takeResult job).2
  | drained (c : Client) : Step c [.drained c.updates] { c with updates := [] }
  | closing {c : Client} (h : c.state = .running) : Step c [] { c with state := .shuttingDown }
  | ended (c : Client) : Step c [.ended] c.shutdownNow

/-- Steps one after the other. -/
inductive Chain (R : Client → History → Client → Prop) : Client → History → Client → Prop
  | refl (c : Client) : Chain R c [] c
  | tail {c c' c'' : Client} {log new : History} (h : Chain R c log c') (hstep : R c' new c'') :
    Chain R c (log ++ new) c''

/-- Some chain of steps leads from `c` to `c'`. -/
def Evolves (R : Client → History → Client → Prop) (c c' : Client) : Prop :=
  ∃ log, Chain R c log c'

variable {R S : Client → History → Client → Prop} {c c' c'' : Client}

theorem Chain.single {log : History} (h : R c log c') : Chain R c log c' :=
  .tail (.refl c) h

theorem Chain.trans {log log' : History} (h : Chain R c log c') (h' : Chain R c' log' c'') :
    Chain R c (log ++ log') c'' := by
  induction h' with
  | refl => simpa using h
  | tail _ hstep ih =>
    rw [← List.append_assoc]
    exact .tail ih hstep

theorem Chain.mono (hRS : ∀ {c log c'}, R c log c' → S c log c') {log : History}
    (h : Chain R c log c') : Chain S c log c' := by
  induction h with
  | refl => exact .refl _
  | tail _ hstep ih => exact .tail ih (hRS hstep)

/-- What every step keeps is kept by a chain. -/
theorem Chain.invariant {P : Client → Prop} (hstep : ∀ {c log c'}, R c log c' → P c → P c')
    {log : History} (h : Chain R c log c') (hc : P c) : P c' := by
  induction h with
  | refl => exact hc
  | tail _ hnew ih => exact hstep hnew ih

theorem Evolves.refl (c : Client) : Evolves R c c := ⟨[], .refl c⟩

theorem Evolves.single {log : History} (h : R c log c') : Evolves R c c' := ⟨log, .single h⟩

theorem Evolves.trans (h : Evolves R c c') (h' : Evolves R c' c'') : Evolves R c c'' := by
  obtain ⟨log, h⟩ := h
  obtain ⟨log', h'⟩ := h'
  exact ⟨log ++ log', h.trans h'⟩

theorem Evolves.mono (hRS : ∀ {c log c'}, R c log c' → S c log c') (h : Evolves R c c') :
    Evolves S c c' := by
  obtain ⟨log, h⟩ := h
  exact ⟨log, h.mono hRS⟩

theorem Evolves.invariant {P : Client → Prop} (hstep : ∀ {c log c'}, R c log c' → P c → P c')
    (h : Evolves R c c') (hc : P c) : P c' := by
  obtain ⟨log, h⟩ := h
  exact h.invariant hstep hc

end Client

end Gearman
