import Gearman.Session
import Gearman.Worker.Registry

/-!
Workers: the functions that they offer, their sessions, and the jobs that were assigned to them.

A worker has at most one unanswered request per session: it asks for a job, and after the answer that
there is none it announces that it sleeps. Either way the server speaks next.
-/

namespace Gearman

/-- Takes any reply as the end of a request. -/
structure Receipt where
deriving DecidableEq, Repr

instance : Responder Receipt where
  respond receipt _ := (.ok true, receipt)

/-- A session of a worker. -/
structure Member where
  session : Session
  /-- The request that the server has not answered. -/
  outstanding : Option (Task Receipt) := none

/-- A job that waits for its execution. -/
structure AssignedJob where
  server : Address
  handle : Bytes
  function : String
  uniqueId : Option String
  data : Bytes
  /-- The function that the worker offered under this name when the job arrived. -/
  definition : Definition

namespace AssignedJob

/-- What the function is told. -/
def context (j : AssignedJob) : Context := ⟨j.handle, j.function, j.uniqueId, j.data⟩

end AssignedJob

structure Worker where
  settings : WorkerSettings
  registry : Registry := ∅
  members : Table Address Member := ∅
  /-- The sessions that the worker has given up, oldest first. -/
  retired : List Session := []
  /-- The jobs to be executed, oldest first. -/
  queue : List AssignedJob := []
  /-- Whether the worker was asked to stop since it last began to work. -/
  stopped : Bool := false
  running : Bool := false
  /-- How many tasks were numbered. -/
  issued : Nat := 0

namespace Worker

/-- A worker without servers and functions. -/
def withSettings (settings : WorkerSettings) : Worker := { settings }

def workerId (w : Worker) : String := w.settings.workerId

def servers (w : Worker) : List Address := w.members.keys

def hasServer (w : Worker) (server : Address) : Bool := w.members.contains server

def functions (w : Worker) : List String := w.registry.names

def isRunning (w : Worker) : Bool := w.running

/-- Puts a session where it can still be looked up after the worker has given it up. -/
def retire (w : Worker) (s : Session) : Worker :=
  if s.wasOpened then { w with retired := w.retired ++ [s.teardown] } else w

/-- Gives up the session of a server, and the jobs that came from it. -/
def dropSession (w : Worker) (server : Address) : Worker :=
  let w := (w.members.get? server).elim w fun m => w.retire m.session
  { w with
    members := w.members.erase server
    queue := w.queue.filter fun j => j.server ≠ server }

/-- Sends a packet to a server; without a live session it is lost. The answer is `false` if the packet
was too long; any other fault costs the session. -/
def sendTo (w : Worker) (server : Address) (p : Packet) : Bool × Worker :=
  match w.members.get? server with
  | none => (true, w)
  | some m =>
    if m.session.isLive then
      match m.session.send p with
      | (.ok (), session) =>
        (true, { w with members := w.members.insert server { m with session } })
      | (.error e, session) =>
        let w := { w with members := w.members.insert server { m with session } }
        if e.isTooLarge then (false, w) else (true, w.dropSession server)
    else (true, w)

/-- Sends a packet to all servers. -/
def broadcast (w : Worker) (p : Packet) : Worker :=
  w.servers.foldl (fun w server => (w.sendTo server p).2) w

/-- The request that tells a server who the worker is. -/
def idPacket (w : Worker) : Packet := .request .setClientId (Text.Utf8.encode w.workerId)

def setWorkerId (w : Worker) (workerId : String) : Worker :=
  let w := { w with settings := { w.settings with workerId } }
  w.broadcast w.idPacket

/-- Offers a function, in the place of the one with its name. The function is on offer even if it
cannot be announced. -/
def register (w : Worker) (d : Definition) : Except Error Unit × Worker :=
  let w := { w with registry := (w.registry.register d).2 }
  match d.announcement with
  | .ok p => (.ok (), w.broadcast p)
  | .error e => (.error e, w)

/-- Takes a function off the offer; the answer says whether it was on it. -/
def unregister (w : Worker) (name : String) : Bool × Worker :=
  if w.registry.contains name then
    let w := { w with registry := (w.registry.unregister name).2 }
    (true, w.broadcast (.request .cantDo (Text.Utf8.encode name)))
  else (false, w)

def unregisterAll (w : Worker) : Worker :=
  { w with registry := ∅ }.broadcast (.request .resetAbilities [])

/-- Sends a request that any reply will answer. -/
def ask (w : Worker) (m : Member) (kind : Kind) : Except Error Unit × Member × Worker :=
  match Task.new w.issued (.request kind []) (some (Receipt.mk)) with
  | .error e => (.error e, m, w)
  | .ok task =>
    let w := { w with issued := w.issued + 1 }
    match m.session.submit task with
    | (.ok (), session, task) => (.ok (), { session, outstanding := some task }, w)
    | (.error e, session, _) => (.error e, { m with session }, w)

/-- Sends some packets one after the other, up to the first that fails. -/
def sendAll (s : Session) : List (Except Error Packet) → Except Error Unit × Session
  | [] => (.ok (), s)
  | .error e :: _ => (.error e, s)
  | .ok p :: rest =>
    match s.send p with
    | (.ok (), s) => sendAll s rest
    | (.error e, s) => (.error e, s)

/-- What a new server is told: who the worker is and what it offers. -/
def introduction (w : Worker) : List (Except Error Packet) :=
  .ok w.idPacket :: w.registry.definitions.map (·.announcement)

/-- Connects to a server that accepts the connection or refuses it, introduces the worker, and asks
for a job. The answer is `false` if the worker has the server already. -/
def addServer (w : Worker) (server : Address) (accepted : Bool) : Except Error Bool × Worker :=
  if w.hasServer server then (.ok false, w)
  else
    let fresh : Session := { address := server, settings := w.settings.connection }
    match fresh.init accepted with
    | (.error e, _) => (.error e, w)
    | (.ok (), session) =>
      match sendAll session w.introduction with
      | (.error e, session) => (.error e, w.retire session)
      | (.ok (), session) =>
        match w.ask { session } .grabJob with
        | (.error e, m, w) => (.error e, w.retire m.session)
        | (.ok (), m, w) => (.ok true, { w with members := w.members.insert server m })

/-- Takes leave of a server, after what waits to be written is written. -/
def closeMember (w : Worker) (m : Member) : Worker := w.retire m.session.closeGracefully.2

def removeServer (w : Worker) (server : Address) : Except Error Unit × Worker :=
  match w.members.get? server with
  | none => (.error (.unknownServer server.text), w)
  | some m =>
    (.ok (), { w with
      members := w.members.erase server
      queue := w.queue.filter fun j => j.server ≠ server }.closeMember m)

/-- Asks the worker to stop. -/
def stop (w : Worker) : Worker := { w with stopped := true }

/-- Stops the worker and takes leave of all servers. -/
def shutdown (w : Worker) : Worker :=
  { w.members.values.foldl closeMember w with members := ∅, queue := [], stopped := true }

/-- Adds what a server sends; the second part is `false` if no session takes it. -/
def deliver (w : Worker) (a : Arrival) : Worker × Bool :=
  match w.members.get? a.server with
  | none => (w, false)
  | some m =>
    let (session, delivered) := m.session.deliver a
    ({ w with members := w.members.insert a.server { m with session } }, delivered)

/-- The bytes from a server that are in no packet that was handled. -/
def backlog (w : Worker) (server : Address) : Nat :=
  (w.members.get? server).elim 0 (·.session.backlog)

theorem members_retire (w : Worker) (s : Session) : (w.retire s).members = w.members := by
  unfold retire
  split <;> rfl

theorem backlog_insert_le {w : Worker} {server : Address} {m : Member} (m' : Member)
    (h : w.members.get? server = some m) (hm : m'.session.backlog ≤ m.session.backlog)
    (other : Address) :
    { w with members := w.members.insert server m' }.backlog other ≤ w.backlog other := by
  by_cases hs : server = other
  · subst hs
    simpa [backlog, h] using hm
  · simp [backlog, hs]

theorem backlog_dropSession_le (w : Worker) (server other : Address) :
    (w.dropSession server).backlog other ≤ w.backlog other := by
  have hmembers : (w.dropSession server).members = w.members.erase server := by
    unfold dropSession
    cases w.members.get? server <;> simp [members_retire]
  by_cases hs : server = other
  · subst hs
    simp [backlog, hmembers]
  · simp [backlog, hmembers, hs]

theorem backlog_sendTo_le (w : Worker) (server other : Address) (p : Packet) :
    (w.sendTo server p).2.backlog other ≤ w.backlog other := by
  unfold sendTo
  split
  · exact Nat.le_refl _
  · next m hm =>
    split
    · split
      · next session hsend =>
        exact backlog_insert_le _ hm (Session.backlog_of_send hsend) other
      · next e session hsend =>
        have hinsert := backlog_insert_le { m with session } hm
          (Session.backlog_of_send hsend) other
        simp only
        split
        · exact hinsert
        · exact Nat.le_trans (backlog_dropSession_le _ _ _) hinsert
    · exact Nat.le_refl _

/-- A request changes one member and numbers a task. -/
theorem members_of_ask {w w' : Worker} {m m' : Member} {kind : Kind} {r : Except Error Unit}
    (h : w.ask m kind = (r, m', w')) :
    w'.members = w.members ∧ m'.session.backlog ≤ m.session.backlog := by
  unfold ask at h
  split at h
  · cases h
    exact ⟨rfl, Nat.le_refl _⟩
  · split at h
    all_goals
      next hsubmit =>
      cases h
      exact ⟨rfl, Session.backlog_of_submit hsubmit⟩

end Worker

end Gearman
