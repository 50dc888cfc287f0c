import Gearman.Client.Exchange
import Gearman.Job.Handle
import Gearman.Job.Result
import Gearman.Table

/-!
Clients: a pool of sessions, the exchanges in flight on them, and the jobs that they tell about.

A job is tracked from the reply that names its handle until its final report, and its result is kept
until someone collects it. When a session is lost, everything that hangs on it is forgotten: its
exchanges, its tracked jobs and their reports.
-/

namespace Gearman

/-- A client runs, finishes what it has begun, and ends; it never goes back. -/
inductive RunState where
  | running | shuttingDown | terminated
deriving DecidableEq, Repr

namespace RunState

def name : RunState → String
  | .running => "Running"
  | .shuttingDown => "ShuttingDown"
  | .terminated => "Terminated"

end RunState

/-- A packet that told about a job. -/
structure JobUpdate where
  job : JobHandle
  packet : Packet
deriving DecidableEq, Repr

structure Client where
  settings : ClientSettings := {}
  sessions : Table Address Session := ∅
  /-- The sessions that have left the pool, oldest first. -/
  retired : List Session := []
  tasks : Table TaskId PendingExchange := ∅
  /-- The tracked jobs, with what was reported of them. -/
  jobs : Table JobHandle JobResult := ∅
  /-- The results of jobs that are over and were not collected. -/
  finished : Table JobHandle JobResult := ∅
  /-- The packets about jobs that were not drained, oldest first. -/
  updates : List JobUpdate := []
  state : RunState := .running
  /-- How many tasks were numbered. -/
  issued : Nat := 0

namespace Client

/-- A client without servers. -/
def withSettings (settings : ClientSettings) : Client := { settings }

def isShutDown (c : Client) : Bool := c.state ≠ .running

def isTerminated (c : Client) : Bool := c.state = .terminated

def servers (c : Client) : List Address := c.sessions.keys

def hasServer (c : Client) (server : Address) : Bool := c.sessions.contains server

/-- The servers with a live session. -/
def liveServers (c : Client) : List Address :=
  (c.sessions.filter fun _ s => s.isLive).keys

def activeJobCount (c : Client) : Nat := c.jobs.size

def pendingUpdateCount (c : Client) : Nat := c.updates.length

def ensureRunning (c : Client) : Except Error Unit :=
  if c.state = .running then .ok () else .error .shutDown

/-- Puts a session where it can still be looked up after it has left the pool. -/
def retire (c : Client) (s : Session) : Client :=
  if s.wasOpened then { c with retired := c.retired ++ [s.teardown] } else c

/-- Forgets all that hangs on a server's session. Results of jobs that are over are kept. -/
def forgetServer (c : Client) (server : Address) : Client :=
  { c with
    tasks := c.tasks.filter fun _ pending => pending.server ≠ server
    jobs := c.jobs.filter fun job _ => job.server ≠ server
    updates := c.updates.filter fun u => u.job.server ≠ server }

/-- Drops the packets about one job. -/
def releaseUpdates (c : Client) (job : JobHandle) : Client :=
  { c with updates := c.updates.filter fun u => u.job ≠ job }

/-- Ends the client at once. -/
def shutdownNow (c : Client) : Client :=
  if c.isTerminated then c
  else
    let c := c.sessions.values.foldl retire c
    { c with
      sessions := ∅
      tasks := ∅
      jobs := ∅
      finished := ∅
      updates := []
      state := .terminated }

/-- Puts a fresh session in the place of the one of a server. -/
def resetSession (c : Client) (server : Address) : Client :=
  match c.sessions.get? server with
  | none => c.forgetServer server
  | some s =>
    let c := c.retire s
    let fresh : Session := { address := server, settings := c.settings.connection }
    { c with sessions := c.sessions.insert server fresh }.forgetServer server

/-- Takes a server out of the pool. -/
def discard (c : Client) (server : Address) : Client :=
  let c := ((c.sessions.get? server).elim c c.retire)
  { c with sessions := c.sessions.erase server }.forgetServer server

/-- Takes a server out of the pool for what it did. A client without servers ends. -/
def dropSession (c : Client) (server : Address) : Client :=
  let c := c.discard server
  if c.sessions.isEmpty then c.shutdownNow else c

/-- Adds a server; the session is opened when it is first needed. -/
def addServer (c : Client) (server : Address) : Except Error Bool × Client :=
  match c.ensureRunning with
  | .error e => (.error e, c)
  | .ok () =>
    if c.hasServer server then (.ok false, c)
    else
      let fresh : Session := { address := server, settings := c.settings.connection }
      (.ok true, { c with sessions := c.sessions.insert server fresh })

def removeServer (c : Client) (server : Address) : Except Error Unit × Client :=
  if c.hasServer server then (.ok (), c.discard server)
  else (.error (.unknownServer server.text), c)

/-- Collects the result of a job that is over. -/
def takeResult (c : Client) (job : JobHandle) : Option JobResult × Client :=
  match c.finished.get? job with
  | none => (none, c)
  | some result =>
    (some result, { c with finished := c.finished.erase job }.releaseUpdates job)

/-- Adds what a server sends; the second part is `false` if no session takes it. -/
def deliver (c : Client) (a : Arrival) : Client × Bool :=
  match c.sessions.get? a.server with
  | none => (c, false)
  | some s =>
    let (s, delivered) := s.deliver a
    ({ c with sessions := c.sessions.insert a.server s }, delivered)

/-- Whether there is something to do for a server's session without waiting for the server. -/
def isReady (c : Client) (server : Address) : Bool :=
  (c.sessions.get? server).any (·.isReady)

/-- How much there is to do for all sessions together. -/
def totalLoad (c : Client) : Nat := c.sessions.total Session.load

/-- The bytes from a server that are in no packet that was handled. -/
def backlog (c : Client) (server : Address) : Nat :=
  (c.sessions.get? server).elim 0 (·.backlog)

@[simp]
theorem sessions_retire (c : Client) (s : Session) : (c.retire s).sessions = c.sessions := by
  unfold retire
  split <;> rfl

/-- The session of a lost connection is fresh, and no other session has changed. -/
theorem sessions_resetSession {c : Client} {server : Address} {s : Session}
    (h : c.sessions.get? server = some s) :
    (c.resetSession server).sessions = c.sessions.insert server
      { address := server, settings := c.settings.connection } := by
  have hsettings : (c.retire s).settings = c.settings := by
    unfold retire
    split <;> rfl
  simp [resetSession, h, forgetServer, hsettings]

theorem sessions_discard (c : Client) (server : Address) :
    (c.discard server).sessions = c.sessions.erase server := by
  unfold discard forgetServer
  cases c.sessions.get? server <;> simp

/-- A server that is dropped takes its session along, or, if it was the last, the client ends. -/
theorem sessions_dropSession (c : Client) (server : Address) :
    (c.dropSession server).sessions = c.sessions.erase server ∨
      (c.dropSession server).sessions = ∅ := by
  simp only [dropSession]
  split
  · unfold shutdownNow
    split
    · exact .inl (sessions_discard c server)
    · exact .inr rfl
  · exact .inl (sessions_discard c server)

end Client

end Gearman
