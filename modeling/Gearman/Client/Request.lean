import Gearman.Client.Wait
import Gearman.Job.Basic

/-!
The operations of a client that talk to servers.

A deadline ends a wait and takes nothing back: a request that was sent stays in flight, and a job
whose handle comes too late for its submission is tracked like any other.
-/

namespace Gearman

/-- What a client finds around itself during one operation. -/
structure Surroundings where
  /-- Whether a server accepts a connection. -/
  accepts : Address → Bool
  /-- Picks one of several servers. -/
  chance : Nat := 0
  /-- What servers send until the deadline of the operation. -/
  arrivals : List Arrival := []

/-- What an operation of a client leaves behind. -/
structure Answer (α : Type) where
  outcome : Except Error α
  client : Client
  /-- What servers had not sent yet when the operation was over. -/
  rest : List Arrival

namespace Client

/-- Picks a server. -/
def pickServer (c : Client) (chance : Nat) : Except Error Address :=
  match c.servers[chance % c.servers.length]? with
  | some server => .ok server
  | none => .error .noServers

/-- The session of a server, which is opened if it is not live. -/
def session (c : Client) (env : Surroundings) (server : Address) :
    Except Error Session × Client :=
  match c.sessions.get? server with
  | none => (.error (.unknownServer server.text), c)
  | some s =>
    if s.isLive then (.ok s, c)
    else
      match s.init (env.accepts server) with
      | (.ok (), s) => (.ok s, { c with sessions := c.sessions.insert server s })
      | (.error e, s) => (.error e, { c with sessions := c.sessions.insert server s })

/-- Sends the request of a task over a live session. A request that is too long costs nothing; any
other fault costs the session. -/
def ask (c : Client) (server : Address) (s : Session) (task : Task Exchange) :
    Except Error TaskId × Client :=
  let c := { c with issued := c.issued + 1 }
  match s.submit task with
  | (.ok (), s, task) =>
    (.ok task.id, { c with
      sessions := c.sessions.insert server s
      tasks := c.tasks.insert task.id { task, server } })
  | (.error e, s, _) =>
    let c := { c with sessions := c.sessions.insert server s }
    (.error e, if e.isTooLarge then c else c.resetSession server)

/-- Numbers the request of an exchange and sends it. -/
def start (c : Client) (env : Surroundings) (server : Address) (request : Packet) (x : Exchange) :
    Except Error TaskId × Client :=
  match Task.new c.issued request (some x) with
  | .error e => (.error e, c)
  | .ok task =>
    match c.session env server with
    | (.error e, c) => (.error e, c)
    | (.ok s, c) => c.ask server s task

/-- Leaves an exchange to itself. -/
def detach (c : Client) (id : TaskId) : Client :=
  match c.tasks.get? id with
  | none => c
  | some pending => { c with tasks := c.tasks.insert id { pending with detached := true } }

/-- Takes an exchange out of the client. -/
def takeExchange (c : Client) (id : TaskId) : Option Exchange × Client :=
  ((c.tasks.get? id).bind (·.task.responder), { c with tasks := c.tasks.erase id })

/-- Sends a request and waits for its reply, which is called `awaited`. -/
def exchange (c : Client) (env : Surroundings) (server : Address) (request : Packet) (x : Exchange)
    (awaited : String) : Answer (Option Exchange) :=
  match c.start env server request x with
  | (.error e, c) => ⟨.error e, c, env.arrivals⟩
  | (.ok id, c) =>
    match (replyTo id server).run env.arrivals c with
    | ⟨some (.ok ()), c, rest⟩ =>
      let (answer, c) := c.takeExchange id
      ⟨.ok answer, c, rest⟩
    | ⟨some (.error e), c, rest⟩ => ⟨.error e, { c with tasks := c.tasks.erase id }, rest⟩
    | ⟨none, c, rest⟩ => ⟨.error (.timeout awaited), c.detach id, rest⟩

/-- Submits a job to one of the servers. -/
def submit (c : Client) (env : Surroundings) (j : Job) : Answer JobHandle :=
  match c.ensureRunning, j.toPacket, c.pickServer env.chance with
  | .error e, _, _ | .ok (), .error e, _ | .ok (), .ok _, .error e => ⟨.error e, c, env.arrivals⟩
  | .ok (), .ok request, .ok server =>
    match c.exchange env server request (.submission j.background none) "JOB_CREATED" with
    | ⟨.error e, c, rest⟩ => ⟨.error e, c, rest⟩
    | ⟨.ok (some (.submission _ (some handle))), c, rest⟩ => ⟨.ok ⟨handle, server⟩, c, rest⟩
    | ⟨.ok _, c, rest⟩ => ⟨.error (.incomplete "submission" "a job handle"), c, rest⟩

/-- Waits for the end of a job and collects its result. -/
def waitForJob (c : Client) (env : Surroundings) (job : JobHandle) : Answer JobResult :=
  match (endOf job).run env.arrivals c with
  | ⟨some outcome, c, rest⟩ => ⟨outcome, c, rest⟩
  | ⟨none, c, rest⟩ => ⟨.error (.timeout ("result of " ++ job.text)), c, rest⟩

/-- Submits a job and waits for its end. -/
def execute (c : Client) (env : Surroundings) (j : Job) : Answer JobResult :=
  if j.background then ⟨.error .backgroundJob, c, env.arrivals⟩
  else
    match c.submit env j with
    | ⟨.error e, c, rest⟩ => ⟨.error e, c, rest⟩
    | ⟨.ok job, c, rest⟩ => c.waitForJob { env with arrivals := rest } job

/-- Asks a server about one of its jobs. -/
def jobStatus (c : Client) (env : Surroundings) (job : JobHandle) : Answer JobStatus :=
  match c.ensureRunning with
  | .error e => ⟨.error e, c, env.arrivals⟩
  | .ok () =>
    let request := Packet.request .getStatus job.handle
    match c.exchange env job.server request (.status none) "STATUS_RES" with
    | ⟨.error e, c, rest⟩ => ⟨.error e, c, rest⟩
    | ⟨.ok (some (.status (some status))), c, rest⟩ => ⟨.ok status, c, rest⟩
    | ⟨.ok _, c, rest⟩ => ⟨.error (.incomplete "status request" "STATUS_RES"), c, rest⟩

/-- Has one of the servers send some bytes back. -/
def echo (c : Client) (env : Surroundings) (data : Bytes) : Answer Bytes :=
  match c.ensureRunning, c.pickServer env.chance with
  | .error e, _ | .ok (), .error e => ⟨.error e, c, env.arrivals⟩
  | .ok (), .ok server =>
    match c.exchange env server (Packet.request .echoReq data) (.echo none) "ECHO_RES" with
    | ⟨.error e, c, rest⟩ => ⟨.error e, c, rest⟩
    | ⟨.ok (some (.echo (some data))), c, rest⟩ => ⟨.ok data, c, rest⟩
    | ⟨.ok _, c, rest⟩ => ⟨.error (.incomplete "echo" "ECHO_RES"), c, rest⟩

/-- Takes no new work, waits for the end of all jobs and ends the client. The answer says whether
nothing was left to wait for. -/
def shutdown (c : Client) (arrivals : List Arrival) : Bool × Client × List Arrival :=
  if c.state = .running then
    match endOfJobs.run arrivals { c with state := .shuttingDown } with
    | ⟨some (.ok drained), c, rest⟩ => (drained, c.shutdownNow, rest)
    | ⟨_, c, rest⟩ => (false, c.shutdownNow, rest)
  else (c.jobs.isEmpty, c, arrivals)

end Client

end Gearman
