import Gearman.Client.Request
import Gearman.Proofs.Client.Rounds

/-!
Calls: the operations of a client that wait for servers, and how a call stands once all that had arrived
was read. A call that is over then is the same whatever arrives later.
-/

namespace Gearman

/-- The answer of an operation before whose deadline more would have arrived. -/
def Answer.followedBy {α : Type} (answer : Answer α) (more : List Arrival) : Answer α :=
  { answer with rest := answer.rest ++ more }

namespace Client

/-- An operation that waits for a server, by the type of what it returns. -/
inductive Call : Type → Type where
  | submit (job : Job) : Call JobHandle
  | echo (data : Bytes) : Call Bytes
  | jobStatus (job : JobHandle) : Call JobStatus
  | waitForJob (job : JobHandle) : Call JobResult

/-- What a call waits for. -/
inductive Goal where
  | reply (id : TaskId) (server : Address)
  | result (job : JobHandle)
deriving DecidableEq, Repr

namespace Goal

/-- The server that a call waits for. -/
def server : Goal → Address
  | .reply _ server => server
  | .result job => job.server

/-- The wait for this goal ends with an error. -/
def Fails (goal : Goal) (arrivals : List Arrival) (c : Client) (e : Error) (c' : Client)
    (rest : List Arrival) : Prop :=
  match goal with
  | .reply id server => (replyTo id server).run arrivals c = ⟨some (.error e), c', rest⟩
  | .result job => (endOf job).run arrivals c = ⟨some (.error e), c', rest⟩

/-- What a call that has failed leaves of the client: its exchange is given up. -/
def abandon (goal : Goal) (c : Client) : Client :=
  match goal with
  | .reply id _ => { c with tasks := c.tasks.erase id }
  | .result _ => c

@[simp]
theorem jobs_abandon (goal : Goal) (c : Client) : (goal.abandon c).jobs = c.jobs := by
  cases goal <;> rfl

end Goal

/-- How a call stands that is not over: what it waits for, and the client that waits. -/
structure Standing where
  goal : Goal
  client : Client

/-- How an exchange stands when all of `env.arrivals` was read, unless it is over. -/
def exchangeStanding? (c : Client) (env : Surroundings) (server : Address) (request : Packet)
    (x : Exchange) : Option Standing :=
  match c.start env server request x with
  | (.error _, _) => none
  | (.ok id, c) =>
    match (replyTo id server).run env.arrivals c with
    | ⟨none, c, _⟩ => some ⟨.reply id server, c⟩
    | ⟨some _, _, _⟩ => none

namespace Call

variable {α : Type} {c : Client} {env : Surroundings}

def place (c : Client) (env : Surroundings) : Call α → Answer α
  | .submit job => c.submit env job
  | .echo data => c.echo env data
  | .jobStatus job => c.jobStatus env job
  | .waitForJob job => c.waitForJob env job

/-- How a call stands when all of `env.arrivals` was read, unless it is over. -/
def standing? (c : Client) (env : Surroundings) : Call α → Option Standing
  | .submit job =>
    match c.ensureRunning, job.toPacket, c.pickServer env.chance with
    | .ok (), .ok request, .ok server =>
      c.exchangeStanding? env server request (.submission job.background none)
    | _, _, _ => none
  | .echo data =>
    match c.ensureRunning, c.pickServer env.chance with
    | .ok (), .ok server =>
      c.exchangeStanding? env server (Packet.request .echoReq data) (.echo none)
    | _, _ => none
  | .jobStatus job =>
    match c.ensureRunning with
    | .ok () =>
      c.exchangeStanding? env job.server (Packet.request .getStatus job.handle) (.status none)
    | .error _ => none
  | .waitForJob job =>
    match (endOf job).run env.arrivals c with
    | ⟨none, c, _⟩ => some ⟨.result job, c⟩
    | ⟨some _, _, _⟩ => none

end Call

variable {c : Client} {env : Surroundings} {server : Address} {request : Packet} {x : Exchange}
  {awaited : String}

theorem exchange_of_over (h : c.exchangeStanding? env server request x = none)
    (more : List Arrival) :
    c.exchange { env with arrivals := env.arrivals ++ more } server request x awaited =
      (c.exchange env server request x awaited).followedBy more := by
  have hstart : c.start { env with arrivals := env.arrivals ++ more } server request x =
      c.start env server request x := rfl
  revert h
  unfold exchangeStanding? exchange
  rw [hstart]
  match c.start env server request x with
  | (.error e, _) => exact fun _ => rfl
  | (.ok id, c) =>
    simp only [Watch.run_append]
    match (replyTo id server).run env.arrivals c with
    | ⟨none, _, _⟩ => simp
    | ⟨some (.error e), _, _⟩ => exact fun _ => rfl
    | ⟨some (.ok ()), _, _⟩ => exact fun _ => rfl

theorem exchange_of_fails {st : Standing} (h : c.exchangeStanding? env server request x = some st)
    {a : Arrival} {more rest : List Arrival} {e : Error} {c' : Client}
    (hfails : st.goal.Fails more (st.client.deliver a).1 e c' rest) :
    c.exchange { env with arrivals := env.arrivals ++ a :: more } server request x awaited =
      ⟨.error e, st.goal.abandon c', rest⟩ := by
  have hstart : c.start { env with arrivals := env.arrivals ++ a :: more } server request x =
      c.start env server request x := rfl
  revert h
  unfold exchangeStanding? exchange
  rw [hstart]
  match c.start env server request x with
  | (.error e, _) => simp
  | (.ok id, c) =>
    simp only [Watch.run_append]
    match (replyTo id server).run env.arrivals c with
    | ⟨none, _, _⟩ =>
      rintro ⟨⟩
      simp only [Goal.Fails] at hfails
      simp only [Watch.resume, hfails, Goal.abandon]
    | ⟨some _, _, _⟩ => simp

namespace Call

variable {α : Type}

/-- A call that is over once all of `env.arrivals` was read is over whatever comes later. -/
theorem place_of_over (call : Call α) (h : call.standing? c env = none) (more : List Arrival) :
    call.place c { env with arrivals := env.arrivals ++ more } =
      (call.place c env).followedBy more := by
  revert h
  cases call with
  | submit job =>
    simp only [standing?, place, Client.submit]
    match c.ensureRunning, job.toPacket, c.pickServer env.chance with
    | .error e, _, _ => exact fun _ => rfl
    | .ok (), .error e, _ => exact fun _ => rfl
    | .ok (), .ok request, .error e => exact fun _ => rfl
    | .ok (), .ok request, .ok server =>
      simp only
      intro h
      rw [exchange_of_over h]
      obtain ⟨_ | _ | ⟨_, _ | _⟩ | _ | _, c', rest⟩ := c.exchange env _ _ _ _ <;> rfl
  | echo data =>
    simp only [standing?, place, Client.echo]
    match c.ensureRunning, c.pickServer env.chance with
    | .error e, _ => exact fun _ => rfl
    | .ok (), .error e => exact fun _ => rfl
    | .ok (), .ok server =>
      simp only
      intro h
      rw [exchange_of_over h]
      obtain ⟨_ | _ | _ | _ | _ | _, c', rest⟩ := c.exchange env _ _ _ _ <;> rfl
  | jobStatus job =>
    simp only [standing?, place, Client.jobStatus]
    match c.ensureRunning with
    | .error e => exact fun _ => rfl
    | .ok () =>
      intro h
      rw [exchange_of_over h]
      obtain ⟨_ | _ | _ | ⟨_ | _⟩ | _, c', rest⟩ := c.exchange env _ _ _ _ <;> rfl
  | waitForJob job =>
    simp only [standing?, place, Client.waitForJob, Watch.run_append]
    match (endOf job).run env.arrivals c with
    | ⟨none, _, _⟩ => simp
    | ⟨some _, _, _⟩ => exact fun _ => rfl

/-- A call that is not over ends with the error that its wait ends with. -/
theorem place_of_fails (call : Call α) {st : Standing} (h : call.standing? c env = some st)
    {a : Arrival} {more rest : List Arrival} {e : Error} {c' : Client}
    (hfails : st.goal.Fails more (st.client.deliver a).1 e c' rest) :
    call.place c { env with arrivals := env.arrivals ++ a :: more } =
      ⟨.error e, st.goal.abandon c', rest⟩ := by
  revert h
  cases call with
  | submit job =>
    simp only [standing?, place, Client.submit]
    match c.ensureRunning, job.toPacket, c.pickServer env.chance with
    | .error e, _, _ => simp
    | .ok (), .error e, _ => simp
    | .ok (), .ok request, .error e => simp
    | .ok (), .ok request, .ok server =>
      intro h
      simp only [exchange_of_fails h hfails]
  | echo data =>
    simp only [standing?, place, Client.echo]
    match c.ensureRunning, c.pickServer env.chance with
    | .error e, _ => simp
    | .ok (), .error e => simp
    | .ok (), .ok server =>
      intro h
      simp only [exchange_of_fails h hfails]
  | jobStatus job =>
    simp only [standing?, place, Client.jobStatus]
    match c.ensureRunning with
    | .error e => simp
    | .ok () =>
      intro h
      simp only [exchange_of_fails h hfails]
  | waitForJob job =>
    simp only [standing?, place, Client.waitForJob, Watch.run_append]
    match (endOf job).run env.arrivals c with
    | ⟨none, _, _⟩ =>
      rintro ⟨⟩
      simp only [Goal.Fails] at hfails
      simp only [Watch.resume, hfails, Goal.abandon]
    | ⟨some _, _, _⟩ => simp

/-- A call that is not over waits for the reply to an exchange, or for the end of a job. -/
theorem standing?_cases {call : Call α} {st : Standing} (h : call.standing? c env = some st) :
    (∃ server request x, c.exchangeStanding? env server request x = some st) ∨
      ∃ job rest, st.goal = .result job ∧
        (endOf job).run env.arrivals c = ⟨none, st.client, rest⟩ := by
  unfold standing? at h
  split at h
  · split at h
    · exact .inl ⟨_, _, _, h⟩
    · contradiction
  · split at h
    · exact .inl ⟨_, _, _, h⟩
    · contradiction
  · split at h
    · exact .inl ⟨_, _, _, h⟩
    · contradiction
  · next job =>
    split at h
    · next rest hrun =>
      cases h
      exact .inr ⟨job, rest, rfl, hrun⟩
    · contradiction

end Call

end Client

end Gearman
