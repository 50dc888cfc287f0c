import Gearman.Client.Basic

/-!
What a client makes of one packet from a server.
-/

namespace Gearman.Client

/-- Notes that a packet told about a job. -/
def note (c : Client) (job : JobHandle) (p : Packet) : Client :=
  { c with updates := c.updates ++ [⟨job, p⟩] }

/-- Starts to track a job. -/
def track (c : Client) (job : JobHandle) (p : Packet) : Client :=
  { c with jobs := c.jobs.insert job (.pending job.handle) }.note job p

/-- Keeps an exchange that was just completed, unless nobody waits for it any more. -/
def settle (c : Client) (id : TaskId) (pending : PendingExchange) : Client :=
  if pending.detached then { c with tasks := c.tasks.erase id }
  else { c with tasks := c.tasks.insert id pending }

/-- Hands a reply to the exchange that it belongs to. A job that was submitted with interest in its
fate is tracked from here on, whether or not anyone still waits for its handle. -/
def handleReply (c : Client) (server : Address) (id : TaskId) (p : Packet) :
    Except Error Unit × Client :=
  match c.tasks.get? id with
  | none => (.ok (), c)
  | some pending =>
    match pending.task.deliver p with
    | (.error e, _) => (.error e, { c with tasks := c.tasks.erase id })
    | (.ok .finished, task) =>
      let c :=
        match task.responder.bind (·.attachedHandle?) with
        | some handle => c.track ⟨handle, server⟩ p
        | none => c
      (.ok (), c.settle id { pending with task })
    | (.ok _, task) => (.ok (), { c with tasks := c.tasks.insert id { pending with task } })

/-- Adds a report to the job that it names; reports on other jobs are passed over. A report that
cannot be read is an error and no event. -/
def handleUpdate (c : Client) (server : Address) (p : Packet) : Except Error Unit × Client :=
  let job : JobHandle := ⟨p.handleAndRest.1, server⟩
  match c.jobs.get? job with
  | none => (.ok (), c)
  | some result =>
    match result.apply p with
    | (.error e, result) => (.error e, { c with jobs := c.jobs.insert job result })
    | (.ok last, result) =>
      let c := c.note job p
      if last then
        (.ok (), { c with
          jobs := c.jobs.erase job
          finished := c.finished.insert job result })
      else (.ok (), { c with jobs := c.jobs.insert job result })

/-- What a server means by a packet that is neither a reply nor a report. -/
def complaint (server : Address) (p : Packet) : Error :=
  if p.kind = .error then
    .remote (Text.Utf8.lossy p.handleAndRest.1) (Text.Utf8.lossy p.handleAndRest.2)
  else .unexpectedPacket p.kind server.text

/-- Handles a packet that answers no request. Anything but a report costs the server its place in the
pool. -/
def handleUnsolicited (c : Client) (server : Address) (p : Packet) : Except Error Unit × Client :=
  if p.isResponse && p.kind.isUpdate then c.handleUpdate server p
  else (.error (complaint server p), c.dropSession server)

def dispatch (c : Client) (server : Address) : Session.Event → Except Error Unit × Client
  | .reply id p => c.handleReply server id p
  | .unsolicited p => c.handleUnsolicited server p

/-- An event that is handled without an error leaves the sessions alone. -/
theorem sessions_of_dispatch {c c' : Client} {server : Address} {e : Session.Event}
    (h : c.dispatch server e = (.ok (), c')) : c'.sessions = c.sessions := by
  cases e with
  | reply id p =>
    simp only [dispatch, handleReply] at h
    split at h
    · cases h
      rfl
    · split at h
      · simp at h
      · cases h
        simp only [settle, track, note]
        split <;> split <;> rfl
      · cases h
        rfl
  | unsolicited p =>
    simp only [dispatch, handleUnsolicited] at h
    split at h
    · simp only [handleUpdate] at h
      split at h
      · cases h
        rfl
      · split at h
        · simp at h
        · split at h <;>
          · cases h
            rfl
    · simp at h

/-- An event that is an error leaves the sessions alone or costs its server the place in the pool. -/
theorem sessions_of_dispatch_error {c c' : Client} {server : Address} {e : Session.Event}
    {err : Error} (h : c.dispatch server e = (.error err, c')) :
    c'.sessions = c.sessions ∨ c' = c.dropSession server := by
  cases e with
  | reply id p =>
    simp only [dispatch, handleReply] at h
    repeat' split at h
    all_goals
      cases h
      try exact .inl rfl
  | unsolicited p =>
    simp only [dispatch, handleUnsolicited] at h
    split at h
    · simp only [handleUpdate] at h
      repeat' split at h
      all_goals
        cases h
        try exact .inl rfl
    · cases h
      exact .inr rfl

end Gearman.Client
