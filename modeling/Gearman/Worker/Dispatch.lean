import Gearman.Worker.Basic

/-!
What a worker makes of the packets from a server.
-/

namespace Gearman.Worker

/-- The fields of an assignment: handle, function, unique id if the assignment tells it, and data. -/
def assignment (p : Packet) : Except Error (Bytes × Bytes × Option Bytes × Bytes) :=
  if p.kind = .jobAssignUniq then
    match p.fields 4 with
    | .ok [handle, function, unique, data] => .ok (handle, function, some unique, data)
    | .ok fields => .error (.missingFields p.kind 4 fields.length)
    | .error e => .error e
  else
    match p.fields 3 with
    | .ok [handle, function, data] => .ok (handle, function, none, data)
    | .ok fields => .error (.missingFields p.kind 3 fields.length)
    | .error e => .error e

/-- Queues an assigned job. A job for a function that is not on offer is reported as failed at once,
and an assignment that cannot be read is dropped. -/
def assign (w : Worker) (server : Address) (p : Packet) : Worker :=
  match assignment p with
  | .error _ => w
  | .ok (handle, function, uniqueId, data) =>
    let function := Text.Utf8.lossy function
    match w.registry.get? function with
    | none => (w.sendTo server (.request .workFail handle)).2
    | some definition =>
      let uniqueId := uniqueId.map Text.Utf8.lossy
      { w with queue := w.queue ++ [{ server, handle, function, uniqueId, data, definition }] }

/-- Asks a server for something; a fault costs the session. -/
def request (w : Worker) (server : Address) (kind : Kind) : Worker :=
  match w.members.get? server with
  | none => w
  | some m =>
    match w.ask m kind with
    | (.ok (), m, w) => { w with members := w.members.insert server m }
    | (.error _, m, w) => { w with members := w.members.insert server m }.dropSession server

/-- Acts on the answer to the outstanding request. -/
def answer (w : Worker) (server : Address) (p : Packet) : Worker :=
  match p.kind with
  | .jobAssign | .jobAssignUniq => w.assign server p
  | .noJob => w.request server .preSleep
  | _ => w

/-- Handles the reply to the request of a task. -/
def handleReply (w : Worker) (server : Address) (id : TaskId) (p : Packet) :
    Except Error Unit × Worker :=
  match w.members.get? server with
  | none => (.ok (), w)
  | some m =>
    match m.outstanding with
    | none => (.ok (), w)
    | some task =>
      if task.id = id then
        let w := { w with members := w.members.insert server { m with outstanding := none } }
        match task.deliver p with
        | (.error e, _) => (.error e, w)
        | (.ok _, _) => (.ok (), w.answer server p)
      else (.ok (), w)

/-- Handles a packet that answers no request. An assignment is welcome at any time, an error costs the
session, and all else is passed over. -/
def handleUnsolicited (w : Worker) (server : Address) (p : Packet) : Worker :=
  match p.kind with
  | .jobAssign | .jobAssignUniq => w.assign server p
  | .error => w.dropSession server
  | _ => w

def dispatch (w : Worker) (server : Address) : Session.Event → Except Error Unit × Worker
  | .reply id p => w.handleReply server id p
  | .unsolicited p => (.ok (), w.handleUnsolicited server p)

theorem backlog_assign_le (w : Worker) (server other : Address) (p : Packet) :
    (w.assign server p).backlog other ≤ w.backlog other := by
  unfold assign
  split
  · exact Nat.le_refl _
  · simp only
    split
    · exact backlog_sendTo_le _ _ _ _
    · exact Nat.le_refl _

theorem backlog_request_le (w : Worker) (server other : Address) (kind : Kind) :
    (w.request server kind).backlog other ≤ w.backlog other := by
  unfold request
  split
  · exact Nat.le_refl _
  · next m hm =>
    split
    · next m' w' hask =>
      obtain ⟨hmembers, hm'⟩ := members_of_ask hask
      rw [← hmembers] at hm
      exact Nat.le_trans (backlog_insert_le m' hm hm' other) (by simp [backlog, hmembers])
    · next m' w' hask =>
      obtain ⟨hmembers, hm'⟩ := members_of_ask hask
      rw [← hmembers] at hm
      exact Nat.le_trans (backlog_dropSession_le _ _ _)
        (Nat.le_trans (backlog_insert_le m' hm hm' other) (by simp [backlog, hmembers]))

theorem backlog_answer_le (w : Worker) (server other : Address) (p : Packet) :
    (w.answer server p).backlog other ≤ w.backlog other := by
  unfold answer
  split
  · exact backlog_assign_le _ _ _ _
  · exact backlog_assign_le _ _ _ _
  · exact backlog_request_le _ _ _ _
  · exact Nat.le_refl _

/-- Handling a packet adds nothing to what is there to be read. -/
theorem backlog_of_dispatch {w w' : Worker} {server : Address} {e : Session.Event}
    {r : Except Error Unit} (h : w.dispatch server e = (r, w')) (other : Address) :
    w'.backlog other ≤ w.backlog other := by
  cases e with
  | reply id p =>
    simp only [dispatch, handleReply] at h
    split at h
    · cases h
      exact Nat.le_refl _
    · next m hm =>
      split at h
      · cases h
        exact Nat.le_refl _
      · split at h
        · have hinsert := backlog_insert_le { m with outstanding := none } hm
            (Nat.le_refl _) other
          split at h
          · cases h
            exact hinsert
          · cases h
            exact Nat.le_trans (backlog_answer_le _ _ _ _) hinsert
        · cases h
          exact Nat.le_refl _
  | unsolicited p =>
    simp only [dispatch, handleUnsolicited] at h
    cases h
    split
    · exact backlog_assign_le _ _ _ _
    · exact backlog_assign_le _ _ _ _
    · exact backlog_dropSession_le _ _ _
    · exact Nat.le_refl _

end Gearman.Worker
