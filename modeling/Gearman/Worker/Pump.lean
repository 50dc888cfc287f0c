import Gearman.Worker.Dispatch

/-!
Reading what a server has sent until no packet is left.
-/

namespace Gearman.Worker

/-- Reads once from the session of a server, if it is live. A session that fails is given up. -/
def receive (w : Worker) (server : Address) : Option Session.Event × Worker :=
  match w.members.get? server with
  | none => (none, w)
  | some m =>
    if m.session.isLive then
      match m.session.step with
      | (.ok event, session) =>
        (event, { w with members := w.members.insert server { m with session } })
      | (.error _, session) =>
        (none, { w with
          members := w.members.insert server { m with session } }.dropSession server)
    else (none, w)

theorem backlog_of_receive {w w' : Worker} {server : Address} {e : Session.Event}
    (h : w.receive server = (some e, w')) :
    w'.backlog server + Header.size ≤ w.backlog server := by
  unfold receive at h
  split at h
  · simp at h
  · next m hm =>
    split at h
    · split at h
      · next event session hstep =>
        simp only [Prod.mk.injEq] at h
        obtain ⟨rfl, rfl⟩ := h
        simpa [backlog, hm] using Session.backlog_of_step hstep
      · simp at h
    · simp at h

/-- Handles the packets of a server one after the other, until none is left. -/
def pump (w : Worker) (server : Address) : Except Error Unit × Worker :=
  match _hreceive : w.receive server with
  | (none, w') => (.ok (), w')
  | (some event, w') =>
    match _hdispatch : w'.dispatch server event with
    | (.error e, w'') => (.error e, w'')
    | (.ok (), w'') => w''.pump server
termination_by w.backlog server
decreasing_by
  have h := backlog_of_receive _hreceive
  have hdispatch := backlog_of_dispatch _hdispatch server
  simp only [Header.size] at h
  omega

/-- Handles the packets of some servers, one server after the other. -/
def pumpAll (w : Worker) : List Address → Except Error Unit × Worker
  | [] => (.ok (), w)
  | server :: rest =>
    match w.pump server with
    | (.error e, w) => (.error e, w)
    | (.ok (), w) => w.pumpAll rest

/-- Asks every server for a job that owes the worker no answer. -/
def askAll (w : Worker) : Worker :=
  w.servers.foldl askOne w
where
  askOne (w : Worker) (server : Address) : Worker :=
    match w.members.get? server with
    | none => w
    | some m =>
      if m.outstanding.isNone && m.session.isLive then w.request server .grabJob else w

end Gearman.Worker
