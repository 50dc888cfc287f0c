import Gearman.Client.Dispatch

/-!
Reading what a server has sent until no packet is left.
-/

namespace Gearman.Client

/-- Reads once from the session of a server, if it is live. A session that fails is replaced. -/
def receive (c : Client) (server : Address) : Except Error (Option Session.Event) × Client :=
  match c.sessions.get? server with
  | none => (.ok none, c)
  | some s =>
    if s.isLive then
      match s.step with
      | (.ok event, s) => (.ok event, { c with sessions := c.sessions.insert server s })
      | (.error e, s) =>
        (.error e, { c with sessions := c.sessions.insert server s }.resetSession server)
    else (.ok none, c)

theorem receive_none {c c' : Client} {server : Address}
    (h : c.receive server = (.ok none, c')) :
    c' = c ∨ ∃ s s', c.sessions.get? server = some s ∧ s.step = (.ok none, s') ∧
      c' = { c with sessions := c.sessions.insert server s' } := by
  unfold receive at h
  split at h
  · cases h
    exact .inl rfl
  · next s hs =>
    split at h
    · split at h
      · next s' hstep =>
        cases h
        exact .inr ⟨s, s', hs, hstep, rfl⟩
      · simp at h
    · cases h
      exact .inl rfl

theorem receive_some {c c' : Client} {server : Address} {event : Session.Event}
    (h : c.receive server = (.ok (some event), c')) :
    ∃ s s', c.sessions.get? server = some s ∧ s.step = (.ok (some event), s') ∧
      c' = { c with sessions := c.sessions.insert server s' } := by
  unfold receive at h
  split at h
  · simp at h
  · next s hs =>
    split at h
    · split at h
      · next s' hstep =>
        cases h
        exact ⟨s, s', hs, hstep, rfl⟩
      · simp at h
    · simp at h

theorem receive_error {c c' : Client} {server : Address} {e : Error}
    (h : c.receive server = (.error e, c')) :
    ∃ s s', c.sessions.get? server = some s ∧ s.step = (.error e, s') ∧
      c' = { c with sessions := c.sessions.insert server s' }.resetSession server := by
  unfold receive at h
  split at h
  · simp at h
  · next s hs =>
    split at h
    · split at h
      · simp at h
      · next s' hstep =>
        cases h
        exact ⟨s, s', hs, hstep, rfl⟩
    · simp at h

theorem backlog_of_receive {c c' : Client} {server : Address} {e : Session.Event}
    (h : c.receive server = (.ok (some e), c')) :
    c'.backlog server + Header.size ≤ c.backlog server := by
  unfold receive at h
  split at h
  · simp at h
  · next s hs =>
    split at h
    · split at h
      · next s' hstep =>
        simp only [Prod.mk.injEq, Except.ok.injEq] at h
        obtain ⟨rfl, rfl⟩ := h
        simpa [backlog, hs] using Session.backlog_of_step hstep
      · simp at h
    · simp at h

/-- Handles the packets of a server one after the other, until none is left or one fails. -/
def pump (c : Client) (server : Address) : Except Error Unit × Client :=
  match _hreceive : c.receive server with
  | (.error e, c') => (.error e, c')
  | (.ok none, c') => (.ok (), c')
  | (.ok (some event), c') =>
    match _hdispatch : c'.dispatch server event with
    | (.error e, c'') => (.error e, c'')
    | (.ok (), c'') => c''.pump server
termination_by c.backlog server
decreasing_by
  have h := backlog_of_receive _hreceive
  have hsessions := sessions_of_dispatch _hdispatch
  simp only [backlog, hsessions, Header.size] at h ⊢
  omega

/-- Pumps some servers one after the other, whatever goes wrong with any of them. -/
def pumpAll (c : Client) (servers : List Address) : Client :=
  servers.foldl (fun c server => (c.pump server).2) c

/-- Reads what has arrived on any session, and takes the packets about jobs since the last time. -/
def drainUpdates (c : Client) : List Packet × Client :=
  if c.isTerminated then ([], c)
  else
    let c := c.pumpAll c.liveServers
    (c.updates.map (·.packet), { c with updates := [] })

end Gearman.Client
