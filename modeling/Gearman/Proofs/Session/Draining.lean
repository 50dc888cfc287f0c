import Gearman.Proofs.Client.Rounds
import Gearman.Proofs.Session.Readers
import Gearman.Proofs.Session.Sending
import Gearman.Proofs.Worker.Sound

/-!
Pumping comes to an end: what a client or a worker does with all that a server has sent so far.

A client handles a packet without a word to the server; a worker may answer it, which takes nothing from
what has arrived.
-/

namespace Gearman

namespace Session

variable {s s' : Session} {p : Packet}

/-- Sending leaves what has arrived, or it is the end of the session. -/
theorem pending_of_send {r : Except Error Unit} (h : s.send p = (r, s')) (hlive : s'.isLive = true) :
    s.isLive = true ∧ s'.pending = s.pending := by
  cases r with
  | error e =>
    rcases send_error h with rfl | hdead
    · exact ⟨hlive, rfl⟩
    · rw [hdead] at hlive
      contradiction
  | ok =>
    obtain ⟨c, c', awaiting, n, hphase, hwrite, rfl⟩ := send_ok h
    have hsame : c'.pending = c.pending := by
      rw [Connection.pending_of_transmit (Connection.transmit_of_write hwrite)]
      rfl
    exact ⟨isLive_iff.2 ⟨c, awaiting, hphase⟩, by rw [pending_of_phase hphase, ← hsame]; rfl⟩

theorem pending_await (s : Session) (a : Awaited) : (s.await a).pending = s.pending := by
  unfold await
  split
  · next hphase => rw [pending_of_phase hphase]; rfl
  · rfl

theorem pending_of_submit {η : Type} [Responder η] {t t' : Task η} {r : Except Error Unit}
    (h : s.submit t = (r, s', t')) (hlive : s'.isLive = true) :
    s.isLive = true ∧ s'.pending = s.pending := by
  rw [submit_eq] at h
  split at h
  · next hsend =>
    cases h
    exact pending_of_send hsend hlive
  · next s₁ hsend =>
    obtain ⟨-, hs', -⟩ : _ ∧ _ = s' ∧ _ = t' := by simpa using h
    split at hs'
    · subst hs'
      rw [isLive_await] at hlive
      rw [pending_await]
      exact pending_of_send hsend hlive
    · subst hs'
      exact pending_of_send hsend hlive

end Session

namespace Worker

variable {w w' w'' : Worker} {server other : Address}

/-- What is live in `w'` of the session of a server has in it what had arrived in `w`. -/
def Keeps (server : Address) (w w' : Worker) : Prop :=
  ∀ m' ∈ w'.members.get? server, m'.session.isLive = true →
    ∃ m ∈ w.members.get? server, m.session.isLive = true ∧ m'.session.pending = m.session.pending

theorem keeps_of_members (h : w'.members = w.members) : Keeps server w w' :=
  fun m' hm' hlive => ⟨m', h ▸ hm', hlive, rfl⟩

theorem Keeps.trans (h : Keeps server w w') (h' : Keeps server w' w'') : Keeps server w w'' := by
  intro m'' hm'' hlive''
  obtain ⟨m', hm', hlive', hpending'⟩ := h' m'' hm'' hlive''
  obtain ⟨m, hm, hlive, hpending⟩ := h m' hm' hlive'
  exact ⟨m, hm, hlive, hpending'.trans hpending⟩

theorem keeps_insert {m : Member} (m' : Member) (hm : w.members.get? other = some m)
    (h : m'.session.isLive = true →
      m.session.isLive = true ∧ m'.session.pending = m.session.pending) :
    Keeps server w { w with members := w.members.insert other m' } := by
  intro n hn hlive
  dsimp only at hn
  rw [Table.get?_insert] at hn
  split at hn
  · next heq =>
    cases hn
    exact ⟨m, heq ▸ hm, h hlive⟩
  · exact ⟨n, hn, hlive, rfl⟩

theorem keeps_dropSession (w : Worker) (other : Address) : Keeps server w (w.dropSession other) := by
  intro m hm hlive
  rw [(lost_dropSession w other).members] at hm
  split at hm
  · cases hm
  · exact ⟨m, hm, hlive, rfl⟩

theorem keeps_sendTo (w : Worker) (other : Address) (p : Packet) :
    Keeps server w (w.sendTo other p).2 := by
  unfold sendTo
  split
  · exact keeps_of_members rfl
  · next m hm =>
    split
    · split
      · next session hsend =>
        exact keeps_insert { m with session } hm (Session.pending_of_send hsend)
      · next e session hsend =>
        have hinsert : Keeps server w _ :=
          keeps_insert { m with session } hm (Session.pending_of_send hsend)
        dsimp only
        split
        · exact hinsert
        · exact hinsert.trans (keeps_dropSession _ _)
    · exact keeps_of_members rfl

theorem keeps_assign (w : Worker) (other : Address) (p : Packet) :
    Keeps server w (w.assign other p) := by
  unfold assign
  split
  · exact keeps_of_members rfl
  · dsimp only
    split
    · exact keeps_sendTo _ _ _
    · exact keeps_of_members rfl

/-- A request changes its session no more than by the task that is sent. -/
theorem keeps_ask {m m' : Member} {kind : Kind} {r : Except Error Unit}
    (hm : w.members.get? other = some m) (h : w.ask m kind = (r, m', w')) :
    Keeps server w { w' with members := w'.members.insert other m' } := by
  unfold ask at h
  split at h
  · cases h
    exact keeps_insert m hm fun hlive => ⟨hlive, rfl⟩
  · split at h
    all_goals
      next hsubmit =>
      cases h
      exact keeps_insert _ hm (Session.pending_of_submit hsubmit)

theorem keeps_request (w : Worker) (other : Address) (kind : Kind) :
    Keeps server w (w.request other kind) := by
  unfold request
  split
  · exact keeps_of_members rfl
  · next m hm =>
    split
    · next hask => exact keeps_ask hm hask
    · next hask => exact (keeps_ask hm hask).trans (keeps_dropSession _ _)

theorem keeps_answer (w : Worker) (other : Address) (p : Packet) :
    Keeps server w (w.answer other p) := by
  unfold answer
  split
  · exact keeps_assign _ _ _
  · exact keeps_assign _ _ _
  · exact keeps_request _ _ _
  · exact keeps_of_members rfl

theorem keeps_handleReply (w : Worker) (other : Address) (id : TaskId) (p : Packet) :
    Keeps server w (w.handleReply other id p).2 := by
  unfold handleReply
  split
  · exact keeps_of_members rfl
  · next m hm =>
    split
    · exact keeps_of_members rfl
    · split
      · have hinsert : Keeps server w _ :=
          keeps_insert { m with outstanding := none } hm fun hlive => ⟨hlive, rfl⟩
        dsimp only
        split
        · exact hinsert
        · exact hinsert.trans (keeps_answer _ _ _)
      · exact keeps_of_members rfl

theorem keeps_handleUnsolicited (w : Worker) (other : Address) (p : Packet) :
    Keeps server w (w.handleUnsolicited other p) := by
  unfold handleUnsolicited
  split
  · exact keeps_assign _ _ _
  · exact keeps_assign _ _ _
  · exact keeps_dropSession _ _
  · exact keeps_of_members rfl

theorem keeps_dispatch (w : Worker) (other : Address) (event : Session.Event) :
    Keeps server w (w.dispatch other event).2 := by
  cases event with
  | reply id p => exact keeps_handleReply w other id p
  | unsolicited p => exact keeps_handleUnsolicited w other p

/-- A worker as one who reads from the session of a server: a session that fails is given up, and the
worker goes on. -/
def reader (server : Address) : Session.Reader Worker where
  session? w := (w.members.get? server).map (·.session)
  put w session := (w.members.get? server).elim w fun m =>
    { w with members := w.members.insert server { m with session } }
  handle w event := w.dispatch server event
  fail w _ := (.ok (), w.dropSession server)
  session?_put {w s} s' h := by
    obtain ⟨m, hm, -⟩ := Option.map_eq_some_iff.1 h
    simp [hm]
  keeps {w event w'} h s hs hlive := by
    obtain ⟨m', hm', rfl⟩ := Option.map_eq_some_iff.1 hs
    have hkeeps : Keeps server w (w.dispatch server event).2 := keeps_dispatch w server event
    rw [h] at hkeeps
    obtain ⟨m, hm, -, hpending⟩ := hkeeps m' hm' hlive
    exact ⟨m.session, Option.map_eq_some_iff.2 ⟨m, hm, rfl⟩, hpending⟩
  loses w _ s hs := by
    obtain ⟨m, hm, -⟩ := Option.map_eq_some_iff.1 hs
    rw [(lost_dropSession w server).members, if_pos rfl] at hm
    cases hm

theorem length_pending (w : Worker) (server : Address) :
    ((reader server).pending w).length = w.backlog server := by
  unfold Session.Reader.pending backlog reader
  dsimp only
  cases w.members.get? server with
  | none => rfl
  | some m => exact m.session.length_pending

theorem receive_eq (w : Worker) (server : Address) : w.receive server =
    match (reader server).next? w with
    | none => (none, w)
    | some (.ok event, w') => (event, w')
    | some (.error _, w') => (none, w'.dropSession server) := by
  unfold receive Session.Reader.next? reader
  dsimp only
  cases hm : w.members.get? server with
  | none => rfl
  | some m =>
    cases hlive : m.session.isLive with
    | false => simp [hlive]
    | true => rcases hstep : m.session.step with ⟨_ | event, session⟩ <;> simp [hlive, hstep]

theorem next?_of_receive {event : Session.Event} (h : w.receive server = (some event, w')) :
    (reader server).next? w = some (.ok (some event), w') := by
  rw [receive_eq] at h
  split at h <;> simp_all

/-- Pumping runs through the loop. -/
theorem runs_pump (w : Worker) (server : Address) :
    ∃ reports, (reader server).Run w reports (w.pump server).1 (w.pump server).2 := by
  fun_induction pump w server with
  | case1 w w' hreceive =>
    rw [receive_eq] at hreceive
    split at hreceive
    · next hnext =>
      cases hreceive
      exact ⟨_, .ended hnext⟩
    · next hnext =>
      cases hreceive
      exact ⟨_, .idle hnext⟩
    · next hnext =>
      cases hreceive
      exact ⟨_, .failed hnext⟩
  | case2 w event w' hreceive e w'' hdispatch =>
    exact ⟨_, .refused (next?_of_receive hreceive) hdispatch⟩
  | case3 w event w' hreceive w'' hdispatch ih =>
    obtain ⟨reports, hrun⟩ := ih
    exact ⟨_, .handled (next?_of_receive hreceive) hdispatch hrun⟩

end Worker

namespace Client

variable {c c' : Client} {server : Address}

/-- A client as one who reads from the session of a server: a session that fails is replaced by one that
is not open yet, and the fault is passed on. -/
def reader (server : Address) : Session.Reader Client where
  session? c := c.sessions.get? server
  put c s := { c with sessions := c.sessions.insert server s }
  handle c event := c.dispatch server event
  fail c e := (.error e, c.resetSession server)
  session?_put s' _ := Table.get?_insert_self
  keeps h s hs _ := ⟨s, sessions_of_dispatch h ▸ hs, rfl⟩
  loses c e s hs := by
    cases hsession : c.sessions.get? server with
    | none =>
      simp only [resetSession, hsession, forgetServer] at hs
      cases hs
    | some s₀ =>
      rw [sessions_resetSession hsession, Table.get?_insert_self] at hs
      cases hs
      rfl

theorem length_pending (c : Client) (server : Address) :
    ((reader server).pending c).length = c.backlog server := by
  unfold Session.Reader.pending backlog reader
  dsimp only
  cases c.sessions.get? server with
  | none => rfl
  | some s => exact s.length_pending

theorem receive_eq (c : Client) (server : Address) : c.receive server =
    match (reader server).next? c with
    | none => (.ok none, c)
    | some (.ok event, c') => (.ok event, c')
    | some (.error e, c') => (.error e, c'.resetSession server) := by
  unfold receive Session.Reader.next? reader
  dsimp only
  cases hs : c.sessions.get? server with
  | none => rfl
  | some s =>
    cases hlive : s.isLive with
    | false => simp [hlive]
    | true => rcases hstep : s.step with ⟨_ | event, s'⟩ <;> simp [hlive, hstep]

theorem next?_of_receive {event : Session.Event} (h : c.receive server = (.ok (some event), c')) :
    (reader server).next? c = some (.ok (some event), c') := by
  rw [receive_eq] at h
  split at h <;> simp_all

/-- Pumping runs through the loop. -/
theorem runs_pump (c : Client) (server : Address) :
    ∃ reports, (reader server).Run c reports (c.pump server).1 (c.pump server).2 := by
  fun_induction pump c server with
  | case1 c e c' hreceive =>
    rw [receive_eq] at hreceive
    split at hreceive
    · cases hreceive
    · cases hreceive
    · next hnext =>
      cases hreceive
      exact ⟨_, .failed hnext⟩
  | case2 c c' hreceive =>
    rw [receive_eq] at hreceive
    split at hreceive
    · next hnext =>
      cases hreceive
      exact ⟨_, .ended hnext⟩
    · next hnext =>
      cases hreceive
      exact ⟨_, .idle hnext⟩
    · cases hreceive
  | case3 c event c' hreceive e c'' hdispatch =>
    exact ⟨_, .refused (next?_of_receive hreceive) hdispatch⟩
  | case4 c event c' hreceive c'' hdispatch ih =>
    obtain ⟨reports, hrun⟩ := ih
    exact ⟨_, .handled (next?_of_receive hreceive) hdispatch hrun⟩

end Client

namespace Session

open Packet (encodeAll)

/-- Pumping a server is a loop that handles each packet before it reads on and comes to its end. It takes
a step for each 12 bytes that had arrived, and one more, at most. What it has handled is the front of these
bytes. If it ends well and the session can still be read, the last step has found nothing to report in all
that was read, and the rest of the bytes is still there. -/
theorem pumping_ends :
    (∀ (c : Client) (server : Address), ∃ reports rest,
      (Client.reader server).Run c reports (c.pump server).1 (c.pump server).2 ∧
      reports.length ≤ c.backlog server / 12 + 1 ∧
      (Client.reader server).pending c = encodeAll (packets reports) ++ rest ∧
      ((c.pump server).1 = .ok () →
        ∀ s ∈ (c.pump server).2.sessions.get? server, s.isLive = true →
          reports.getLast? = some (.ok none) ∧ s.pending = rest ∧ s.Drained)) ∧
    ∀ (w : Worker) (server : Address), ∃ reports rest,
      (Worker.reader server).Run w reports (w.pump server).1 (w.pump server).2 ∧
      reports.length ≤ w.backlog server / 12 + 1 ∧
      (Worker.reader server).pending w = encodeAll (packets reports) ++ rest ∧
      ((w.pump server).1 = .ok () →
        ∀ m ∈ (w.pump server).2.members.get? server, m.session.isLive = true →
          reports.getLast? = some (.ok none) ∧ m.session.pending = rest ∧ m.session.Drained) := by
  refine ⟨fun c server => ?_, fun w server => ?_⟩
  · obtain ⟨reports, hrun⟩ := c.runs_pump server
    obtain ⟨rest, hpending, hopen⟩ := hrun.accounts
    exact ⟨reports, rest, hrun, c.length_pending server ▸ hrun.length_le, hpending, hopen⟩
  · obtain ⟨reports, hrun⟩ := w.runs_pump server
    obtain ⟨rest, hpending, hopen⟩ := hrun.accounts
    refine ⟨reports, rest, hrun, w.length_pending server ▸ hrun.length_le, hpending,
      fun hok m hm => ?_⟩
    exact hopen hok m.session (Option.map_eq_some_iff.2 ⟨m, hm, rfl⟩)

/-- A report on a job that nobody tracks. -/
def stray : Packet := .response .workData [0x41, 0, 0x78]

/-- A client that a server has sent such a report and the first two bytes of another packet. -/
def beset : Client where
  sessions := (∅ : Table _ _).insert .default
    { address := .default
      settings := {}
      phase := .live { Connection.fresh .default {} with
        stream := { arriving := stray.encode ++ [0, 0x52] } } [] }

/-- The report is passed over, and what is there of the next packet stays. -/
theorem pumping_ends_stray : (beset.pump .default).1 = .ok () ∧
    ∃ s ∈ (beset.pump .default).2.sessions.get? .default,
      s.isLive = true ∧ s.pending = [0, 0x52] ∧ s.Drained := by
  -- The two steps of the loop, and what is left of the client after each of them.
  let c := (beset.receive .default).2
  let c' := (c.receive .default).2
  have hreceive : beset.receive .default = (.ok (some (.unsolicited stray)), c) := rfl
  have hdispatch : c.dispatch .default (.unsolicited stray) = (.ok (), c) := rfl
  have hidle : c.receive .default = (.ok none, c') := rfl
  have hpump : beset.pump .default = (.ok (), c') := by
    rw [Client.pump_event hreceive, hdispatch]
    exact Client.pump_idle hidle
  have hrun : (Client.reader .default).Run beset [.ok (some (.unsolicited stray)), .ok none]
      (.ok ()) c' := .handled rfl hdispatch (.idle rfl)
  obtain ⟨reports, rest, hreports, -, hpending, hopen⟩ := pumping_ends.1 beset .default
  rw [hpump] at hreports hopen ⊢
  obtain ⟨rfl, -, -⟩ := hrun.unique hreports
  have hrest : [0, 0x52] = rest := List.append_cancel_left hpending
  obtain ⟨s, hs, hlive⟩ : ∃ s ∈ c'.sessions.get? .default, s.isLive = true := ⟨_, rfl, rfl⟩
  obtain ⟨-, hsame, hdrained⟩ := hopen rfl s hs hlive
  exact ⟨rfl, s, hs, hlive, hsame.trans hrest.symm, hdrained⟩

end Session

end Gearman
