import Gearman.Proofs.Link.Passage
import Gearman.Proofs.Session.Clear

/-!
What becomes of a packet that a live session is to send: it is too long and nothing happens, or it goes out
behind what was written before, or the stream is broken and the session is over.
-/

namespace Gearman

namespace Task

variable {η : Type}

/-- The task once its request has gone out. Only a fresh task learns anything from that. -/
def afterSending (t : Task η) : Task η :=
  if t.state = .fresh then { t with state := t.sentState } else t

@[simp]
theorem id_afterSending (t : Task η) : t.afterSending.id = t.id := by
  unfold afterSending
  split <;> rfl

@[simp]
theorem request_afterSending (t : Task η) : t.afterSending.request = t.request := by
  unfold afterSending
  split <;> rfl

theorem deliver_own_request [Responder η] (t : Task η) :
    t.deliver t.request =
      (if t.state = .failed then .error (.alreadyFailed t.name t.request.summary)
        else .ok t.afterSending.state, t.afterSending) := by
  have hrequest : t.request.isResponse = false := by
    have hmagic := t.isRequest_request
    simp only [Packet.isRequest, decide_eq_true_eq] at hmagic
    simp [Packet.isResponse, hmagic]
  unfold deliver afterSending
  cases hstate : t.state with
  | fresh => simp [t.isRequest_request]
  | submitted | running => simp [hrequest, hstate]
  | finished | failed => simp [hstate]

end Task

namespace Session

variable {s : Session} {c : Connection} {p : Packet}

/-- A session that is closed has let go of its connection and of all that it has awaited. -/
theorem of_isClosed (h : s.isClosed = true) :
    s.isLive = false ∧ s.connection? = none ∧ s.awaiting = [] ∧ s.outgoing = s.sent := by
  unfold isClosed at h
  split at h
  · next hphase => simp [isLive, connection?, awaiting, outgoing, hphase]
  · contradiction

/-- How a live session with connection `c` sends `p`. -/
inductive Sending (s : Session) (c : Connection) (p : Packet) : Except Error Unit × Session → Prop
  | tooLong (hlong : c.maxPayload.toNat < p.payload.length) :
    Sending s c p (.error (.payloadTooLarge p.payload.length c.maxPayload), s)
  | written {c' : Connection} (hfits : p.payload.length ≤ c.maxPayload.toNat)
    (hwritable : c.isWritable = true) (houtgoing : c'.outgoing = c.outgoing ++ [p]) :
    Sending s c p (.ok (), { s with phase := .live c' s.awaiting })
  | broken {e : Error} {s' : Session} (hfits : p.payload.length ≤ c.maxPayload.toNat)
    (hbroken : c.isWritable = false) (hfault : e.isBreak = true) (hclosed : s'.isClosed = true)
    (hsent : s'.sent = s.sent) : Sending s c p (.error e, s')

theorem sending_send (hlive : s.connection? = some c) (p : Packet) : Sending s c p (s.send p) := by
  have hphase := connection?_eq_some_iff.1 hlive
  by_cases hlong : c.maxPayload.toNat < p.payload.length
  · have hcheck : c.checkOutbound p = .error (.payloadTooLarge p.payload.length c.maxPayload) :=
      Packet.checkSize_eq_error_iff.2 ⟨hlong, rfl⟩
    have hsend : s.send p = (.error (.payloadTooLarge p.payload.length c.maxPayload), s) := by
      simp only [send_eq, hphase, hcheck]
    rw [hsend]
    exact .tooLong hlong
  · have hfits := Nat.le_of_not_lt hlong
    have hcheck : c.checkOutbound p = .ok () := Packet.checkSize_eq_ok_iff.2 hfits
    let waiting := { c with outbound := c.outbound.push p }
    have hwrite : c.write (some p) = waiting.transmit := by
      simp only [Connection.write, hcheck, waiting]
    obtain ⟨n, c', htransmit, hwritable⟩ | ⟨e, c', htransmit, hfault, -, -, hbroken⟩ :=
      waiting.transmit_cases
    · have hsend : s.send p = (.ok (), { s with phase := .live c' s.awaiting }) := by
        simp only [send_eq, hphase, hcheck, hwrite, htransmit]
      rw [hsend]
      refine .written hfits (hwritable (by simp [waiting, Connection.hasPendingWrites])) ?_
      rw [Connection.outgoing_of_transmit htransmit]
      simp [waiting, Connection.outgoing]
    · have hsend : s.send p = (.error e, { s with phase := .live c' s.awaiting }.teardown) := by
        simp only [send_eq, hphase, hcheck, hwrite, htransmit]
      have hsent := sent_of_send_error hsend
      rw [hsend]
      exact .broken hfits hbroken hfault rfl hsent

theorem isLive_await (s : Session) (a : Awaited) : (s.await a).isLive = s.isLive := by
  unfold await
  split
  · next hphase => simp [isLive, hphase]
  · rfl

/-- A task that is submitted hears of its request once that was sent, and says whether it is awaited. -/
theorem submit_eq {η : Type} [Responder η] (s : Session) (t : Task η) :
    s.submit t = match s.send t.request with
      | (.error e, s') => (.error e, s', t)
      | (.ok (), s') =>
        (if t.state = .failed then .error (.alreadyFailed t.name t.request.summary) else .ok (),
          if t.afterSending.state = .submitted then s'.await ⟨t.id, t.request.kind⟩ else s',
          t.afterSending) := by
  rcases hsend : s.send t.request with ⟨e | ⟨⟩, s'⟩
  · simp only [submit_eq_send, hsend]
  · simp only [submit_eq_send, hsend, Task.deliver_own_request]
    by_cases hfailed : t.state = .failed
    · simp [hfailed, Task.afterSending]
    · simp only [hfailed, if_false]
      cases hsent : t.afterSending.state <;> simp

end Session

end Gearman
