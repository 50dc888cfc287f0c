import Gearman.Proofs.Link.Inbound
import Gearman.Proofs.Link.Writing
import Gearman.Session

/-!
Sessions with nothing left to write. What such a session sends goes out at once, or the session is
over; reading writes nothing.
-/

namespace Gearman

namespace Connection

variable {c c' : Connection}

theorem keeps_of_receive {r : Except Error Unit} (h : c.receive = (r, c')) :
    c'.maxPayload = c.maxPayload ∧ c'.outbound = c.outbound ∧ c'.sent = c.sent ∧
      c'.stream.uptakes = c.stream.uptakes := by
  refine ⟨?_, writing_of_receive h⟩
  unfold receive at h
  repeat' split at h
  all_goals
    cases h
    rfl

/-- Reading leaves what is written alone, and brings no packet beyond the limit. -/
theorem keeps_of_read {r : Except Error (Option Packet)} (h : c.read = (r, c')) :
    c'.maxPayload = c.maxPayload ∧ c'.outbound = c.outbound ∧ c'.sent = c.sent ∧
      c'.stream.uptakes = c.stream.uptakes ∧
      ∀ p, r = .ok (some p) → p.payload.length ≤ c.maxPayload.toNat := by
  unfold read at h
  split at h
  · next c₁ hreceive =>
    obtain ⟨hlimit, hout, hsent, huptakes⟩ := keeps_of_receive hreceive
    rcases take_cases c₁ with ⟨e, -, htake⟩ | ⟨p, inbound, -, hframe, -, hin, htake⟩ |
      ⟨inbound, -, -, -, hin, htake⟩
    · rw [htake] at h
      cases h
      exact ⟨hlimit, hout, hsent, huptakes, by simp⟩
    · rw [htake] at h
      cases h
      refine ⟨hin.trans hlimit, hout, hsent, huptakes, fun q hq => ?_⟩
      obtain rfl : p = q := by simpa using hq
      rw [← hlimit]
      exact (Packet.frame?_eq_some.1 hframe).2
    · rw [htake] at h
      cases h
      refine ⟨hin.trans hlimit, hout, hsent, huptakes, fun q hq => ?_⟩
      split at hq <;> simp at hq
  · next hreceive =>
    cases h
    obtain ⟨hlimit, hout, hsent, huptakes⟩ := keeps_of_receive hreceive
    exact ⟨hlimit, hout, hsent, huptakes, by simp⟩

/-- Reading takes nothing of what waits to be written. -/
theorem written_of_read {r : Except Error (Option Packet)} (h : c.read = (r, c')) :
    c'.written = c.written := by
  obtain ⟨-, hout, hsent, -⟩ := keeps_of_read h
  rw [written, written, hout, hsent]

end Connection

namespace Session

variable {limit : UInt32} {awaiting : List Awaited} {s s' : Session} {p : Packet}

/-- A live session that awaits these answers, and whose server takes what is written at once. -/
def Clear (limit : UInt32) (awaiting : List Awaited) (s : Session) : Prop :=
  ∃ c, s.phase = .live c awaiting ∧ c.Prompt ∧ c.maxPayload = limit

theorem Clear.isLive (h : Clear limit awaiting s) : s.isLive = true := by
  obtain ⟨c, hphase, -⟩ := h
  simp [Session.isLive, hphase]

theorem Clear.awaiting_eq (h : Clear limit awaiting s) : s.awaiting = awaiting := by
  obtain ⟨c, hphase, -⟩ := h
  simp [Session.awaiting, hphase]

theorem Clear.fresh {address : Address} {settings : ConnectionSettings} {accepted : Bool}
    (h : ({ address, settings } : Session).init accepted = (.ok (), s)) :
    Clear settings.maxPayloadSize [] s ∧ s.sent = [] := by
  simp only [init_eq, Connection.connect] at h
  split at h
  · next c hconnect =>
    cases h
    split at hconnect
    · cases hconnect
      exact ⟨⟨_, rfl, ⟨rfl, rfl⟩, rfl⟩, rfl⟩
    · contradiction
  · cases h

/-- A session that is opened has sent nothing, as before. -/
theorem sent_of_init {accepted : Bool} (h : s.init accepted = (.ok (), s')) : s'.sent = s.sent := by
  rw [init_eq, Connection.connect] at h
  repeat' split at h
  all_goals cases h
  next hphase _ _ hconnect =>
  split at hconnect
  · cases hconnect
    simp [sent, hphase, Connection.fresh]
  · contradiction

/-- A session that fails to send a packet has sent no part of it. -/
theorem sent_of_send_error {e : Error} (h : s.send p = (.error e, s')) : s'.sent = s.sent := by
  rw [send_eq] at h
  split at h
  · next c awaiting hphase =>
    split at h
    · cases h
      rfl
    · next hcheck =>
      split at h
      · cases h
      · next hwrite =>
        cases h
        simp only [Connection.write, hcheck] at hwrite
        have := Connection.sent_of_transmit_error hwrite
        simpa [teardown, sent, hphase] using this
  · cases h
    rfl

/-- What such a session can send is within the limit and goes out at once. -/
theorem Clear.send_ok (h : Clear limit awaiting s) (hsend : s.send p = (.ok (), s')) :
    Clear limit awaiting s' ∧ s'.sent = s.sent ++ [p] ∧ p.payload.length ≤ limit.toNat := by
  obtain ⟨c, hphase, hprompt, hlimit⟩ := h
  simp only [send_eq, hphase] at hsend
  split at hsend
  · cases hsend
  · next hcheck =>
    split at hsend
    · next n c' hwrite =>
      cases hsend
      obtain rfl := hprompt.write_ok hwrite
      refine ⟨⟨_, rfl, hprompt.of_eq rfl rfl, hlimit⟩, by simp [sent, hphase], ?_⟩
      · simp only [Connection.checkOutbound, Packet.checkSize] at hcheck
        split at hcheck
        · next hfits => rwa [hlimit] at hfits
        · contradiction
    · cases hsend

/-- A packet is refused for its size exactly if it is beyond the limit. -/
theorem Clear.send_tooLarge (h : Clear limit awaiting s) {e : Error}
    (hsend : s.send p = (.error e, s')) :
    e.isTooLarge = true ↔ limit.toNat < p.payload.length := by
  obtain ⟨c, hphase, -, hlimit⟩ := h
  simp only [send_eq, hphase, Connection.checkOutbound, Packet.checkSize, hlimit] at hsend
  by_cases hfits : p.payload.length ≤ limit.toNat
  · simp only [hfits, if_true] at hsend
    split at hsend
    · cases hsend
    · next hwrite =>
      cases hsend
      simp only [Connection.write, Connection.checkOutbound, Packet.checkSize, hlimit, hfits,
        if_true] at hwrite
      rw [Connection.transmit_error hwrite]
      simpa using hfits
  · simp only [hfits, if_false, Prod.mk.injEq, Except.error.injEq] at hsend
    obtain ⟨rfl, -⟩ := hsend
    simpa [Error.isTooLarge, Error.category] using hfits

theorem sent_deliver (s : Session) (a : Arrival) : (s.deliver a).1.sent = s.sent := by
  rw [deliver_eq_connection]
  split
  · next c awaiting hphase =>
    simp only [Connection.deliver, sent, hphase]
    split <;> rfl
  · rfl

/-- What a server sends changes what there is to be read. -/
theorem Clear.deliver (h : Clear limit awaiting s) (a : Arrival) :
    Clear limit awaiting (s.deliver a).1 ∧ (s.deliver a).1.sent = s.sent := by
  refine ⟨?_, sent_deliver s a⟩
  obtain ⟨c, hphase, hprompt, hlimit⟩ := h
  refine ⟨(c.deliver a).1, by simp only [deliver_eq_connection, hphase], hprompt.deliver a, ?_⟩
  rw [← hlimit]
  unfold Connection.deliver
  split <;> rfl

theorem packet_classify (awaiting : List Awaited) (p : Packet) :
    (classify awaiting p).1.packet = p := by
  unfold classify
  split
  · split <;> rfl
  · rfl

/-- A step of such a session writes nothing. -/
theorem Clear.step (h : Clear limit awaiting s) {event : Option Event}
    (hstep : s.step = (.ok event, s')) :
    Clear limit s'.awaiting s' ∧ s'.sent = s.sent ∧
      ∀ e, event = some e → e.packet.payload.length ≤ limit.toNat := by
  obtain ⟨c, hphase, hprompt, hlimit⟩ := h
  obtain ⟨c₀, c₁, c', aw, n, hphase', htransmit, hread⟩ := step_ok hstep
  rw [hphase] at hphase'
  cases hphase'
  rw [hprompt.transmit] at htransmit
  cases htransmit
  rcases hread with ⟨hread, rfl, rfl⟩ | ⟨p, hread, rfl, rfl⟩
  · obtain ⟨hlimit', hout', hsent', huptakes', -⟩ := Connection.keeps_of_read hread
    exact ⟨⟨c', rfl, hprompt.of_eq hout' huptakes', hlimit'.trans hlimit⟩,
      by simp [sent, hphase, hsent'], by simp⟩
  · obtain ⟨hlimit', hout', hsent', huptakes', hlength⟩ := Connection.keeps_of_read hread
    refine ⟨⟨c', rfl, hprompt.of_eq hout' huptakes', hlimit'.trans hlimit⟩,
      by simp [sent, hphase, hsent'], ?_⟩
    rintro e he
    cases he
    rw [packet_classify, ← hlimit]
    exact hlength p rfl

/-- A step that fails has written nothing. -/
theorem Clear.step_error (h : Clear limit awaiting s) {e : Error}
    (hstep : s.step = (.error e, s')) : s'.sent = s.sent := by
  obtain ⟨c, hphase, hprompt, -⟩ := h
  simp only [step_eq, hphase, hprompt.transmit] at hstep
  split at hstep
  · next c' hread =>
    cases hstep
    have := (Connection.keeps_of_read hread).2.2.1
    simpa [teardown, sent, hphase] using this
  · cases hstep
  · cases hstep

/-- Taking leave of a server writes nothing to it. -/
theorem Clear.closeGracefully (h : Clear limit awaiting s) :
    s.closeGracefully.2.sent = s.sent := by
  obtain ⟨c, hphase, hprompt, -⟩ := h
  simp only [closeGracefully_eq, hphase, Connection.shutdown, hprompt.flush]
  simp only [close_eq, Session.isLive, if_true, teardown, sent, hphase]

/-- A request that was submitted went out and waits behind the others. -/
theorem Clear.submit_ok {η : Type} [Responder η] {t t' : Task η} (h : Clear limit awaiting s)
    (hsubmit : s.submit t = (.ok (), s', t')) (hfresh : t.state = .fresh) :
    Clear limit (awaiting ++ awaitedOf t) s' ∧ s'.sent = s.sent ++ [t.request] ∧
      t' = { t with state := t.sentState } := by
  obtain ⟨s₁, hsend, -, -, -, hawaiting, ht', hconnection⟩ := Session.submit_ok hsubmit hfresh
  obtain ⟨hclear, hsent, -⟩ := h.send_ok hsend
  obtain ⟨c, hphase, hprompt, hlimit⟩ := hclear
  have hlive : s'.connection? = some c := by
    rw [hconnection]
    simp [connection?, hphase]
  have hphase' := connection?_eq_some_iff.1 hlive
  rw [hawaiting, h.awaiting_eq] at hphase'
  refine ⟨⟨c, hphase', hprompt, hlimit⟩, ?_, ht'⟩
  rw [← hsent]
  simp [sent, hphase, hphase']

theorem sent_of_submit_error {η : Type} [Responder η] {t t' : Task η} {e : Error}
    (hsubmit : s.submit t = (.error e, s', t')) (hfresh : t.state = .fresh) :
    s'.sent = s.sent := by
  rw [submit_eq_send] at hsubmit
  split at hsubmit
  · next hsend =>
    cases hsubmit
    exact sent_of_send_error hsend
  · simp only [Task.deliver_request hfresh] at hsubmit
    split at hsubmit <;> simp_all

end Session

end Gearman
