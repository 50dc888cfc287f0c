import Gearman.Proofs.Session.Holding

/-!
Sessions as a client leaves them: nothing waits to be written, the writing half is open, and the end of the
stream was not seen before it has come. As long as the server's end is open, such a session can send a
request, and has only to read.
-/

namespace Gearman

namespace Stream

variable {s s' : Stream}

theorem writeShut_of_read {limit : Nat} {r : Reading} (h : s.read limit = (r, s')) :
    s'.writeShut = s.writeShut := by
  unfold read at h
  repeat' split at h
  all_goals
    cases h
    rfl

/-- A stream that its server has not ended is not found to have ended. -/
theorem flowing_of_read {limit : Nat} {r : Reading} (h : s.read limit = (r, s'))
    (hflowing : s'.fate = .flowing) : s.fate = .flowing ∧ r ≠ .ended := by
  unfold read at h
  split at h
  · cases h
    contradiction
  · next hreset =>
    cases h
    rw [hreset] at hflowing
    contradiction
  · split at h
    · cases h
      exact ⟨hflowing, by simp [hflowing]⟩
    · cases h
      exact ⟨hflowing, by simp⟩

end Stream

namespace Connection

variable {limit : UInt32} {c c' : Connection} {p : Packet}

structure Tidy (limit : UInt32) (c : Connection) : Prop where
  prompt : c.Prompt
  maxPayload : c.maxPayload = limit
  writeShut : c.stream.writeShut = false
  sawEnd : c.stream.fate = .flowing → c.sawEnd = false

theorem tidy_fresh (peer : Address) (settings : ConnectionSettings) :
    (fresh peer settings).Tidy settings.maxPayloadSize :=
  ⟨⟨rfl, rfl⟩, rfl, rfl, fun _ => rfl⟩

theorem Tidy.deliver (h : c.Tidy limit) (a : Arrival) : (c.deliver a).1.Tidy limit := by
  have hprompt := h.prompt.deliver a
  unfold Connection.deliver at hprompt ⊢
  split at hprompt
  · next stream hdeliver =>
    unfold Stream.deliver? at hdeliver
    split at hdeliver
    · next hflowing =>
      cases hdeliver
      refine ⟨hprompt, h.maxPayload, ?_, fun _ => h.sawEnd hflowing⟩
      split <;> exact h.writeShut
    · contradiction
  · exact h

theorem Tidy.receive (h : c.Tidy limit) (hreceive : c.receive = (.ok (), c')) : c'.Tidy limit := by
  have hprompt := h.prompt.receive hreceive
  unfold Connection.receive at hreceive
  split at hreceive
  · cases hreceive
    exact h
  · split at hreceive
    · next hread =>
      cases hreceive
      exact ⟨hprompt, h.maxPayload, (Stream.writeShut_of_read hread).trans h.writeShut,
        fun hflowing => h.sawEnd (Stream.flowing_of_read hread hflowing).1⟩
    · next hread =>
      cases hreceive
      exact ⟨hprompt, h.maxPayload, (Stream.writeShut_of_read hread).trans h.writeShut,
        fun hflowing => h.sawEnd (Stream.flowing_of_read hread hflowing).1⟩
    · next hread =>
      cases hreceive
      exact ⟨hprompt, h.maxPayload, (Stream.writeShut_of_read hread).trans h.writeShut,
        fun hflowing => absurd rfl (Stream.flowing_of_read hread hflowing).2⟩
    · simp at hreceive

theorem Tidy.read (h : c.Tidy limit) {p? : Option Packet} (hread : c.read = (.ok p?, c')) :
    c'.Tidy limit := by
  unfold Connection.read at hread
  split at hread
  · next c₁ hreceive =>
    have h₁ := h.receive hreceive
    rcases take_cases c₁ with ⟨e, -, htake⟩ | ⟨p, inbound, -, -, -, hlimit, htake⟩ |
      ⟨inbound, -, -, -, hlimit, htake⟩
    all_goals
      rw [htake, Prod.mk.injEq] at hread
      obtain ⟨-, rfl⟩ := hread
    · exact h₁
    · exact ⟨h₁.prompt.of_eq rfl rfl, hlimit.trans h₁.maxPayload, h₁.writeShut, h₁.sawEnd⟩
    · exact ⟨h₁.prompt.of_eq rfl rfl, hlimit.trans h₁.maxPayload, h₁.writeShut, h₁.sawEnd⟩
  · cases hread

theorem Tidy.write (h : c.Tidy limit) {n : Nat} (hwrite : c.write (some p) = (.ok n, c')) :
    c'.Tidy limit := by
  obtain rfl := h.prompt.write_ok hwrite
  exact ⟨h.prompt.of_eq rfl rfl, h.maxPayload, h.writeShut, h.sawEnd⟩

theorem Tidy.checkOutbound (h : c.Tidy limit) (hp : p.payload.length ≤ limit.toNat) :
    c.checkOutbound p = .ok () := by
  simp [Connection.checkOutbound, Packet.checkSize, h.maxPayload, hp]

/-- A packet within the limit can be sent to a server that has not ended the stream. -/
theorem Tidy.write_of_flowing (h : c.Tidy limit) (hflowing : c.stream.fate = .flowing)
    (hp : p.payload.length ≤ limit.toNat) : ∃ n c', c.write (some p) = (.ok n, c') := by
  have hwritable : c.isWritable = true := by
    simp [isWritable, Stream.isWritable, Stream.isOpen, hflowing, h.writeShut, h.prompt.uptakes]
  exact write_of_isWritable hwritable (h.checkOutbound hp)

/-- A connection whose server has not ended the stream has only to read. -/
theorem Tidy.holds (h : c.Tidy limit) (hflowing : c.stream.fate = .flowing) :
    c.Holds limit c.pending :=
  ⟨h.prompt, h.maxPayload, h.sawEnd hflowing, hflowing, rfl⟩

end Connection

namespace Session

variable {settings : ConnectionSettings} {s s' : Session} {c : Connection}

/-- The session once it is connected; one that was connected before stays as it is. -/
def connected (s : Session) : Session :=
  if s.isLive then s else { s with phase := .live (.fresh s.address s.settings) [] }

theorem isLive_connected (s : Session) : s.connected.isLive = true := by
  unfold connected
  split
  · next hlive => exact hlive
  · rfl

theorem phase_eq_unopened (hlive : s.isLive = false) (hopen : s.isClosed = false) :
    s.phase = .unopened := by
  unfold isLive at hlive
  unfold isClosed at hopen
  cases hphase : s.phase <;> simp_all

/-- A session that is neither live nor closed is connected to a server that accepts. -/
theorem init_of_not_isLive (hlive : s.isLive = false) (hopen : s.isClosed = false) :
    s.init true = (.ok (), s.connected) := by
  simp [init_eq, phase_eq_unopened hlive hopen, Connection.connect, connected, hlive]

/-- A session with these settings whose connection is tidy, if it has one. -/
structure Tidy (settings : ConnectionSettings) (s : Session) : Prop where
  configured : s.settings = settings
  connection : ∀ c, s.connection? = some c → c.Tidy settings.maxPayloadSize

theorem tidy_unopened (address : Address) (settings : ConnectionSettings) :
    ({ address, settings } : Session).Tidy settings :=
  ⟨rfl, by simp [connection?]⟩

theorem Tidy.of_phase {connection : Connection} {awaiting : List Awaited} (h : s.Tidy settings)
    (hc : connection.Tidy settings.maxPayloadSize) :
    ({ s with phase := .live connection awaiting } : Session).Tidy settings :=
  ⟨h.configured, fun c hlive => by
    obtain rfl : connection = c := by simpa [connection?] using hlive
    exact hc⟩

theorem Tidy.of_live (h : s.Tidy settings) {connection : Connection} {awaiting : List Awaited}
    (hphase : s.phase = .live connection awaiting) : connection.Tidy settings.maxPayloadSize :=
  h.connection connection (by simp [connection?, hphase])

/-- A tidy session writes what it is given at once. -/
theorem Tidy.clear (h : s.Tidy settings) (hlive : s.isLive = true) :
    Clear settings.maxPayloadSize s.awaiting s := by
  obtain ⟨c, awaiting, hphase⟩ := isLive_iff.1 hlive
  have hc := h.of_live hphase
  exact ⟨c, by simp [Session.awaiting, hphase], hc.prompt, hc.maxPayload⟩

theorem Tidy.init (h : s.Tidy settings) {accepted : Bool} (hinit : s.init accepted = (.ok (), s')) :
    s'.Tidy settings := by
  rw [init_eq, Connection.connect] at hinit
  repeat' split at hinit
  all_goals cases hinit
  next hconnect =>
  split at hconnect
  · cases hconnect
    refine h.of_phase ?_
    rw [h.configured]
    exact Connection.tidy_fresh s.address settings
  · contradiction

theorem Tidy.deliver (h : s.Tidy settings) (a : Arrival) : (s.deliver a).1.Tidy settings := by
  rw [deliver_eq_connection]
  split
  · next hphase => exact h.of_phase ((h.of_live hphase).deliver a)
  · exact h

theorem Tidy.step (h : s.Tidy settings) {event : Option Event} (hstep : s.step = (.ok event, s')) :
    s'.Tidy settings := by
  obtain ⟨c, c₁, c', awaiting, n, hphase, htransmit, hread⟩ := step_ok hstep
  have hc := h.of_live hphase
  rw [hc.prompt.transmit] at htransmit
  cases htransmit
  rcases hread with ⟨hread, -, rfl⟩ | ⟨p, hread, -, rfl⟩
  · exact h.of_phase (hc.read hread)
  · exact h.of_phase (hc.read hread)

theorem settings_of_send {p : Packet} {r : Except Error Unit} (h : s.send p = (r, s')) :
    s'.settings = s.settings := by
  rw [send_eq] at h
  repeat' split at h
  all_goals
    cases h
    rfl

theorem settings_of_submit {η : Type} [Responder η] {t t' : Task η} {r : Except Error Unit}
    (h : s.submit t = (r, s', t')) : s'.settings = s.settings := by
  rw [submit_eq_send] at h
  split at h
  · next hsend =>
    cases h
    exact settings_of_send hsend
  · next s₁ hsend =>
    have hawait : ∀ a, (s₁.await a).settings = s.settings := by
      intro a
      rw [← settings_of_send hsend]
      unfold await
      split <;> rfl
    split at h
    all_goals cases h
    · exact settings_of_send hsend
    · exact hawait _
    · exact settings_of_send hsend

/-- What a session has to read does not change by what it sends. -/
theorem Tidy.submit {η : Type} [Responder η] {t t' : Task η} (h : s.Tidy settings)
    (hsubmit : s.submit t = (.ok (), s', t')) (hfresh : t.state = .fresh) :
    s'.Tidy settings ∧ ∀ c, s.connection? = some c → c.stream.fate = .flowing →
      s'.Holds settings.maxPayloadSize c.pending := by
  obtain ⟨s₁, hsend, -, -, -, -, -, hconnection⟩ := submit_ok hsubmit hfresh
  obtain ⟨c, c', awaiting, n, hphase, hwrite, rfl⟩ := send_ok hsend
  have hlive : s'.connection? = some c' := by rw [hconnection, connection?]
  have hc' := (h.of_live hphase).write hwrite
  refine ⟨⟨(settings_of_submit hsubmit).trans h.configured, fun c₁ hc₁ => ?_⟩, fun c₁ hc₁ hflowing => ?_⟩
  · rw [hlive] at hc₁
    cases hc₁
    exact hc'
  · obtain rfl : c = c₁ := by simpa [connection?, hphase] using hc₁
    obtain rfl := (h.of_live hphase).prompt.write_ok hwrite
    exact ⟨_, s'.awaiting, connection?_eq_some_iff.1 hlive, hc'.holds hflowing⟩

/-- A request within the limit can be sent to a server that has not ended the stream. -/
theorem Tidy.submit_of_flowing {η : Type} [Responder η] {t : Task η} (h : s.Tidy settings)
    (hlive : s.connection? = some c) (hflowing : c.stream.fate = .flowing)
    (hfresh : t.state = .fresh)
    (hrequest : t.request.payload.length ≤ settings.maxPayloadSize.toNat) :
    ∃ s' t', s.submit t = (.ok (), s', t') := by
  have hphase := connection?_eq_some_iff.1 hlive
  have hc := h.connection c hlive
  obtain ⟨n, c', hwrite⟩ := hc.write_of_flowing hflowing hrequest
  have hcheck := hc.checkOutbound hrequest
  have hsend : s.send t.request = (.ok (), { s with phase := .live c' s.awaiting }) := by
    simp only [send_eq, hphase, hcheck, hwrite]
  simp only [submit_eq_send, hsend, Task.deliver_request hfresh]
  split
  · next hdeliver => cases hdeliver
  · exact ⟨_, _, rfl⟩
  · exact ⟨_, _, rfl⟩

end Session

end Gearman
