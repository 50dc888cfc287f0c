import Gearman.Session.Record

/-!
Sessions by their phase. A record whose fields fit together is one of a session, and what the operations
make of a session is what they make of its record.
-/

namespace Gearman

/-- A session holds a connection and awaits replies only while it is live. -/
inductive Phase where
  | unopened
  | live (connection : Connection) (awaiting : List Awaited)
  /-- Over; `sent` is what its connection has sent. -/
  | closed (sent : List Packet)
deriving DecidableEq, Repr

structure Session where
  address : Address
  settings : ConnectionSettings
  phase : Phase := .unopened
deriving DecidableEq, Repr

namespace Session

/-- The name of a session's server. -/
def text (s : Session) : String := s.address.text

def isLive (s : Session) : Bool :=
  match s.phase with
  | .live _ _ => true
  | _ => false

def isClosed (s : Session) : Bool :=
  match s.phase with
  | .closed _ => true
  | _ => false

/-- Whether the session was ever connected. -/
def wasOpened (s : Session) : Bool := s.phase ≠ .unopened

def connection? (s : Session) : Option Connection :=
  match s.phase with
  | .live connection _ => some connection
  | _ => none

/-- The requests without an answer, oldest first. -/
def awaiting (s : Session) : List Awaited :=
  match s.phase with
  | .live _ awaiting => awaiting
  | _ => []

/-- What the session has sent, oldest first. -/
def sent (s : Session) : List Packet :=
  match s.phase with
  | .unopened => []
  | .live connection _ => connection.sent
  | .closed sent => sent

/-- What the session has sent, and what waits to be written while it is live, oldest first. -/
def outgoing (s : Session) : List Packet := s.connection?.elim s.sent (·.outgoing)

def hasPendingWrites (s : Session) : Bool := s.connection?.any (·.hasPendingWrites)

/-- The bytes that have arrived and are in no packet that was reported. -/
def backlog (s : Session) : Nat := s.connection?.elim 0 (·.backlog)

/-- How much there is to do: each byte is to be read and to be handled. -/
def load (s : Session) : Nat := s.connection?.elim 0 (·.load)

/-- Whether there is something to do without waiting for the server. -/
def isReady (s : Session) : Bool := s.connection?.any (·.isReady)

/-- Whether a packet can still pass between the session and its server. -/
def isOpen (s : Session) : Bool := s.connection?.any (·.stream.isOpen)

/-- Why a session that is not live cannot be used. -/
def lifecycleError (s : Session) : Error :=
  if s.isClosed then .sessionClosed s.text else .sessionUnopened s.text

/-- Closes the session, whatever it was. -/
def teardown (s : Session) : Session := { s with phase := .closed s.sent }

/-- The record of a session. -/
def record (s : Session) : Record :=
  match s.phase with
  | .unopened => { address := s.address, settings := s.settings }
  | .live connection awaiting =>
    { address := s.address, settings := s.settings, state := .live, connection? := some connection,
      awaiting }
  | .closed sent => { address := s.address, settings := s.settings, state := .closed, past := sent }

/-- The session that a record is of, if its fields fit together. -/
def ofRecord (r : Record) : Session where
  address := r.address
  settings := r.settings
  phase :=
    match r.state, r.connection? with
    | .unopened, _ => .unopened
    | .live, some connection => .live connection r.awaiting
    | _, _ => .closed r.sent

def init (s : Session) (accepted : Bool) (uptakes : List Uptake := []) : Except Error Unit × Session :=
  (s.record.init accepted uptakes).map id ofRecord

def close (s : Session) : Except Error Unit × Session := s.record.close.map id ofRecord

def closeGracefully (s : Session) : Except Error Unit × Session :=
  s.record.closeGracefully.map id ofRecord

def send (s : Session) (p : Packet) : Except Error Unit × Session := (s.record.send p).map id ofRecord

def submit {η : Type} [Responder η] (s : Session) (t : Task η) :
    Except Error Unit × Session × Task η :=
  (s.record.submit t).map id (·.map ofRecord id)

def step (s : Session) : Except Error (Option Event) × Session := s.record.step.map id ofRecord

def ready (s : Session) : Except Error Bool := s.record.ready

def deliver (s : Session) (a : Arrival) : Session × Bool := (s.record.deliver a).map ofRecord id

/-- Adds a request to the end of the queue. -/
def await (s : Session) (a : Awaited) : Session :=
  match s.phase with
  | .live connection awaiting => { s with phase := .live connection (awaiting ++ [a]) }
  | _ => s

/-- The record of a session is of that session. -/
@[simp]
theorem ofRecord_record (s : Session) : ofRecord s.record = s := by
  obtain ⟨address, settings, phase⟩ := s
  cases phase <;> simp [record, ofRecord, Record.sent]

theorem ofRecord_await (r : Record) (a : Awaited) :
    ofRecord { r with awaiting := r.awaiting ++ [a] } = (ofRecord r).await a := by
  obtain ⟨address, settings, state, connection?, awaiting, past⟩ := r
  cases state <;> cases connection? <;> rfl

section Phases

variable (s : Session)

theorem init_eq (accepted : Bool) (uptakes : List Uptake) : s.init accepted uptakes =
    match s.phase with
    | .live _ _ => (.error (.sessionOpenedTwice s.text), s)
    | .closed _ => (.error (.sessionClosed s.text), s)
    | .unopened =>
      match Connection.connect s.address s.settings accepted uptakes with
      | .ok connection => (.ok (), { s with phase := .live connection [] })
      | .error e => (.error e, s) := by
  obtain ⟨address, settings, phase⟩ := s
  cases phase with
  | unopened =>
    simp only [init, Record.init, record]
    cases Connection.connect address settings accepted uptakes <;> rfl
  | live | closed => rfl

theorem close_eq : s.close =
    if s.isLive then (.ok (), s.teardown) else (.error s.lifecycleError, s) := by
  obtain ⟨address, settings, phase⟩ := s
  cases phase <;> rfl

theorem closeGracefully_eq : s.closeGracefully =
    match s.phase with
    | .live connection awaiting => { s with phase := .live connection.shutdown.2 awaiting }.close
    | _ => s.close := by
  obtain ⟨address, settings, phase⟩ := s
  cases phase <;> rfl

theorem send_eq (p : Packet) : s.send p =
    match s.phase with
    | .live connection awaiting =>
      match connection.checkOutbound p with
      | .error e => (.error e, s)
      | .ok () =>
        match connection.write (some p) with
        | (.ok _, connection) => (.ok (), { s with phase := .live connection awaiting })
        | (.error e, connection) =>
          (.error e, { s with phase := .live connection awaiting }.teardown)
    | _ => (.error s.lifecycleError, s) := by
  obtain ⟨address, settings, phase⟩ := s
  cases phase with
  | live c awaiting =>
    simp only [send, Record.send, Record.write, Record.use, record, if_true, Option.elim_some]
    cases c.checkOutbound p with
    | error => rfl
    | ok => rcases c.write (some p) with ⟨_ | _, c'⟩ <;> rfl
  | unopened | closed => rfl

theorem submit_eq_send {η : Type} [Responder η] (t : Task η) : s.submit t =
    match s.send t.request with
    | (.error e, s) => (.error e, s, t)
    | (.ok (), s) =>
      match t.deliver t.request with
      | (.error e, t) => (.error e, s, t)
      | (.ok .submitted, t) => (.ok (), s.await ⟨t.id, t.request.kind⟩, t)
      | (.ok _, t) => (.ok (), s, t) := by
  simp only [submit, send, Record.submit, Record.send]
  rcases hwrite : s.record.write (some t.request) with ⟨e | n, r⟩
  · rfl
  · obtain ⟨_ | state, t'⟩ := t.deliver t.request
    · rfl
    · cases state with
      | submitted => simp [ofRecord_await]
      | fresh | running | finished | failed => rfl

theorem step_eq : s.step =
    match s.phase with
    | .live connection awaiting =>
      match connection.transmit with
      | (.error e, connection) => (.error e, { s with phase := .live connection awaiting }.teardown)
      | (.ok _, connection) =>
        match connection.read with
        | (.error e, connection) =>
          (.error e, { s with phase := .live connection awaiting }.teardown)
        | (.ok none, connection) => (.ok none, { s with phase := .live connection awaiting })
        | (.ok (some p), connection) =>
          let (event, awaiting) := classify awaiting p
          (.ok (some event), { s with phase := .live connection awaiting })
    | _ => (.error s.lifecycleError, s) := by
  obtain ⟨address, settings, phase⟩ := s
  cases phase with
  | live c awaiting =>
    simp only [step, Record.step, Record.write, Record.use, record, if_true, Option.elim_none,
      Connection.write]
    obtain ⟨_ | _, c₁⟩ := c.transmit
    · rfl
    · simp only [if_true]
      obtain ⟨_ | _ | _, c'⟩ := c₁.read <;> rfl
  | unopened | closed => rfl

theorem deliver_eq_connection (a : Arrival) : s.deliver a =
    match s.phase with
    | .live connection awaiting =>
      let (connection, delivered) := connection.deliver a
      ({ s with phase := .live connection awaiting }, delivered)
    | _ => (s, false) := by
  obtain ⟨address, settings, phase⟩ := s
  cases phase with
  | live c awaiting => rfl
  | unopened | closed => rfl

end Phases

theorem isLive_iff {s : Session} :
    s.isLive = true ↔ ∃ connection awaiting, s.phase = .live connection awaiting := by
  unfold isLive
  split <;> simp_all

theorem awaiting_eq_nil {s : Session} (h : s.isLive = false) : s.awaiting = [] := by
  unfold isLive at h
  unfold awaiting
  split <;> simp_all

theorem isClosed_of_isLive {s : Session} (h : s.isLive = true) : s.isClosed = false := by
  obtain ⟨connection, awaiting, hphase⟩ := isLive_iff.1 h
  simp [isClosed, hphase]

theorem connection?_eq_some_iff {s : Session} {c : Connection} :
    s.connection? = some c ↔ s.phase = .live c s.awaiting := by
  unfold connection? awaiting
  split
  · next hphase => simp [hphase]
  · next hphase =>
    refine ⟨by simp, fun hlive => ?_⟩
    exact absurd hlive (hphase c _)

theorem connection?_eq_none {s : Session} (h : s.isLive = false) : s.connection? = none := by
  unfold isLive at h
  unfold connection?
  split <;> simp_all

/-- A session that is opened awaits nothing. -/
theorem init_ok {s s' : Session} {accepted : Bool} (h : s.init accepted = (.ok (), s')) :
    s'.isLive = true ∧ s'.address = s.address ∧ s'.awaiting = [] ∧ s.awaiting = [] := by
  rw [init_eq] at h
  split at h
  · simp at h
  · simp at h
  · next hphase =>
    split at h
    · cases h
      simp [isLive, awaiting, hphase]
    · simp at h

theorem init_error {s s' : Session} {accepted : Bool} {e : Error}
    (h : s.init accepted = (.error e, s')) : s' = s := by
  rw [init_eq] at h
  repeat' split at h
  all_goals
    cases h
    try rfl

/-- What arrives changes the connection alone. -/
theorem deliver_eq (s : Session) (a : Arrival) :
    (s.deliver a).1.address = s.address ∧ (s.deliver a).1.isLive = s.isLive ∧
      (s.deliver a).1.isClosed = s.isClosed ∧ (s.deliver a).1.awaiting = s.awaiting := by
  rw [deliver_eq_connection]
  split
  · next hphase => simp [isLive, isClosed, awaiting, hphase]
  · exact ⟨rfl, rfl, rfl, rfl⟩

/-- A step without a fault writes, reads once and classifies what it has read. -/
theorem step_ok {s s' : Session} {event : Option Event} (h : s.step = (.ok event, s')) :
    ∃ c c₁ c' awaiting n, s.phase = .live c awaiting ∧ c.transmit = (.ok n, c₁) ∧
      (c₁.read = (.ok none, c') ∧ event = none ∧ s' = { s with phase := .live c' awaiting } ∨
        ∃ p, c₁.read = (.ok (some p), c') ∧ event = some (classify awaiting p).1 ∧
          s' = { s with phase := .live c' (classify awaiting p).2 }) := by
  rw [step_eq] at h
  split at h
  · next c awaiting hphase =>
    split at h
    · simp at h
    · next n c₁ htransmit =>
      split at h
      · simp at h
      · next c' hread =>
        cases h
        exact ⟨c, c₁, c', awaiting, n, hphase, htransmit, .inl ⟨hread, rfl, rfl⟩⟩
      · next p c' hread =>
        cases h
        exact ⟨c, c₁, c', awaiting, n, hphase, htransmit, .inr ⟨p, hread, rfl, rfl⟩⟩
  · simp at h

/-- A session that took a step without a fault is as live as before, at the same address. -/
theorem isLive_of_step {s s' : Session} {event : Option Event} (h : s.step = (.ok event, s')) :
    s.isLive = true ∧ s'.isLive = true ∧ s'.address = s.address := by
  obtain ⟨c, c₁, c', awaiting, n, hphase, -, ⟨-, -, rfl⟩ | ⟨p, -, -, rfl⟩⟩ := step_ok h <;>
    simp [isLive, hphase]

theorem awaiting_of_step_none {s s' : Session} (h : s.step = (.ok none, s')) :
    s'.awaiting = s.awaiting := by
  obtain ⟨c, c₁, c', awaiting, n, hphase, -, ⟨-, -, rfl⟩ | ⟨p, -, hevent, -⟩⟩ := step_ok h
  · simp [Session.awaiting, hphase]
  · cases hevent

theorem awaiting_of_step_reply {s s' : Session} {id : TaskId} {p : Packet}
    (h : s.step = (.ok (some (.reply id p)), s')) :
    ∃ a, s.awaiting = a :: s'.awaiting ∧ a.task = id ∧ isReply p a = true := by
  obtain ⟨c, c₁, c', awaiting, n, hphase, -, ⟨-, hevent, -⟩ | ⟨q, -, hevent, rfl⟩⟩ := step_ok h
  · cases hevent
  · simp only [Option.some.injEq] at hevent
    have hclassify : classify awaiting q = (.reply id p, (classify awaiting q).2) := by
      rw [hevent]
    obtain ⟨rfl, a, hawaiting, hid, hreply⟩ := classify_reply hclassify
    exact ⟨a, by simpa [Session.awaiting, hphase] using hawaiting, hid, hreply⟩

theorem awaiting_of_step_unsolicited {s s' : Session} {p : Packet}
    (h : s.step = (.ok (some (.unsolicited p)), s')) : s'.awaiting = s.awaiting := by
  obtain ⟨c, c₁, c', awaiting, n, hphase, -, ⟨-, hevent, -⟩ | ⟨q, -, hevent, rfl⟩⟩ := step_ok h
  · cases hevent
  · simp only [Option.some.injEq] at hevent
    have hclassify : classify awaiting q = (.unsolicited p, (classify awaiting q).2) := by
      rw [hevent]
    obtain ⟨-, hrest, -⟩ := classify_unsolicited hclassify
    simpa [Session.awaiting, hphase] using hrest

theorem send_ok {s s' : Session} {p : Packet} (h : s.send p = (.ok (), s')) :
    ∃ c c' awaiting n, s.phase = .live c awaiting ∧ c.write p = (.ok n, c') ∧
      s' = { s with phase := .live c' awaiting } := by
  rw [send_eq] at h
  split at h
  · next c awaiting hphase =>
    split at h
    · simp at h
    · split at h
      · next n c' hwrite =>
        cases h
        exact ⟨c, c', awaiting, n, hphase, hwrite, rfl⟩
      · simp at h
  · simp at h

/-- A packet that is refused for its size changes nothing. -/
theorem send_tooLarge {s s' : Session} {p : Packet} {e : Error} (h : s.send p = (.error e, s'))
    (he : e.isTooLarge = true) : s' = s := by
  rw [send_eq] at h
  split at h
  · next c awaiting hphase =>
    split at h
    · cases h
      rfl
    · next hcheck =>
      split at h
      · simp at h
      · next hwrite =>
        cases h
        simp only [Connection.write, hcheck] at hwrite
        rw [Connection.transmit_error hwrite] at he
        contradiction
  · cases h
    rfl

/-- A send that fails has changed nothing, or it was the end of the session. -/
theorem send_error {s s' : Session} {p : Packet} {e : Error} (h : s.send p = (.error e, s')) :
    s' = s ∨ s'.isLive = false := by
  rw [send_eq] at h
  repeat' split at h
  all_goals cases h
  · exact .inl rfl
  · exact .inr rfl
  · exact .inl rfl

/-- A step that fails is the end of the session. -/
theorem step_error {s s' : Session} {e : Error} (h : s.step = (.error e, s')) :
    s'.isLive = false := by
  rw [step_eq] at h
  split at h
  · repeat' split at h
    all_goals
      cases h
      try rfl
  · next hphase =>
    cases h
    unfold isLive
    split
    · next connection awaiting hlive => exact absurd hlive (hphase _ _)
    · rfl

/-- The requests that a task adds to the queue once it was sent. -/
def awaitedOf {η : Type} (t : Task η) : List Awaited :=
  if t.request.kind.isAnswered then [⟨t.id, t.request.kind⟩] else []

/-- A fresh task that was submitted is awaited if the server answers it. -/
theorem submit_ok {η : Type} [Responder η] {s s' : Session} {t t' : Task η}
    (h : s.submit t = (.ok (), s', t')) (hfresh : t.state = .fresh) :
    ∃ s₁, s.send t.request = (.ok (), s₁) ∧ s.isLive = true ∧ s'.isLive = true ∧
      s'.address = s.address ∧ s'.awaiting = s.awaiting ++ awaitedOf t ∧
      t' = { t with state := t.sentState } ∧ s'.connection? = s₁.connection? := by
  rw [submit_eq_send] at h
  split at h
  · simp at h
  · next s₁ hsend =>
    obtain ⟨c, c', awaiting, n, hphase, -, rfl⟩ := send_ok hsend
    simp only [Task.deliver_request hfresh, Task.sentState] at h
    refine ⟨_, hsend, by simp [isLive, hphase], ?_⟩
    cases hanswered : t.request.kind.isAnswered with
    | false =>
      simp only [hanswered] at h
      cases h
      simp [isLive, Session.awaiting, hphase, awaitedOf, hanswered, Task.sentState]
    | true =>
      simp only [hanswered] at h
      cases h
      simp [isLive, Session.awaiting, hphase, awaitedOf, hanswered, Task.sentState, await,
        connection?]

theorem submit_error {η : Type} [Responder η] {s s' : Session} {t t' : Task η} {e : Error}
    (h : s.submit t = (.error e, s', t')) (hfresh : t.state = .fresh) :
    s' = s ∨ s'.isLive = false := by
  rw [submit_eq_send] at h
  split at h
  · next hsend =>
    cases h
    exact send_error hsend
  · simp only [Task.deliver_request hfresh] at h
    split at h <;> simp_all

/-- A task whose request is too long is not submitted, and the session stays as it is. -/
theorem submit_tooLarge {η : Type} [Responder η] {s s' : Session} {t t' : Task η} {e : Error}
    (h : s.submit t = (.error e, s', t')) (hfresh : t.state = .fresh)
    (he : e.isTooLarge = true) : s' = s := by
  rw [submit_eq_send] at h
  split at h
  · next hsend =>
    cases h
    exact send_tooLarge hsend he
  · simp only [Task.deliver_request hfresh] at h
    split at h <;> simp_all

/-- Only a live session has anything to do. -/
theorem isLive_of_isReady {s : Session} (h : s.isReady = true) : s.isLive = true := by
  simp only [isReady, connection?] at h
  simp only [isLive]
  split at h
  · rfl
  · simp at h

/-- A packet that a step reports leaves the backlog shorter by a header at least. -/
theorem backlog_of_step {s s' : Session} {e : Event} (h : s.step = (.ok (some e), s')) :
    s'.backlog + Header.size ≤ s.backlog := by
  obtain ⟨c, c₁, c', awaiting, n, hphase, htransmit, ⟨-, hevent, -⟩ | ⟨p, hread, -, rfl⟩⟩ := step_ok h
  · cases hevent
  · have h₁ := Connection.backlog_of_transmit htransmit
    have h₂ := Connection.backlog_of_read hread
    simp only [backlog, connection?, hphase, Option.elim_some]
    omega

/-- A step that reports a packet has less to do after it. -/
theorem load_of_step_some {s s' : Session} {e : Event} (h : s.step = (.ok (some e), s')) :
    s'.load + Header.size ≤ s.load := by
  obtain ⟨c, c₁, c', awaiting, n, hphase, htransmit, ⟨-, hevent, -⟩ | ⟨p, hread, -, rfl⟩⟩ := step_ok h
  · cases hevent
  · have h₁ := Connection.load_of_transmit htransmit
    have h₂ := Connection.load_of_read_some hread
    simp only [load, connection?, hphase, Option.elim_some]
    omega

/-- A step that reports nothing and leaves something to do has less to do after it. -/
theorem load_of_step_none {s s' : Session} (h : s.step = (.ok none, s')) :
    s'.load ≤ s.load ∧ (s'.isReady = true → s'.load < s.load) := by
  obtain ⟨c, c₁, c', awaiting, n, hphase, htransmit, ⟨hread, -, rfl⟩ | ⟨p, -, hevent, -⟩⟩ := step_ok h
  · obtain ⟨hle₁, hlt₁⟩ := Connection.load_of_transmit htransmit
    obtain ⟨hle₂, hpending, hlt₂⟩ := Connection.load_of_read_none hread
    simp only [load, isReady, connection?, hphase, Option.elim_some, Option.any_some]
    refine ⟨Nat.le_trans hle₂ hle₁, fun hready => ?_⟩
    rcases hlt₂ hready with hwaits | hless
    · exact Nat.lt_of_le_of_lt hle₂ (hlt₁ (hpending ▸ hwaits))
    · exact Nat.lt_of_lt_of_le hless hle₁
  · cases hevent

@[simp]
theorem load_teardown (s : Session) : s.teardown.load = 0 := rfl

@[simp]
theorem backlog_teardown (s : Session) : s.teardown.backlog = 0 := rfl

theorem backlog_of_send {s s' : Session} {p : Packet} {r : Except Error Unit}
    (h : s.send p = (r, s')) : s'.backlog ≤ s.backlog := by
  rw [send_eq] at h
  split at h
  · next c awaiting hphase =>
    split at h
    · cases h
      exact Nat.le_refl _
    · split at h
      · next c' hwrite =>
        cases h
        have := Connection.backlog_of_transmit (Connection.transmit_of_write hwrite)
        simp only [backlog, connection?, hphase, Option.elim_some]
        exact Nat.le_of_eq this
      · cases h
        simp
  · cases h
    exact Nat.le_refl _

@[simp]
theorem backlog_await (s : Session) (a : Awaited) : (s.await a).backlog = s.backlog := by
  unfold await
  split
  · next hphase => simp [backlog, connection?, hphase]
  · rfl

theorem backlog_of_submit {η : Type} [Responder η] {s s' : Session} {t t' : Task η}
    {r : Except Error Unit} (h : s.submit t = (r, s', t')) : s'.backlog ≤ s.backlog := by
  rw [submit_eq_send] at h
  split at h
  · next hsend =>
    cases h
    exact backlog_of_send hsend
  · next hsend =>
    have := backlog_of_send hsend
    split at h
    all_goals
      cases h
      simpa using this

end Session

end Gearman
