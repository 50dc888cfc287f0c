import Gearman.Proofs.Session.Sending

/-!
The life of a session: unopened, live, closed, whatever is done with it and whatever becomes of its
connection. The record of a session keeps its state, its connection and its queue apart; they fit together
because every operation changes them together.

A live session fails in two ways. It declines what it is asked to do, if the packet is too long or the task
has failed before, and stays live. Any other failure comes from the stream or from the bytes on it, and is
the end of the session. The two can have the same error, since a packet can be too long in both directions.
-/

namespace Gearman.Session

/-- The place of a state in the life of a session. -/
def State.rank : State → Nat
  | .unopened => 0
  | .live => 1
  | .closed => 2

variable {η : Type}

/-- An operation of a session. A task can be submitted in any state. -/
inductive Operation (η : Type) where
  | init (accepted : Bool) (uptakes : List Uptake)
  | send (p : Packet)
  | submit (t : Task η)
  | step
  | ready
  | close
  | closeGracefully

namespace Operation

/-- The packet that is to be sent. -/
def packet? : Operation η → Option Packet
  | .send p => some p
  | .submit t => some t.request
  | _ => none

/-- The task that is to be submitted. -/
def task? : Operation η → Option (Task η)
  | .submit t => some t
  | _ => none

/-- Whether the packet that is to be sent, if there is one, is no longer than that. -/
def Fits (op : Operation η) (limit : UInt32) : Prop :=
  ∀ p, op.packet? = some p → p.payload.length ≤ limit.toNat

/-- Whether the session is to be opened. -/
def isOpening : Operation η → Bool
  | .init _ _ => true
  | _ => false

/-- Whether the stream is written or read. -/
def isTransfer : Operation η → Bool
  | .send _ | .submit _ | .step => true
  | _ => false

/-- Whether the session is to be closed. -/
def isClosing : Operation η → Bool
  | .close | .closeGracefully => true
  | _ => false

end Operation

/-- The answer of an operation, without what it brings, and what it leaves behind. -/
structure Outcome (η : Type) where
  answer : Except Error Unit
  record : Record
  /-- The task that was to be submitted. -/
  task? : Option (Task η) := none

/-- Nothing but an error comes of an operation. -/
def Outcome.refusal (r : Record) (op : Operation η) (e : Error) : Outcome η := ⟨.error e, r, op.task?⟩

/-- An operation, and what becomes of the connection before it: bytes come in, some of what waits is
written, the server is busy, closes its end or resets the stream. -/
structure Turn (η : Type) where
  change : Connection → Connection
  operation : Operation η

namespace Record

section Operations

variable [Responder η]

def perform (r : Record) : Operation η → Outcome η
  | .init accepted uptakes => ⟨(r.init accepted uptakes).1, (r.init accepted uptakes).2, none⟩
  | .send p => ⟨(r.send p).1, (r.send p).2, none⟩
  | .submit t => ⟨(r.submit t).1, (r.submit t).2.1, some (r.submit t).2.2⟩
  | .step => ⟨r.step.1.map fun _ => (), r.step.2, none⟩
  | .ready => ⟨r.ready.map fun _ => (), r, none⟩
  | .close => ⟨r.close.1, r.close.2, none⟩
  | .closeGracefully => ⟨r.closeGracefully.1, r.closeGracefully.2, none⟩

/-- The record with what has become of the connection. -/
def disturb (r : Record) (change : Connection → Connection) : Record :=
  { r with connection? := r.connection?.map change }

def performAll (r : Record) (turns : List (Turn η)) : Record :=
  turns.foldl (fun r t => ((r.disturb t.change).perform t.operation).record) r

end Operations

variable {r r' : Record} {c c' : Connection} {p? : Option Packet} {op : Operation η}

theorem use_eq_ok_iff : r.use = .ok c ↔ r.state = .live ∧ r.connection? = some c := by
  unfold use
  split
  · split <;> simp_all
  · simp_all

theorem use_of_state (h : r.state ≠ .live) : r.use = .error r.lifecycleError := by
  simp [use, h]

/-- How a record comes out of a write. -/
inductive Written (r : Record) (p? : Option Packet) : Except Error Nat × Record → Prop
  | unusable {e : Error} (huse : r.use = .error e) : Written r p? (.error e, r)
  | tooLong {c : Connection} {p : Packet} (huse : r.use = .ok c) (hp : p? = some p)
    (hlong : c.maxPayload.toNat < p.payload.length) :
    Written r p? (.error (.payloadTooLarge p.payload.length c.maxPayload), r)
  | done {c c' : Connection} {n : Nat} (huse : r.use = .ok c)
    (hfits : ∀ p, p? = some p → p.payload.length ≤ c.maxPayload.toNat)
    (htaken : c.written <+: c'.written) : Written r p? (.ok n, { r with connection? := some c' })
  | broken {c c' : Connection} {e : Error} (huse : r.use = .ok c)
    (hfits : ∀ p, p? = some p → p.payload.length ≤ c.maxPayload.toNat) (hfault : e.isBreak = true) :
    Written r p? (.error e, { r with connection? := some c' }.teardown)

theorem written_of_transmit (huse : r.use = .ok c) (waiting : Connection)
    (hcheck : p?.elim (.ok ()) c.checkOutbound = .ok ())
    (hfits : ∀ p, p? = some p → p.payload.length ≤ c.maxPayload.toNat)
    (hwrite : c.write p? = waiting.transmit) : Written r p? (r.write p?) := by
  simp only [write, huse, hcheck]
  obtain ⟨n, c', htransmit, -⟩ | ⟨e, c', htransmit, hfault, -⟩ := waiting.transmit_cases
  all_goals rw [← hwrite] at htransmit
  · rw [htransmit]
    exact .done huse hfits (Connection.written_prefix_of_write htransmit)
  · rw [htransmit]
    exact .broken huse hfits hfault

theorem written_write (r : Record) (p? : Option Packet) : Written r p? (r.write p?) := by
  cases huse : r.use with
  | error e =>
    simp only [write, huse]
    exact .unusable huse
  | ok c =>
    cases p? with
    | none => exact written_of_transmit huse c rfl (by simp) rfl
    | some p =>
      by_cases hfits : p.payload.length ≤ c.maxPayload.toNat
      · have hcheck : c.checkOutbound p = .ok () := Packet.checkSize_eq_ok_iff.2 hfits
        refine written_of_transmit huse { c with outbound := c.outbound.push p } hcheck ?_ ?_
        · rintro q ⟨⟩
          exact hfits
        · simp only [Connection.write, hcheck]
      · have hlong := Nat.lt_of_not_le hfits
        have hcheck : c.checkOutbound p = .error (.payloadTooLarge p.payload.length c.maxPayload) :=
          Packet.checkSize_eq_error_iff.2 ⟨hlong, rfl⟩
        simp only [write, huse, Option.elim_some, hcheck]
        exact .tooLong huse rfl hlong

/-- A session that can be used declines a packet that is too long, or stays live, or is broken by the
stream. -/
theorem Written.of_use {o : Except Error Nat × Record} (h : Written r p? o) (huse : r.use = .ok c) :
    (∃ p, p? = some p ∧ c.maxPayload.toNat < p.payload.length ∧
        o = (.error (.payloadTooLarge p.payload.length c.maxPayload), r)) ∨
      (∀ p, p? = some p → p.payload.length ≤ c.maxPayload.toNat) ∧
        ((∃ n c', c.written <+: c'.written ∧ o = (.ok n, { r with connection? := some c' })) ∨
          ∃ e c', e.isBreak = true ∧ o = (.error e, { r with connection? := some c' }.teardown)) := by
  cases h with
  | unusable hno => simp [huse] at hno
  | tooLong huse' hp hlong =>
    obtain rfl := Except.ok.inj (huse.symm.trans huse')
    exact .inl ⟨_, hp, hlong, rfl⟩
  | done huse' hfits htaken =>
    obtain rfl := Except.ok.inj (huse.symm.trans huse')
    exact .inr ⟨hfits, .inl ⟨_, _, htaken, rfl⟩⟩
  | broken huse' hfits hfault =>
    obtain rfl := Except.ok.inj (huse.symm.trans huse')
    exact .inr ⟨hfits, .inr ⟨_, _, hfault, rfl⟩⟩

/-- What an operation can make of a record. -/
inductive Move (r : Record) : Record → Prop
  | same : Move r r
  | opened (c : Connection) (h : r.state = .unopened) :
    Move r { r with connection? := some c, state := .live }
  | used {c : Connection} (c' : Connection) (awaiting : List Awaited) (h : r.use = .ok c) :
    Move r { r with connection? := some c', awaiting }
  | closed (c? : Option Connection) (h : r.state = .live) :
    Move r { r with connection? := c? }.teardown

/-- A write does not touch the queue unless it is the end of the session. -/
theorem Written.move {o : Except Error Nat × Record} (h : Written r p? o) : Move r o.2 := by
  cases h with
  | unusable | tooLong => exact .same
  | done huse => exact .used _ r.awaiting huse
  | broken huse => exact .closed _ (use_eq_ok_iff.1 huse).1

theorem move_send (r : Record) (p : Packet) : Move r (r.send p).2 := by
  have hmove := (written_write r (some p)).move
  unfold send
  split <;> simp_all

theorem move_submit [Responder η] (r : Record) (t : Task η) : Move r (r.submit t).2.1 := by
  have hwritten := written_write r (some t.request)
  unfold submit
  split
  · next hwrite =>
    rw [hwrite] at hwritten
    exact hwritten.move
  · next hwrite =>
    rw [hwrite] at hwritten
    have hmove := hwritten.move
    split
    · exact hmove
    · cases hwritten with
      | done huse => exact .used _ _ huse
    · exact hmove

theorem move_step (r : Record) : Move r r.step.2 := by
  have hwritten := written_write r none
  unfold step
  split
  · next hwrite =>
    rw [hwrite] at hwritten
    exact hwritten.move
  · next hwrite =>
    rw [hwrite] at hwritten
    cases hwritten with
    | done huse =>
      have hlive := (use_eq_ok_iff.1 huse).1
      split
      · exact .used _ _ huse
      · split
        · exact .closed _ hlive
        · exact .used _ _ huse
        · exact .used _ _ huse

theorem move_perform [Responder η] (r : Record) (op : Operation η) : Move r (r.perform op).record := by
  cases op with
  | init accepted uptakes =>
    simp only [perform, init]
    split
    · exact .same
    · exact .same
    · next hstate =>
      split
      · exact .opened _ hstate
      · exact .same
  | send p => exact move_send r p
  | submit t => exact move_submit r t
  | step => exact move_step r
  | ready => exact .same
  | close =>
    simp only [perform, close]
    split
    · exact .same
    · exact .same
    · next hstate => exact .closed r.connection? hstate
  | closeGracefully =>
    simp only [perform, closeGracefully, close]
    split
    · next hstate =>
      rw [hstate]
      exact .closed _ hstate
    · split
      · exact .same
      · exact .same
      · contradiction

/-- The fields of a record fit together. -/
structure Coherent (r : Record) : Prop where
  connection : r.connection?.isSome = true ↔ r.state = .live
  awaiting : r.awaiting ≠ [] → r.state = .live
  past : r.past ≠ [] → r.state = .closed

theorem coherent_unopened (address : Address) (settings : ConnectionSettings) :
    Coherent { address, settings } :=
  ⟨by simp, by simp, by simp⟩

theorem Coherent.disturb (h : r.Coherent) (change : Connection → Connection) :
    (r.disturb change).Coherent :=
  ⟨by simpa [Record.disturb] using h.connection, h.awaiting, h.past⟩

theorem Coherent.move (h : r.Coherent) (hmove : Move r r') : r'.Coherent := by
  cases hmove with
  | same => exact h
  | opened c hstate =>
    refine ⟨by simp, by simp, fun hpast => ?_⟩
    rw [h.past hpast] at hstate
    contradiction
  | used c' awaiting huse =>
    obtain ⟨hlive, -⟩ := use_eq_ok_iff.1 huse
    exact ⟨by simp [hlive], fun _ => hlive, h.past⟩
  | closed c? hlive => exact ⟨by simp [teardown], by simp [teardown], fun _ => rfl⟩

/-- Fields that fit together are those of a session. -/
theorem Coherent.record_ofRecord (h : r.Coherent) : (ofRecord r).record = r := by
  obtain ⟨hconnection, hawaiting, hpast⟩ := h
  obtain ⟨address, settings, state, connection?, awaiting, past⟩ := r
  cases state <;> cases connection? <;> simp_all [ofRecord, Session.record, sent]

theorem rank_of_move (h : Move r r') :
    r'.state.rank = r.state.rank ∨ r'.state.rank = r.state.rank + 1 := by
  cases h with
  | same => exact .inl rfl
  | opened c hstate => exact .inr (by rw [hstate]; rfl)
  | used => exact .inl rfl
  | closed c? hstate => exact .inr (by rw [hstate]; rfl)

section Runs

variable [Responder η]

theorem coherent_performAll (h : r.Coherent) (turns : List (Turn η)) : (r.performAll turns).Coherent := by
  induction turns generalizing r with
  | nil => exact h
  | cons turn rest ih => exact ih ((h.disturb turn.change).move (move_perform _ turn.operation))

theorem rank_performAll (r : Record) (turns : List (Turn η)) :
    r.state.rank ≤ (r.performAll turns).state.rank := by
  induction turns generalizing r with
  | nil => exact Nat.le_refl _
  | cons turn rest ih =>
    have hstep := rank_of_move (move_perform (r.disturb turn.change) turn.operation)
    have hrest := ih ((r.disturb turn.change).perform turn.operation).record
    have hsame : (r.disturb turn.change).state = r.state := rfl
    rw [hsame] at hstep
    simp only [performAll, List.foldl_cons] at hrest ⊢
    omega

/-- Nothing becomes of a session that is closed. -/
theorem performAll_of_closed (h : r.Coherent) (hclosed : r.state = .closed) (turns : List (Turn η)) :
    r.performAll turns = r := by
  induction turns with
  | nil => rfl
  | cons turn rest ih =>
    have hnone : r.connection? = none := by simpa [hclosed] using h.connection
    have hsame : r.disturb turn.change = r := by
      rw [disturb, hnone, Option.map_none, ← hnone]
    have hidle : (r.perform turn.operation).record = r := by
      have hmove := move_perform r turn.operation
      generalize (r.perform turn.operation).record = r' at hmove
      cases hmove with
      | same => rfl
      | opened c hstate | closed c hstate =>
        rw [hclosed] at hstate
        contradiction
      | used c' awaiting huse =>
        rw [use_of_state (by simp [hclosed])] at huse
        contradiction
    rw [performAll, List.foldl_cons, hsame, hidle]
    exact ih

end Runs

/-- A session that takes leave has sent all that it has accepted, unless the stream fails it. -/
theorem sent_of_closeGracefully (huse : r.use = .ok c) (hflush : c.flush = (.ok (), c')) :
    r.closeGracefully.2.sent = r.past ++ c.outgoing := by
  obtain ⟨hlive, hc⟩ := use_eq_ok_iff.1 huse
  obtain ⟨hsent, -⟩ := Connection.flush_ok hflush
  simp [closeGracefully, close, hlive, hc, Connection.shutdown, hflush, hsent, teardown, sent]

/-- A session stays live with a connection on which nothing is taken back that was taken. -/
def Stays (c : Connection) (r' : Record) : Prop := ∃ c', r'.use = .ok c' ∧ c.written <+: c'.written

/-- How a live session with connection `c` comes out of an operation that writes or reads. -/
inductive Transferred (r : Record) (c : Connection) (op : Operation η) (o : Outcome η) : Prop
  | done (hfits : op.Fits c.maxPayload) (hanswer : o.answer = .ok ()) (hstays : Stays c o.record)
  | tooLong {p : Packet} (hp : op.packet? = some p) (hlong : c.maxPayload.toNat < p.payload.length)
    (hrefusal : o = .refusal r op (.payloadTooLarge p.payload.length c.maxPayload))
  | failed {t : Task η} (hop : op = .submit t) (hfits : op.Fits c.maxPayload)
    (hfailed : t.state = .failed) (hanswer : o.answer = .error (.alreadyFailed t.name t.request.summary))
    (hstays : Stays c o.record)
  | over {e : Error} (hfits : op.Fits c.maxPayload) (hfault : op = .step ∨ e.isBreak = true)
    (hanswer : o.answer = .error e) (hclosed : o.record.state = .closed)
    (hawaiting : o.record.awaiting = [])

/-- How an operation turns out. -/
structure Lawful (r : Record) (op : Operation η) (o : Outcome η) : Prop where
  /-- A session that is not live can only be opened, and only if it never was. -/
  idle : r.state ≠ .live → (op.isOpening = true → r.state = .closed) →
    o = .refusal r op (if r.state = .closed then .sessionClosed r.text else .sessionUnopened r.text)
  opening : r.state = .unopened → ∀ accepted uptakes, op = .init accepted uptakes →
    if accepted then o.answer = .ok () ∧ o.record.state = .live ∧ o.record.awaiting = []
    else o = .refusal r op (.link .refused)
  reopening : r.state = .live → op.isOpening = true → o = .refusal r op (.sessionOpenedTwice r.text)
  waiting : r.state = .live → op = .ready → o = ⟨.ok (), r, none⟩
  closing : r.state = .live → op.isClosing = true →
    o.answer = .ok () ∧ o.record.state = .closed ∧ o.record.awaiting = []
  leaving : op = .closeGracefully → ∀ c c', r.use = .ok c → c.flush = (.ok (), c') →
    o.record.sent = r.past ++ c.outgoing
  transfer : ∀ c, r.use = .ok c → op.isTransfer = true → Transferred r c op o

theorem Operation.fits_of_packet? {limit : UInt32} (hp : op.packet? = p?)
    (hfits : ∀ p, p? = some p → p.payload.length ≤ limit.toNat) : op.Fits limit :=
  fun p h => hfits p (hp ▸ h)

section Laws

variable [Responder η]

theorem perform_of_state (hstate : r.state ≠ .live) (hop : op.isOpening = true → r.state = .closed) :
    r.perform op = .refusal r op r.lifecycleError := by
  have huse := use_of_state hstate
  have hwrite : ∀ p?, r.write p? = (.error r.lifecycleError, r) := by
    intro p?
    simp only [write, huse]
  cases op with
  | init accepted uptakes =>
    simp [perform, init, hop rfl, Outcome.refusal, Operation.task?, lifecycleError]
  | send p => simp only [perform, send, hwrite, Outcome.refusal, Operation.task?]
  | submit t => simp only [perform, submit, hwrite, Outcome.refusal, Operation.task?]
  | step => simp only [perform, step, hwrite, Outcome.refusal, Operation.task?, Except.map]
  | ready =>
    simp only [perform, ready]
    split
    · contradiction
    · rfl
  | close | closeGracefully =>
    simp only [perform, closeGracefully, hstate, if_false, close]
    split <;> simp_all [Outcome.refusal, Operation.task?, lifecycleError]

theorem stays_of_written (huse : r.use = .ok c) (htaken : c.written <+: c'.written)
    (awaiting : List Awaited) : Stays c { r with connection? := some c', awaiting } :=
  ⟨c', use_eq_ok_iff.2 ⟨(use_eq_ok_iff.1 huse).1, rfl⟩, htaken⟩

theorem transferred_send (huse : r.use = .ok c) (p : Packet) :
    Transferred r c (.send p) (r.perform (.send p) : Outcome η) := by
  simp only [perform, send]
  obtain ⟨q, hq, hlong, hwrite⟩ | ⟨hfits, ⟨n, c', htaken, hwrite⟩ | ⟨e, c', hfault, hwrite⟩⟩ :=
    (written_write r (some p)).of_use huse
  all_goals rw [hwrite]
  · exact .tooLong hq hlong rfl
  · exact .done (Operation.fits_of_packet? rfl hfits) rfl (stays_of_written huse htaken _)
  · exact .over (Operation.fits_of_packet? rfl hfits) (.inr hfault) rfl rfl rfl

theorem transferred_submit (huse : r.use = .ok c) (t : Task η) :
    Transferred r c (.submit t) (r.perform (.submit t)) := by
  simp only [perform, submit, Task.deliver_own_request]
  obtain ⟨q, hq, hlong, hwrite⟩ | ⟨hfits, ⟨n, c', htaken, hwrite⟩ | ⟨e, c', hfault, hwrite⟩⟩ :=
    (written_write r (some t.request)).of_use huse
  all_goals rw [hwrite]
  · exact .tooLong hq hlong rfl
  · have hfits : (.submit t : Operation η).Fits c.maxPayload := Operation.fits_of_packet? rfl hfits
    have hstays := stays_of_written huse htaken
    by_cases hfailed : t.state = .failed
    · simp only [hfailed, if_true]
      exact .failed rfl hfits hfailed rfl (hstays _)
    · simp only [hfailed, if_false]
      cases t.afterSending.state <;> exact .done hfits rfl (hstays _)
  · exact .over (Operation.fits_of_packet? rfl hfits) (.inr hfault) rfl rfl rfl

theorem transferred_step (huse : r.use = .ok c) :
    Transferred r c .step (r.perform .step : Outcome η) := by
  have hfits : (.step : Operation η).Fits c.maxPayload := by rintro p ⟨⟩
  simp only [perform, step]
  obtain ⟨q, hq, -⟩ | ⟨-, ⟨n, c', htaken, hwrite⟩ | ⟨e, c', -, hwrite⟩⟩ :=
    (written_write r none).of_use huse
  · contradiction
  · have huse' : ({ r with connection? := some c' } : Record).use = .ok c' :=
      use_eq_ok_iff.2 ⟨(use_eq_ok_iff.1 huse).1, rfl⟩
    rw [hwrite]
    simp only [huse']
    rcases hread : c'.read with ⟨_ | _ | _, c''⟩
    all_goals rw [← Connection.written_of_read hread] at htaken
    · exact .over hfits (.inl rfl) rfl rfl rfl
    · exact .done hfits rfl (stays_of_written huse htaken _)
    · exact .done hfits rfl (stays_of_written huse htaken _)
  · rw [hwrite]
    exact .over hfits (.inl rfl) rfl rfl rfl

/-- What an operation does to a record whose fields fit together, in each state. -/
theorem lawful_perform (h : r.Coherent) (op : Operation η) : Lawful r op (r.perform op) where
  idle hstate hop := by
    rw [perform_of_state hstate hop, lifecycleError]
    cases hr : r.state <;> simp_all
  opening hstate accepted uptakes hop := by
    subst hop
    have hnone : r.awaiting = [] := by
      refine Decidable.byContradiction fun hsome => ?_
      rw [h.awaiting hsome] at hstate
      contradiction
    cases accepted <;>
      simp [perform, init, hstate, Connection.connect, Outcome.refusal, Operation.task?, hnone]
  reopening hstate hop := by
    cases op with
    | init accepted uptakes => simp only [perform, init, hstate, Outcome.refusal, Operation.task?]
    | _ => contradiction
  waiting hstate hop := by
    subst hop
    obtain ⟨c, hc⟩ := Option.isSome_iff_exists.1 (h.connection.2 hstate)
    simp only [perform, ready, hc, hstate, Except.map]
  closing hstate hop := by
    cases op with
    | close => simp [perform, close, hstate, teardown]
    | closeGracefully => simp [perform, closeGracefully, close, hstate, teardown]
    | _ => contradiction
  leaving hop c c' huse hflush := by
    subst hop
    exact sent_of_closeGracefully huse hflush
  transfer c huse hop := by
    cases op with
    | send p => exact transferred_send huse p
    | submit t => exact transferred_submit huse t
    | step => exact transferred_step huse
    | _ => contradiction

/-- Whatever is done with a session, in any order, and whatever becomes of its connection meanwhile. It
has a connection if and only if it is live, and awaits replies only then, so its record is that of a session
in one of the three phases. Every operation does what the state provides for: a session that is not live
declines everything but to be opened for the first time, and stays as it is; a live one stays live and takes
back nothing that was written, declines a packet that is too long and stays as it is, or is closed by a fault
and awaits nothing. Before it takes leave it sends what waits, as long as the stream holds. The life of a
session goes only forward, and ends when it is closed. -/
theorem keeps_lifecycle (address : Address) (settings : ConnectionSettings) (turns : List (Turn η)) :
    let r := ({ address, settings } : Record).performAll turns
    (r.connection?.isSome = true ↔ r.state = .live) ∧ (r.awaiting ≠ [] → r.state = .live) ∧
      (ofRecord r).record = r ∧
      (∀ change (op : Operation η),
        Lawful (r.disturb change) op ((r.disturb change).perform op) ∧
          (((r.disturb change).perform op).record.state.rank = r.state.rank ∨
            ((r.disturb change).perform op).record.state.rank = r.state.rank + 1)) ∧
      ∀ more : List (Turn η), r.state.rank ≤ (r.performAll more).state.rank ∧
        (r.state = .closed → r.performAll more = r) := by
  intro r
  have hr : r.Coherent := coherent_performAll (coherent_unopened address settings) turns
  refine ⟨hr.connection, hr.awaiting, hr.record_ofRecord, fun change op => ?_, fun more =>
    ⟨rank_performAll r more, fun h => performAll_of_closed hr h more⟩⟩
  have hrank := rank_of_move (move_perform (r.disturb change) op)
  exact ⟨lawful_perform (hr.disturb change) op, hrank⟩

end Laws

end Record

end Gearman.Session
