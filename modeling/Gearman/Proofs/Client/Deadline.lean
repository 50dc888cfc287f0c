import Gearman.Proofs.Client.Evolution
import Gearman.Proofs.Link.Inbound

/-!
Only a deadline is called a timeout. Whatever else goes wrong with an operation, on the stream, in a packet or
with a session, is reported as something else. So an operation that reports a timeout has waited until the
end, and has left its exchange to itself.
-/

namespace Gearman

/-- Whether this says that a deadline has come. -/
def Error.isTimeout (e : Error) : Bool := e.category = .timeout

variable {e : Error}

theorem Header.isTimeout_of_fault? {limit : UInt32} {bs : Bytes} (h : fault? limit bs = some e) :
    e.isTimeout = false := by
  unfold fault? decode checkLength at h
  repeat' split at h
  all_goals cases h
  · next hdecode =>
    repeat' split at hdecode
    all_goals
      cases hdecode
      try rfl
  · next hlength =>
    split at hlength
    · contradiction
    · cases hlength
      rfl

theorem isTimeout_of_readCounter {field : String} {bs : Bytes} (h : readCounter field bs = .error e) :
    e.isTimeout = false := by
  unfold readCounter at h
  repeat' split at h
  all_goals
    cases h
    try rfl

theorem Packet.isTimeout_of_fields {p : Packet} {n : Nat} (h : p.fields n = .error e) :
    e.isTimeout = false := by
  unfold fields at h
  repeat' split at h
  all_goals
    cases h
    try rfl

theorem JobResult.isTimeout_of_apply {r r' : JobResult} {p : Packet} (h : r.apply p = (.error e, r')) :
    e.isTimeout = false := by
  unfold apply applyStatus at h
  dsimp only at h
  repeat' split at h
  all_goals cases h
  · next hfields => exact Packet.isTimeout_of_fields hfields
  · next hnumerator => exact isTimeout_of_readCounter hnumerator
  · next hdenominator => exact isTimeout_of_readCounter hdenominator
  · rfl

theorem Task.isTimeout_of_deliver {η : Type} [Responder η] {t t' : Task η} {p : Packet}
    (h : t.deliver p = (.error e, t')) : e.isTimeout = false := by
  unfold deliver respond at h
  repeat' split at h
  all_goals
    cases h
    try rfl

namespace Connection

variable {c c' : Connection}

theorem isTimeout_of_transmit (h : c.transmit = (.error e, c')) : e.isTimeout = false := by
  unfold transmit at h
  repeat' split at h
  all_goals
    cases h
    try rfl

theorem isTimeout_of_read (h : c.read = (.error e, c')) : e.isTimeout = false := by
  unfold read receive at h
  split at h
  · next c₁ _ =>
    rcases take_cases c₁ with ⟨e', hfault, htake⟩ | ⟨p, inbound, -, -, -, -, htake⟩ |
      ⟨inbound, -, -, -, -, htake⟩
    all_goals rw [htake, Prod.mk.injEq] at h
    · obtain ⟨heq, -⟩ := h
      cases heq
      exact Header.isTimeout_of_fault? hfault
    · simp at h
    · obtain ⟨heq, -⟩ := h
      split at heq
      · cases heq
        rfl
      · contradiction
  · next hreceive =>
    cases h
    repeat' split at hreceive
    all_goals
      cases hreceive
      try rfl

end Connection

namespace Session

variable {s s' : Session}

theorem isTimeout_lifecycleError (s : Session) : s.lifecycleError.isTimeout = false := by
  unfold lifecycleError
  split <;> rfl

theorem isTimeout_of_init {accepted : Bool} (h : s.init accepted = (.error e, s')) :
    e.isTimeout = false := by
  rw [init_eq, Connection.connect] at h
  repeat' split at h
  all_goals cases h
  · rfl
  · rfl
  · next hconnect =>
    split at hconnect
    · contradiction
    · cases hconnect
      rfl

theorem isTimeout_of_send {p : Packet} (h : s.send p = (.error e, s')) : e.isTimeout = false := by
  rw [send_eq] at h
  split at h
  · split at h
    · next hcheck =>
      cases h
      unfold Connection.checkOutbound Packet.checkSize at hcheck
      split at hcheck
      · contradiction
      · cases hcheck
        rfl
    · next hcheck =>
      split at h
      · cases h
      · next hwrite =>
        cases h
        simp only [Connection.write, hcheck] at hwrite
        exact Connection.isTimeout_of_transmit hwrite
  · cases h
    exact isTimeout_lifecycleError _

theorem isTimeout_of_submit {η : Type} [Responder η] {t t' : Task η}
    (h : s.submit t = (.error e, s', t')) : e.isTimeout = false := by
  rw [submit_eq_send] at h
  split at h
  · next hsend =>
    cases h
    exact isTimeout_of_send hsend
  · split at h
    · next hdeliver =>
      cases h
      exact Task.isTimeout_of_deliver hdeliver
    · cases h
    · cases h

theorem isTimeout_of_step (h : s.step = (.error e, s')) : e.isTimeout = false := by
  rw [step_eq] at h
  split at h
  · split at h
    · next htransmit =>
      cases h
      exact Connection.isTimeout_of_transmit htransmit
    · split at h
      · next hread =>
        cases h
        exact Connection.isTimeout_of_read hread
      · cases h
      · cases h
  · cases h
    exact isTimeout_lifecycleError _

end Session

namespace Client

variable {c c' : Client} {env : Surroundings} {server : Address} {request : Packet} {x : Exchange}
  {awaited : String} {arrivals rest : List Arrival}

theorem isTimeout_of_dispatch {event : Session.Event} (h : c.dispatch server event = (.error e, c')) :
    e.isTimeout = false := by
  cases event with
  | reply id p =>
    simp only [dispatch, handleReply] at h
    repeat' split at h
    all_goals cases h
    next hdeliver => exact Task.isTimeout_of_deliver hdeliver
  | unsolicited p =>
    simp only [dispatch, handleUnsolicited, handleUpdate] at h
    repeat' split at h
    all_goals cases h
    · next happly => exact JobResult.isTimeout_of_apply happly
    · unfold complaint
      split <;> rfl

theorem isTimeout_of_pump (h : c.pump server = (.error e, c')) : e.isTimeout = false := by
  fun_induction pump c server with
  | case1 c e' c₁ hreceive =>
    obtain ⟨s, s', -, hstep, -⟩ := receive_error hreceive
    cases h
    exact Session.isTimeout_of_step hstep
  | case2 => cases h
  | case3 c event c₁ hreceive e' c₂ hdispatch =>
    cases h
    exact isTimeout_of_dispatch hdispatch
  | case4 c event c₁ hreceive c₂ hdispatch ih => exact ih h

theorem isTimeout_of_session (h : c.session env server = (.error e, c')) : e.isTimeout = false := by
  unfold session at h
  repeat' split at h
  all_goals cases h
  · rfl
  · next hinit => exact Session.isTimeout_of_init hinit

theorem isTimeout_of_start (h : c.start env server request x = (.error e, c')) :
    e.isTimeout = false := by
  unfold start at h
  split at h
  · next hnew =>
    cases h
    unfold Task.new at hnew
    split at hnew <;> cases hnew
    rfl
  · split at h
    · next hsession =>
      cases h
      exact isTimeout_of_session hsession
    · unfold ask at h
      dsimp only at h
      split at h
      · cases h
      · next hsubmit =>
        cases h
        exact Session.isTimeout_of_submit hsubmit

/-- A wait ends with an error because reading fails, or because there is nothing to wait for. -/
theorem Watch.run_error {α : Type} {w : Watch α} (h : w.run arrivals c = ⟨some (.error e), c', rest⟩) :
    (∃ c₁ c₂, w.drive c₁ = (.error e, c₂)) ∨ ∃ c₁ c₂, w.settled c₁ = some (.error e, c₂) := by
  fun_induction Watch.run w arrivals c with
  | case1 arrivals c outcome c₁ hsettled =>
    cases h
    exact .inr ⟨c, c', hsettled⟩
  | case2 arrivals c hsettled e' c₁ hdriven =>
    cases h
    exact .inl ⟨c, c', hdriven⟩
  | case3 arrivals c hsettled c₁ hdriven outcome c₂ hanswer =>
    cases h
    rw [dite_eq_ite] at hanswer
    split at hanswer
    · contradiction
    · exact .inr ⟨c₁, c', hanswer⟩
  | case4 arrivals c hsettled c₁ hdriven hanswer hready ih => exact ih h
  | case5 => cases h
  | case6 c hsettled c₁ hdriven hanswer hready a rest ih => exact ih h

theorem isTimeout_of_replyTo {id : TaskId}
    (h : (replyTo id server).run arrivals c = ⟨some (.error e), c', rest⟩) : e.isTimeout = false := by
  rcases Watch.run_error h with ⟨c₁, c₂, hdriven⟩ | ⟨c₁, c₂, hsettled⟩
  · exact isTimeout_of_pump hdriven
  · simp only [replyTo] at hsettled
    repeat' split at hsettled
    all_goals cases hsettled
    rfl

/-- An exchange that reports a timeout was begun, has waited until the end, and is left to itself. -/
theorem exchange_eq_timeout {late : String}
    (h : c.exchange env server request x awaited = ⟨.error (.timeout late), c', rest⟩) :
    late = awaited ∧ ∃ id c₁ c₂, c.start env server request x = (.ok id, c₁) ∧
      (replyTo id server).run env.arrivals c₁ = ⟨none, c₂, rest⟩ ∧ c' = c₂.detach id := by
  unfold exchange at h
  split at h
  · next hstart =>
    cases h
    have := isTimeout_of_start hstart
    contradiction
  · next id c₁ hstart =>
    split at h
    · cases h
    · next hrun =>
      cases h
      have := isTimeout_of_replyTo hrun
      contradiction
    · next c₂ rest₁ hrun =>
      cases h
      exact ⟨rfl, id, c₁, c₂, hstart, hrun, rfl⟩

end Client

end Gearman
