import Gearman.Proofs.Worker.Sound

/-!
What the parts of a step do to a sound worker.
-/

namespace Gearman.Worker

variable {limit : UInt32} {w w' : Worker} {server : Address} {m : Member}

/-- What becomes of a packet: it goes out, or it is refused for its size, or it costs the session. -/
theorem Sound.sendTo_cases (hw : Sound limit w) (hm : w.members.get? server = some m) (p : Packet) :
    (p.payload.length ≤ limit.toNat ∧ ∃ session,
      session.Clear limit (m.outstanding.map Task.awaited).toList ∧
      session.sent = m.session.sent ++ [p] ∧ (w.sendTo server p).1 = true ∧
      Replaced server { m with session } w (w.sendTo server p).2) ∨
    (limit.toNat < p.payload.length ∧ (w.sendTo server p).1 = false ∧
      Replaced server m w (w.sendTo server p).2) ∨
    (w.sendTo server p).1 = true ∧ Lost server w (w.sendTo server p).2 := by
  have hclear := (hw.member server m hm).session
  simp only [sendTo, hm, hclear.isLive, if_true]
  split
  · next session hsend =>
    obtain ⟨hclear', hsent, hlength⟩ := hclear.send_ok hsend
    exact .inl ⟨hlength, session, hclear', hsent, rfl, replaced_insert ..⟩
  · next e session hsend =>
    split
    · next hlarge =>
      obtain rfl : session = m.session := Session.send_tooLarge hsend hlarge
      exact .inr (.inl ⟨(hclear.send_tooLarge hsend).1 hlarge, rfl, replaced_insert ..⟩)
    · exact .inr (.inr ⟨rfl, .of_replaced hm (replaced_insert ..)
        (Session.sent_of_send_error hsend) (lost_dropSession ..)⟩)

/-- A server that the worker does not have is sent nothing. -/
theorem sendTo_none (hm : w.members.get? server = none) (p : Packet) :
    w.sendTo server p = (true, w) := by
  simp [sendTo, hm]

/-- What becomes of a request over a session that awaits nothing: it is the only one from then on, or
nothing was sent. -/
theorem ask_cases (w : Worker) (hclear : m.session.Clear limit []) {kind : Kind}
    (hkind : kind = .grabJob ∨ kind = .preSleep) :
    (∃ session task, Member.Sound limit ⟨session, some task⟩ ∧
      session.sent = m.session.sent ++ [.request kind []] ∧
      w.ask m kind = (.ok (), ⟨session, some task⟩, { w with issued := w.issued + 1 })) ∨
    ∃ e session, session.sent = m.session.sent ∧
      w.ask m kind = (.error e, { m with session }, { w with issued := w.issued + 1 }) := by
  have hanswered : kind.isAnswered = true := by
    rcases hkind with rfl | rfl <;> rfl
  let task : Task Receipt :=
    { id := w.issued, request := .request kind [], responder := some {}, isRequest_request := rfl }
  have hnew : Task.new w.issued (.request kind []) (some (Receipt.mk)) = .ok task := rfl
  simp only [ask, hnew]
  split
  · next session task' hsubmit =>
    obtain ⟨hclear', hsent, rfl⟩ := hclear.submit_ok hsubmit rfl
    have hawaited : Session.awaitedOf task = [task.awaited] := if_pos hanswered
    rw [List.nil_append, hawaited] at hclear'
    refine .inl ⟨session, { task with state := task.sentState }, ⟨hclear', ?_⟩, hsent, rfl⟩
    rintro t ⟨⟩
    exact ⟨if_pos hanswered, rfl, hkind⟩
  · next e session task' hsubmit =>
    exact .inr ⟨e, session, Session.sent_of_submit_error hsubmit rfl, rfl⟩

/-- As `ask_cases`, for a member: if nothing was sent, the session is given up. -/
theorem Sound.request_cases (hw : Sound limit w) (hm : w.members.get? server = some m)
    (hnone : m.outstanding = none) {kind : Kind} (hkind : kind = .grabJob ∨ kind = .preSleep) :
    (∃ session task, Member.Sound limit ⟨session, some task⟩ ∧
      session.sent = m.session.sent ++ [.request kind []] ∧
      Replaced server ⟨session, some task⟩ w (w.request server kind)) ∨
    Lost server w (w.request server kind) := by
  have hclear := (hw.member server m hm).session
  simp only [hnone, Option.map_none, Option.toList_none] at hclear
  have hreplaced : ∀ m', Replaced server m' w
      { w with members := w.members.insert server m', issued := w.issued + 1 } :=
    fun m' => ⟨rfl, fun _ => Table.get?_insert, rfl, rfl⟩
  rcases ask_cases w hclear hkind with ⟨session, task, hsound, hsent, hask⟩ |
    ⟨e, session, hsent, hask⟩
  · simp only [request, hm, hask]
    exact .inl ⟨session, task, hsound, hsent, hreplaced _⟩
  · simp only [request, hm, hask]
    exact .inr (.of_replaced hm (hreplaced _) hsent (lost_dropSession ..))

/-- A read that brings no packet has changed what there is to be read, or it costs the session. -/
theorem Sound.receive_none (hw : Sound limit w) (h : w.receive server = (none, w')) :
    w' = w ∨ (∃ m session, w.members.get? server = some m ∧
      session.Clear limit (m.outstanding.map Task.awaited).toList ∧
      session.sent = m.session.sent ∧ Replaced server { m with session } w w') ∨
    Lost server w w' := by
  unfold receive at h
  split at h
  · cases h
    exact .inl rfl
  · next m hm =>
    have hclear := (hw.member server m hm).session
    simp only [hclear.isLive, if_true] at h
    split at h
    · next event session hstep =>
      simp only [Prod.mk.injEq] at h
      obtain ⟨rfl, rfl⟩ := h
      obtain ⟨hclear', hsent, -⟩ := hclear.step hstep
      rw [Session.awaiting_of_step_none hstep, hclear.awaiting_eq] at hclear'
      exact .inr (.inl ⟨m, session, hm, hclear', hsent, replaced_insert ..⟩)
    · next e session hstep =>
      cases h
      exact .inr (.inr (.of_replaced hm (replaced_insert ..) (hclear.step_error hstep)
        (lost_dropSession ..)))

/-- What was read comes from a step of the session; the rest of the worker is as it was. -/
theorem Sound.receive_some (hw : Sound limit w) {event : Session.Event}
    (h : w.receive server = (some event, w')) :
    event.packet.payload.length ≤ limit.toNat ∧ ∃ m session, w.members.get? server = some m ∧
      m.session.step = (.ok (some event), session) ∧ session.Clear limit session.awaiting ∧
      session.sent = m.session.sent ∧ Replaced server { m with session } w w' := by
  unfold receive at h
  split at h
  · cases h
  · next m hm =>
    have hclear := (hw.member server m hm).session
    simp only [hclear.isLive, if_true] at h
    split at h
    · next event' session hstep =>
      simp only [Prod.mk.injEq] at h
      obtain ⟨rfl, rfl⟩ := h
      obtain ⟨hclear', hsent, hlength⟩ := hclear.step hstep
      exact ⟨hlength event rfl, m, session, hm, hstep, hclear', hsent, replaced_insert ..⟩
    · cases h

/-- A packet that answers no request leaves the member as it was. -/
theorem Sound.receive_unsolicited (hw : Sound limit w) {p : Packet}
    (h : w.receive server = (some (.unsolicited p), w')) :
    p.payload.length ≤ limit.toNat ∧ ∃ m session, w.members.get? server = some m ∧
      session.Clear limit (m.outstanding.map Task.awaited).toList ∧
      session.sent = m.session.sent ∧ Replaced server { m with session } w w' := by
  obtain ⟨hlength, m, session, hm, hstep, hclear, hsent, hreplaced⟩ := hw.receive_some h
  rw [Session.awaiting_of_step_unsolicited hstep,
    (hw.member server m hm).session.awaiting_eq] at hclear
  exact ⟨hlength, m, session, hm, hclear, hsent, hreplaced⟩

/-- An answer is the one to the outstanding request, and the session awaits nothing after it. -/
theorem Sound.receive_reply (hw : Sound limit w) {id : TaskId} {p : Packet}
    (h : w.receive server = (some (.reply id p), w')) :
    p.payload.length ≤ limit.toNat ∧ ∃ m task session, w.members.get? server = some m ∧
      m.outstanding = some task ∧ task.Open ∧ task.id = id ∧
      Session.isReply p task.awaited = true ∧ session.Clear limit [] ∧
      session.sent = m.session.sent ∧ Replaced server { m with session } w w' := by
  obtain ⟨hlength, m, session, hm, hstep, hclear, hsent, hreplaced⟩ := hw.receive_some h
  have hsound := hw.member server m hm
  obtain ⟨a, hawaiting, rfl, hreply⟩ := Session.awaiting_of_step_reply hstep
  rw [hsound.session.awaiting_eq] at hawaiting
  cases houtstanding : m.outstanding with
  | none => simp [houtstanding] at hawaiting
  | some task =>
    simp only [houtstanding, Option.map_some, Option.toList_some, List.cons.injEq] at hawaiting
    obtain ⟨rfl, hrest⟩ := hawaiting
    rw [← hrest] at hclear
    exact ⟨hlength, m, task, session, hm, houtstanding, hsound.task task houtstanding, rfl,
      hreply, hclear, hsent, houtstanding ▸ hreplaced⟩

end Gearman.Worker
