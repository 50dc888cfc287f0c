import Gearman.Proofs.Client.Pool.Basic

/-!
What servers send leaves the pool sound: replies to the oldest request, and reports on jobs.
-/

namespace Gearman.Client

variable {c c' : Client} {server : Address}

theorem Sound.deliver (h : Sound c) (a : Arrival) : Sound (c.deliver a).1 := by
  unfold Client.deliver
  split
  · exact h
  · next s hs =>
    obtain ⟨haddress, hlive, hclosed, hawaiting⟩ := s.deliver_eq a
    exact h.insert_session hs haddress (hclosed.trans (h.session _ s hs).2) hawaiting
      (fun hs => hlive.trans hs) (Nat.le_refl _)

/-- A session stays sound through a step that takes nothing off its queue. -/
theorem Sound.insert_step (h : Sound c) {s s' : Session} {event : Option Session.Event}
    (hs : c.sessions.get? server = some s) (hstep : s.step = (.ok event, s'))
    (hawaiting : s'.awaiting = s.awaiting) :
    Sound { c with sessions := c.sessions.insert server s' } := by
  obtain ⟨-, hlive, haddress⟩ := Session.isLive_of_step hstep
  exact h.insert_session hs haddress (Session.isClosed_of_isLive hlive) hawaiting
    (fun _ => hlive) (Nat.le_refl _)

theorem Sound.receive_none (h : Sound c) (hr : c.receive server = (.ok none, c')) : Sound c' := by
  obtain rfl | ⟨s, s', hs, hstep, rfl⟩ := Client.receive_none hr
  · exact h
  · exact h.insert_step hs hstep (Session.awaiting_of_step_none hstep)

/-- A packet that is no reply comes from a live session. -/
theorem Sound.receive_unsolicited (h : Sound c) {p : Packet}
    (hr : c.receive server = (.ok (some (.unsolicited p)), c')) : Sound c' := by
  obtain ⟨s, s', hs, hstep, rfl⟩ := receive_some hr
  exact h.insert_step hs hstep (Session.awaiting_of_step_unsolicited hstep)

/-- A session whose oldest request was answered loses it, and the exchange is answered. -/
theorem Sound.answered (h : Sound c) {s s' : Session} {a : Awaited}
    {tasks : Table TaskId PendingExchange} (hs : c.sessions.get? server = some s)
    (haddress : s'.address = s.address) (hlive : s'.isLive = true)
    (hawaiting : s.awaiting = a :: s'.awaiting)
    (hother : ∀ id, id ≠ a.task → tasks.get? id = c.tasks.get? id)
    (hanswered : ∀ done, tasks.get? a.task = some done → done.task.state = .finished ∧
      done.detached = false ∧ ∃ pending, c.tasks.get? a.task = some pending) :
    Sound { c with sessions := c.sessions.insert server s', tasks } := by
  generalize hc' : ({ c with sessions := c.sessions.insert server s', tasks } : Client) = c'
  have hsessions : c'.sessions = c.sessions.insert server s' := by rw [← hc']
  have htasks : c'.tasks = tasks := by rw [← hc']
  have hqueue := queue_insert hsessions
  have hold : c.queue server = a :: s'.awaiting := (queue_of_get? hs).trans hawaiting
  have hnodup := h.queue_nodup server
  rw [hold, List.map_cons, List.nodup_cons] at hnodup
  have hmem : ∀ other b, b ∈ c'.queue other → b ∈ c.queue other := by
    intro other b hb
    rw [hqueue] at hb
    split at hb
    · next heq =>
      rw [← heq, hold]
      exact List.mem_cons_of_mem _ hb
    · exact hb
  -- The number of the answered request is in no queue any more, if anyone still asks for it.
  have hfresh : ∀ other b, b ∈ c'.queue other →
      (∃ pending, c.tasks.get? a.task = some pending) → b.task ≠ a.task := by
    rintro other b hb ⟨pending, hpending⟩ hid
    have hserver := (h.queue_task server a (hold ▸ List.mem_cons_self) pending hpending).1
    rw [← hid] at hpending
    rw [(h.queue_task other b (hmem other b hb) pending hpending).1] at hserver
    rw [hqueue, if_pos hserver.symm] at hb
    exact hnodup.1 (hid ▸ List.mem_map_of_mem hb)
  have hplace : s'.address = server := haddress.trans (h.session server s hs).1
  refine ⟨h.session_insert hsessions hplace (Session.isClosed_of_isLive hlive), ?_, ?_, ?_, ?_, ?_,
    fun job r hr => ?_, ?_, fun hstate => ?_⟩
  · intro other
    rw [hqueue]
    split
    · exact hnodup.2
    · exact h.queue_nodup other
  · intro other b hb
    rw [← hc']
    exact h.queue_issued other b (hmem other b hb)
  · intro other b hb pending hpending
    rw [htasks] at hpending
    by_cases hid : b.task = a.task
    · rw [hid] at hpending
      exact absurd hid (hfresh other b hb (hanswered pending hpending).2.2)
    · exact h.queue_task other b (hmem other b hb) pending ((hother _ hid).symm.trans hpending)
  · intro id pending hpending
    rw [htasks] at hpending
    rw [← hc']
    by_cases hid : id = a.task
    · rw [hid]
      exact h.queue_issued server a (hold ▸ List.mem_cons_self)
    · exact h.task_issued id pending ((hother _ hid).symm.trans hpending)
  · intro id pending hpending
    rw [htasks] at hpending
    by_cases hid : id = a.task
    · obtain ⟨hfinished, hattended, -⟩ := hanswered pending (hid ▸ hpending)
      exact .inl ⟨hfinished, hattended⟩
    · refine (h.task_queue id pending ((hother _ hid).symm.trans hpending)).imp_right ?_
      rintro ⟨b, hb, hbid⟩
      refine ⟨b, ?_, hbid⟩
      rw [hqueue]
      split
      · next heq =>
        rw [← heq, hold, List.mem_cons] at hb
        exact hb.resolve_left fun heq => hid (heq ▸ hbid.symm)
      · exact hb
  · rw [← hc'] at hr
    exact (h.job_live job r hr).insert hsessions fun _ => hlive
  · rw [← hc']
    exact h.update_known
  · rw [← hc'] at hstate
    exact absurd hstate (h.state_ne hs)

theorem Sound.track (h : Sound c) {job : JobHandle} {p : Packet} (hlive : c.IsLiveAt job.server) :
    Sound (c.track job p) where
  session := h.session
  queue_nodup := h.queue_nodup
  queue_issued := h.queue_issued
  queue_task := h.queue_task
  task_issued := h.task_issued
  task_queue := h.task_queue
  job_live job' r hr := by
    simp only [Client.track, note, Table.get?_insert] at hr
    split at hr
    · next heq => exact heq ▸ hlive
    · exact h.job_live job' r hr
  update_known u hu := by
    simp only [Client.track, note, List.mem_append, List.mem_singleton] at hu
    simp only [Client.track, note, Table.contains_insert]
    rcases hu with hu | rfl
    · exact (h.update_known u hu).imp_left .inr
    · exact .inl (.inl rfl)
  bare hstate := by
    obtain ⟨s, hs, -⟩ := hlive
    exact absurd hstate (h.state_ne hs)

/-- A reply leaves the client sound, whatever it is a reply to. -/
theorem Sound.reply (h : Sound c) {id : TaskId} {p : Packet}
    (hr : c.receive server = (.ok (some (.reply id p)), c')) :
    Sound (c'.handleReply server id p).2 := by
  obtain ⟨s, s', hs, hstep, rfl⟩ := receive_some hr
  obtain ⟨-, hlive, haddress⟩ := Session.isLive_of_step hstep
  obtain ⟨a, hawaiting, rfl, hreply⟩ := Session.awaiting_of_step_reply hstep
  cases hpending : c.tasks.get? a.task with
  | none =>
    rw [handleReply_none (c := { c with sessions := c.sessions.insert server s' }) hpending]
    refine h.answered hs haddress hlive hawaiting (fun _ _ => rfl) fun done hdone => ?_
    rw [hpending] at hdone
    contradiction
  | some pending =>
    have hmem : a ∈ c.queue server := by
      rw [queue_of_get? hs, hawaiting]
      exact List.mem_cons_self
    obtain ⟨-, x, hwaiting⟩ := h.queue_task server a hmem pending hpending
    have hresponse : p.isResponse = true := by
      simp only [Session.isReply, Bool.and_eq_true] at hreply
      exact hreply.1
    obtain ⟨tasks, hother, hanswered, heq⟩ := handleReply_eq server
      (c := { c with sessions := c.sessions.insert server s' }) hpending hwaiting hresponse
    have hsound : Sound { c with sessions := c.sessions.insert server s', tasks } := by
      refine h.answered hs haddress hlive hawaiting hother fun done hdone => ?_
      rcases hanswered with hnone | ⟨done', hdone', hfinished, hattended, -⟩
      · rw [hnone] at hdone
        contradiction
      · rw [hdone'] at hdone
        cases hdone
        exact ⟨hfinished, hattended, pending, hpending⟩
    rw [heq]
    split
    · exact hsound.track ⟨s', Table.get?_insert_self, hlive⟩
    · exact hsound

theorem Sound.handleUpdate (h : Sound c) (server : Address) (p : Packet) :
    Sound (c.handleUpdate server p).2 := by
  cases hr : c.jobs.get? (subject server p) with
  | none => rwa [handleUpdate_none hr]
  | some r =>
    have hlive := h.job_live _ r hr
    have hbare : c.state = .terminated → False := by
      obtain ⟨s, hs, -⟩ := hlive
      exact h.state_ne hs
    cases hfinal : p.kind.isFinal with
    | true =>
      rw [handleUpdate_final hr hfinal]
      refine ⟨h.session, h.queue_nodup, h.queue_issued, h.queue_task, h.task_issued, h.task_queue,
        ?_, ?_, fun hstate => (hbare hstate).elim⟩
      · intro job r' hr'
        dsimp only at hr'
        rw [Table.get?_erase] at hr'
        split at hr'
        · contradiction
        · exact h.job_live job r' hr'
      · intro u hu
        simp only [List.mem_append, List.mem_singleton] at hu
        rw [Table.contains_erase, Table.contains_insert]
        by_cases hu' : subject server p = u.job
        · exact .inr (.inl hu')
        · rcases hu with hu | rfl
          · exact (h.update_known u hu).imp (⟨hu', ·⟩) .inr
          · exact absurd rfl hu'
    | false =>
      rw [handleUpdate_open hr hfinal]
      refine ⟨h.session, h.queue_nodup, h.queue_issued, h.queue_task, h.task_issued, h.task_queue,
        ?_, ?_, fun hstate => (hbare hstate).elim⟩
      · intro job r' hr'
        dsimp only at hr'
        rw [Table.get?_insert] at hr'
        split at hr'
        · next heq => exact heq ▸ hlive
        · exact h.job_live job r' hr'
      · intro u hu
        have hu : u ∈ c.updates ∨ u.job = subject server p := by
          simp only [List.mem_append] at hu
          refine hu.imp_right fun hnew => ?_
          split at hnew
          · rw [List.mem_singleton.1 hnew]
          · simp at hnew
        rw [Table.contains_insert]
        rcases hu with hu | hu
        · exact (h.update_known u hu).imp_left .inr
        · exact .inl (.inl hu.symm)

end Gearman.Client
