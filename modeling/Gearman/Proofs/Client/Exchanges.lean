import Gearman.Proofs.Client.Evolution
import Gearman.Proofs.Client.Ledger
import Gearman.Proofs.Client.Queues

/-!
The way of one exchange: it is begun, it waits at the end of its server's queue, it reads its reply, and it
is kept until the operation that has begun it fetches it. `reply_of_chain` goes back the way from its end:
an exchange that was answered has read its reply at some point of the history.
-/

namespace Gearman.Client

variable {c c' : Client} {server : Address} {id : TaskId} {pending done : PendingExchange}
  {x : Exchange} {p : Packet} {log : History}

/-- The exchange `id` is at the head of its server's queue, and its reply `p` is the next packet. -/
structure Reads (c : Client) (id : TaskId) (pending : PendingExchange) (x : Exchange) (p : Packet)
    (c' : Client) : Prop where
  held : c.tasks.get? id = some pending
  waiting : ∃ k, Waiting pending k x ∧ Session.isReply p ⟨id, k⟩ = true
  receive : c.receive pending.server = (.ok (some (.reply id p)), c')

/-- A reply is read by the exchange that waits for it, if that is still held. -/
theorem Sound.reads (h : Sound c) (hr : c.receive server = (.ok (some (.reply id p)), c'))
    (hpending : c.tasks.get? id = some pending) :
    pending.server = server ∧ ∃ x, Reads c id pending x p c' := by
  obtain ⟨a, hqueue, rfl, hreply⟩ := queue_of_reply hr
  have hmem : a ∈ c.queue server := hqueue ▸ List.mem_cons_self
  obtain ⟨rfl, x, hwaiting⟩ := h.queue_task server a hmem pending hpending
  exact ⟨rfl, x, hpending, ⟨a.kind, hwaiting, hreply⟩, hr⟩

theorem Reads.exchange (h : Reads c id pending x p c') : c'.exchange? id = some x := by
  obtain ⟨k, hwaiting, -⟩ := h.waiting
  obtain ⟨sessions, rfl⟩ := receive_keeps h.receive
  simp [exchange?, h.held, hwaiting.responder]

/-- An exchange that is kept for its operation has read its reply. -/
theorem Reads.kept (h : Reads c id pending x p c')
    (hdone : (c'.handleReply pending.server id p).2.tasks.get? id = some done) :
    pending.detached = false ∧ (x.respond p).1.isOk = true ∧ done = pending.replied (x.respond p).2 := by
  obtain ⟨sessions, rfl⟩ := receive_keeps h.receive
  obtain ⟨k, hwaiting, hreply⟩ := h.waiting
  rw [Session.isReply, Bool.and_eq_true] at hreply
  rw [task_handleReply_waiting _ (c := { c with sessions }) h.held hwaiting hreply.1] at hdone
  split at hdone
  · next hkept => exact ⟨hkept.2, hkept.1, (Option.some.inj hdone).symm⟩
  · contradiction

theorem Lost.forgets (h : Lost server c c') (hdone : c'.tasks.get? id = some done) :
    c.tasks.get? id = some done ∧ (Happening.forgotten server).forgets done.server = false := by
  obtain ⟨hold, hne⟩ := h.task hdone
  exact ⟨hold, by simpa [Happening.forgets] using Ne.symm hne⟩

/-- Servers drop the exchanges of a client, or hand them their replies, and do nothing else to them. -/
theorem task_drive (h : Sound c) (hstep : Drive c log c') (hdone : c'.tasks.get? id = some done) :
    (∀ e ∈ log, e.forgets done.server = false) ∧
      (c.tasks.get? id = some done ∨ ∃ old x p c₁, Reads c id old x p c₁ ∧
        log = [.packet old.server (.reply id p) (some x)] ∧
        c' = (c₁.handleReply old.server id p).2 ∧ old.detached = false ∧ (x.respond p).1.isOk = true ∧
        done = old.replied (x.respond p).2) := by
  cases hstep with
  | arrival a =>
    obtain ⟨sessions, heq⟩ := deliver_keeps c a
    rw [heq] at hdone
    exact ⟨by simp, .inl hdone⟩
  | idle hr =>
    obtain ⟨sessions, rfl⟩ := receive_keeps hr
    exact ⟨by simp, .inl hdone⟩
  | failed hr =>
    obtain ⟨hold, hkept⟩ := (lost_of_receive hr).forgets hdone
    exact ⟨by simpa using hkept, .inl hold⟩
  | @reply c₁ server other p hr =>
    refine ⟨by simp [Happening.forgets], ?_⟩
    by_cases hne : other = id
    · subst hne
      obtain ⟨old, hold, -⟩ := (handleReply_keeps c₁ server other p).2 other done hdone
      have hold' : c.tasks.get? other = some old := by
        obtain ⟨sessions, rfl⟩ := receive_keeps hr
        exact hold
      obtain ⟨rfl, x, hreads⟩ := h.reads hr hold'
      obtain ⟨hattended, hok, hkept⟩ := hreads.kept hdone
      exact .inr ⟨old, x, p, c₁, hreads, by rw [hreads.exchange], rfl, hattended, hok, hkept⟩
    · rw [tasks_handleReply_of_ne _ _ _ hne] at hdone
      obtain ⟨sessions, rfl⟩ := receive_keeps hr
      exact .inl hdone
  | report hr =>
    rw [(handleUpdate_keeps _ _ _).2] at hdone
    obtain ⟨sessions, rfl⟩ := receive_keeps hr
    exact ⟨by simp [Happening.forgets], .inl hdone⟩
  | @expelled c₁ server p hr hp =>
    obtain ⟨hold, hkept⟩ := (lost_discard c₁ server).forgets hdone
    obtain ⟨sessions, rfl⟩ := receive_keeps hr
    refine ⟨fun e he => ?_, .inl hold⟩
    rcases List.mem_cons.1 he with rfl | he
    · rfl
    · rw [List.mem_singleton.1 he, hkept]
  | deserted =>
    have hbare : Bare c.shutdownNow := h.shutdownNow.bare (state_shutdownNow c)
    rw [hbare.tasks] at hdone
    contradiction

/-- An exchange that waited when servers began to drive the client, and was answered when they were done,
has read its reply in between. Its server was never forgotten. -/
theorem reply_of_chain (h : Sound c) (hpending : c.tasks.get? id = some pending)
    (hresponder : pending.task.responder = some x) (hchain : Chain Drive c log c')
    (hdone : c'.tasks.get? id = some done) :
    (∀ e ∈ log, e.forgets pending.server = false) ∧
      (done = pending ∨ ∃ before p since c₁ c₂,
        log = before ++ .packet pending.server (.reply id p) (some x) :: since ∧
        Chain Drive c before c₁ ∧ Reads c₁ id pending x p c₂ ∧
        Chain Drive (c₂.handleReply pending.server id p).2 since c' ∧
        (x.respond p).1.isOk = true ∧ done = pending.replied (x.respond p).2) := by
  induction hchain generalizing done with
  | refl =>
    rw [hpending] at hdone
    exact ⟨by simp, .inl (Option.some.inj hdone).symm⟩
  | @tail c₃ c₄ log new hlog hstep ih =>
    have hsound : Sound c₃ := h.chain (hlog.mono .drive)
    obtain ⟨hkept, hold | ⟨old, x', p, c₁, hreads, rfl, rfl, -, hok, rfl⟩⟩ :=
      task_drive hsound hstep hdone
    · obtain ⟨hforgets, hdone'⟩ := ih hold
      have hserver : done.server = pending.server := by
        obtain rfl | ⟨_, _, _, _, _, _, -, -, -, -, rfl⟩ := hdone' <;> rfl
      rw [hserver] at hkept
      refine ⟨fun e he => (List.mem_append.1 he).elim (hforgets e) (hkept e), hdone'.imp_right ?_⟩
      rintro ⟨before, p, since, c₁, c₂, rfl, hbefore, hreads, hsince, hok, hdone⟩
      exact ⟨before, p, since ++ new, c₁, c₂, by simp, hbefore, hreads, hsince.tail hstep, hok, hdone⟩
    · obtain ⟨k, hwaiting, -⟩ := hreads.waiting
      obtain ⟨hforgets, rfl | ⟨_, _, _, _, _, -, -, -, -, -, rfl⟩⟩ := ih hreads.held
      · obtain rfl : x' = x := Option.some.inj (hwaiting.responder.symm.trans hresponder)
        refine ⟨fun e he => (List.mem_append.1 he).elim (hforgets e) (hkept e), .inr ?_⟩
        exact ⟨log, p, [], c₃, c₁, rfl, hlog, hreads, .refl _, hok, rfl⟩
      · -- An exchange that has read its reply waits no more.
        have := hwaiting.state
        simp [PendingExchange.replied] at this

/-- An exchange that ends well was begun, was answered, and was fetched then. -/
theorem exchange_eq_ok {env : Surroundings} {request : Packet} {awaited : String}
    {answer : Option Exchange} {rest : List Arrival}
    (h : c.exchange env server request x awaited = ⟨.ok answer, c', rest⟩) :
    ∃ id c₁ c₂, c.start env server request x = (.ok id, c₁) ∧
      (replyTo id server).run env.arrivals c₁ = ⟨some (.ok ()), c₂, rest⟩ ∧
      answer = c₂.exchange? id ∧ c' = { c₂ with tasks := c₂.tasks.erase id } := by
  unfold exchange at h
  split at h
  · simp at h
  · next id c₁ hstart =>
    split at h
    · next c₂ rest hrun =>
      cases h
      exact ⟨id, c₁, c₂, hstart, hrun, rfl, rfl⟩
    · simp at h
    · simp at h

theorem answered_of_replyTo (h : (replyTo id server).settled c = some (.ok (), c')) :
    c' = c ∧ ∃ done, c.tasks.get? id = some done ∧ done.task.state.isAnswered = true := by
  simp only [replyTo] at h
  split at h
  · simp at h
  · next done hdone =>
    split at h
    · next hanswered =>
      cases h
      exact ⟨rfl, done, hdone, hanswered⟩
    · contradiction

/-- The exchange that `c` is about to begin goes well: from `c` to `told` its request waits, in `heard` its
reply `p` is handled, and from there to `c'` its server has nothing to answer. -/
structure Turn (c : Client) (server : Address) (x : Exchange) (before : History) (p : Packet)
    (told heard : Client) (since : History) (c' : Client) : Prop where
  waited : Chain Step c before told
  reads : ∃ pending, pending.server = server ∧ Reads told c.issued pending x p heard
  kept : Chain Drive (heard.handleReply server c.issued p).2 since c'
  unasked : (heard.handleReply server c.issued p).2.queue server = []
  unforgotten : ∀ e ∈ before ++ since, e.forgets server = false
  readable : (x.respond p).1.isOk = true

theorem Turn.chain {before since : History} {told heard : Client}
    (h : Turn c server x before p told heard since c') :
    Chain Step c (before ++ .packet server (.reply c.issued p) (some x) :: since) c' := by
  obtain ⟨pending, rfl, hreads⟩ := h.reads
  have hreply := Chain.single (Step.drive (Drive.reply hreads.receive))
  rw [hreads.exchange] at hreply
  exact h.waited.trans (hreply.trans (h.kept.mono .drive))

theorem Turn.sound {before since : History} {told heard : Client}
    (h : Turn c server x before p told heard since c') (hsound : Sound c) :
    Sound (heard.handleReply server c.issued p).2 := by
  obtain ⟨pending, rfl, hreads⟩ := h.reads
  exact (hsound.chain h.waited).reply hreads.receive

/-- An exchange that ends well has its turn. -/
theorem turn_of_exchange (h : Sound c) {env : Surroundings} {request : Packet} {awaited : String}
    {answer : Option Exchange} {rest : List Arrival} (hx : x.fits request.kind = true)
    (hok : c.exchange env server request x awaited = ⟨.ok answer, c', rest⟩) :
    ∃ c₁ c₂ before p since told heard, c.start env server request x = (.ok c.issued, c₁) ∧
      replyHistory c.issued server env.arrivals c₁ =
        before ++ .packet server (.reply c.issued p) (some x) :: since ∧
      Turn c server x before p told heard since c₂ ∧ answer = some (x.respond p).2 ∧
      c' = { c₂ with tasks := c₂.tasks.erase c.issued } := by
  obtain ⟨id, c₁, c₂, hstart, hrun, hanswer, hc'⟩ := exchange_eq_ok hok
  obtain ⟨rfl, hstarted, hqueue, pending, hpending, rfl, hattended, hwaiting⟩ := start_ok hx hstart
  have hsound : Sound c₁ := h.chain hstarted
  obtain ⟨c₃, hchain, hend⟩ := Watch.chain_run (w := replyTo c.issued pending.server)
    (fun c => chain_pump c pending.server) env.arrivals c₁
  rw [hrun] at hend
  obtain ⟨r, hr, hsettled⟩ | ⟨⟨e, he⟩, -⟩ | ⟨hnone, -⟩ := hend
  · obtain rfl : Except.ok () = r := Option.some.inj hr
    obtain ⟨rfl, done, hdone, hanswered⟩ := answered_of_replyTo hsettled
    obtain ⟨hforgets, rfl | ⟨before, p, since, told, heard, hlog, hbefore, hreads, hsince, hok, rfl⟩⟩ :=
      reply_of_chain hsound hpending hwaiting.responder hchain hdone
    · rw [hwaiting.state] at hanswered
      contradiction
    · refine ⟨c₁, c₂, before, p, since, told, heard, hstart, hlog,
        ⟨?_, ⟨pending, rfl, hreads⟩, hsince, ?_, ?_, hok⟩, ?_, hc'⟩
      · simpa using hstarted.trans (hbefore.mono .drive)
      · have hsoundtold : Sound told := hsound.chain (hbefore.mono .drive)
        have hsuffix := queue_chain hbefore pending.server
        rw [hqueue] at hsuffix
        rw [queue, sessions_handleReply]
        exact queue_of_latest hsoundtold hsuffix hreads.receive
      · intro e he
        refine hforgets e (hlog ▸ ?_)
        simp only [List.mem_append, List.mem_cons] at he ⊢
        exact he.imp_right .inr
      · rw [hanswer, exchange?, hdone]
        rfl
  · cases he
  · cases hnone

end Gearman.Client
