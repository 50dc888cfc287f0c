import Gearman.Proofs.Client.History

/-!
What the parts of a step change.
-/

namespace Gearman

theorem Exchange.isAnswered_of_fits {x : Exchange} {k : Kind} (h : x.fits k = true) :
    k.isAnswered = true := by
  cases x with
  | submission background handle =>
    simp only [fits, Bool.and_eq_true] at h
    simp [Kind.isAnswered, h.1]
  | status answer =>
    obtain rfl : k = .getStatus := by simpa [fits] using h
    rfl
  | echo data =>
    obtain rfl : k = .echoReq := by simpa [fits] using h
    rfl

/-- Every submission can read its reply. -/
theorem Exchange.isAttached_of_respond_error {x x' : Exchange} {p : Packet} {e : Error}
    (h : x.respond p = (.error e, x')) : x.isAttached = false := by
  cases x with
  | submission background handle => cases h
  | status answer => rfl
  | echo data => rfl

/-- The exchange once its reply was read. -/
def PendingExchange.replied (pending : PendingExchange) (x : Exchange) : PendingExchange :=
  { pending with task := { pending.task with responder := some x, state := .finished } }

/-- A final report can always be read. -/
theorem JobResult.apply_final (r : JobResult) {p : Packet} (h : p.kind.isFinal = true) :
    (r.apply p).1 = .ok true := by
  obtain ⟨magic, kind, payload⟩ := p
  cases kind <;> simp_all [Kind.isFinal, apply]

namespace Client

variable {c c' : Client} {server : Address}

/-- What arrives changes the sessions alone, and so does a session that is added or opened. -/
theorem deliver_keeps (c : Client) (a : Arrival) :
    ∃ sessions, (c.deliver a).1 = { c with sessions } := by
  unfold deliver
  split <;> exact ⟨_, rfl⟩

theorem addServer_keeps (c : Client) (server : Address) :
    ∃ sessions, (c.addServer server).2 = { c with sessions } := by
  unfold addServer
  repeat' split
  all_goals exact ⟨_, rfl⟩

theorem session_keeps (c : Client) (env : Surroundings) (server : Address) :
    ∃ sessions, (c.session env server).2 = { c with sessions } := by
  unfold session
  repeat' split
  all_goals exact ⟨_, rfl⟩

/-- A session that can be used is in the pool. -/
theorem session_ok {env : Surroundings} {server : Address} {s : Session}
    (h : c.session env server = (.ok s, c')) :
    c'.sessions.get? server = some s ∧ c'.issued = c.issued := by
  unfold session at h
  split at h
  · simp at h
  · next s₀ hs =>
    split at h
    · cases h
      exact ⟨hs, rfl⟩
    · split at h
      · cases h
        exact ⟨Table.get?_insert_self, rfl⟩
      · simp at h

/-- A read without a fault changes the sessions alone. -/
theorem receive_keeps {event : Option Session.Event} (h : c.receive server = (.ok event, c')) :
    ∃ sessions, c' = { c with sessions } := by
  cases event with
  | none =>
    obtain rfl | ⟨s, s', -, -, rfl⟩ := receive_none h
    · exact ⟨_, rfl⟩
    · exact ⟨_, rfl⟩
  | some event =>
    obtain ⟨s, s', -, -, rfl⟩ := receive_some h
    exact ⟨_, rfl⟩

/-- `c'` is `c` without all that hung on the session of `server`. -/
structure Lost (server : Address) (c c' : Client) : Prop where
  session_of_ne : ∀ other, other ≠ server → c'.sessions.get? other = c.sessions.get? other
  session : c'.sessions.get? server = none ∨ (∃ s, c.sessions.get? server = some s) ∧
    ∃ settings, c'.sessions.get? server = some { address := server, settings }
  tasks : c'.tasks = c.tasks.filter fun _ pending => pending.server ≠ server
  jobs : c'.jobs = c.jobs.filter fun job _ => job.server ≠ server
  finished : c'.finished = c.finished
  updates : c'.updates = c.updates.filter fun u => u.job.server ≠ server
  state : c'.state = c.state
  issued_le : c.issued ≤ c'.issued

theorem retire_eq (c : Client) (s : Session) : ∃ retired, c.retire s = { c with retired } := by
  unfold retire
  split
  · exact ⟨_, rfl⟩
  · exact ⟨c.retired, rfl⟩

theorem lost_discard (c : Client) (server : Address) : Lost server c (c.discard server) := by
  unfold discard
  cases hs : c.sessions.get? server with
  | none =>
    exact ⟨fun other hne => Table.get?_erase_of_ne (Ne.symm hne), .inl Table.get?_erase_self, rfl,
      rfl, rfl, rfl, rfl, Nat.le_refl _⟩
  | some s =>
    obtain ⟨retired, hretire⟩ := retire_eq c s
    simp only [Option.elim_some, hretire]
    exact ⟨fun other hne => Table.get?_erase_of_ne (Ne.symm hne), .inl Table.get?_erase_self, rfl,
      rfl, rfl, rfl, rfl, Nat.le_refl _⟩

theorem lost_resetSession {s : Session} (hs : c.sessions.get? server = some s) :
    Lost server c (c.resetSession server) := by
  obtain ⟨retired, hretire⟩ := retire_eq c s
  unfold resetSession
  simp only [hs, hretire]
  exact ⟨fun other hne => Table.get?_insert_of_ne (Ne.symm hne), .inr ⟨⟨s, hs⟩, _, Table.get?_insert_self⟩,
    rfl, rfl, rfl, rfl, rfl, Nat.le_refl _⟩

/-- What became of the session before it was lost makes no difference. -/
theorem Lost.of_insert {s s' : Session} {issued : Nat} (hs : c.sessions.get? server = some s)
    (hissued : c.issued ≤ issued)
    (h : Lost server { c with sessions := c.sessions.insert server s', issued } c') :
    Lost server c c' where
  session_of_ne other hne := by
    rw [h.session_of_ne other hne, Table.get?_insert_of_ne (Ne.symm hne)]
  session := h.session.imp_right fun ⟨_, hfresh⟩ => ⟨⟨s, hs⟩, hfresh⟩
  tasks := h.tasks
  jobs := h.jobs
  finished := h.finished
  updates := h.updates
  state := h.state
  issued_le := Nat.le_trans hissued h.issued_le

theorem lost_of_receive {e : Error} (h : c.receive server = (.error e, c')) :
    Lost server c c' := by
  obtain ⟨s, s', hs, -, rfl⟩ := receive_error h
  exact .of_insert hs (Nat.le_refl _) (lost_resetSession Table.get?_insert_self)

/-- A client that has ended holds nothing. -/
structure Bare (c : Client) : Prop where
  sessions : c.sessions = ∅
  tasks : c.tasks = ∅
  jobs : c.jobs = ∅
  finished : c.finished = ∅
  updates : c.updates = []

theorem shutdownNow_terminated (h : c.state = .terminated) : c.shutdownNow = c := by
  simp [shutdownNow, isTerminated, h]

theorem bare_shutdownNow (h : c.state ≠ .terminated) : Bare c.shutdownNow := by
  simp only [shutdownNow, isTerminated, h, decide_false, Bool.false_eq_true, if_false]
  exact ⟨rfl, rfl, rfl, rfl, rfl⟩

theorem state_shutdownNow (c : Client) : c.shutdownNow.state = .terminated := by
  by_cases h : c.state = .terminated
  · rw [shutdownNow_terminated h, h]
  · simp [shutdownNow, isTerminated, h]

theorem new_ok {id : TaskId} {request : Packet} {x : Exchange} {task : Task Exchange}
    (h : Task.new id request (some x) = .ok task) :
    task.id = id ∧ task.request = request ∧ task.responder = some x ∧ task.state = .fresh := by
  unfold Task.new at h
  split at h
  · cases h
    exact ⟨rfl, rfl, rfl, rfl⟩
  · contradiction

/-- A task that was asked is held from then on, and its session awaits the reply. -/
theorem ask_ok {s : Session} {task : Task Exchange} {id : TaskId}
    (h : c.ask server s task = (.ok id, c')) (hfresh : task.state = .fresh) :
    id = task.id ∧ ∃ s', s'.isLive = true ∧ s'.address = s.address ∧
      s'.awaiting = s.awaiting ++ Session.awaitedOf task ∧
      c' = { c with
        issued := c.issued + 1
        sessions := c.sessions.insert server s'
        tasks := c.tasks.insert task.id
          { task := { task with state := task.sentState }, server } } := by
  unfold ask at h
  dsimp only at h
  split at h
  · next s' task' hsubmit =>
    cases h
    obtain ⟨-, -, -, hlive, haddress, hawaiting, rfl, -⟩ := Session.submit_ok hsubmit hfresh
    exact ⟨rfl, s', hlive, haddress, hawaiting, rfl⟩
  · simp at h

/-- `pending` waits for the reply to a request of kind `k`. -/
structure Waiting (pending : PendingExchange) (k : Kind) (x : Exchange) : Prop where
  state : pending.task.state = .submitted
  responder : pending.task.responder = some x
  fits : x.fits k = true

/-- An exchange that was begun waits for its reply, and the request is the latest one of its server. -/
theorem ask_waiting {s : Session} {request : Packet} {x : Exchange} {task : Task Exchange}
    {id : TaskId} (hx : x.fits request.kind = true)
    (htask : Task.new c.issued request (some x) = .ok task) (h : c.ask server s task = (.ok id, c')) :
    id = c.issued ∧ ∃ s' pending, s'.isLive = true ∧ s'.address = s.address ∧
      s'.awaiting = s.awaiting ++ [⟨c.issued, request.kind⟩] ∧
      pending.server = server ∧ pending.detached = false ∧ Waiting pending request.kind x ∧
      c' = { c with
        issued := c.issued + 1
        sessions := c.sessions.insert server s'
        tasks := c.tasks.insert c.issued pending } := by
  obtain ⟨hid, hrequest, hresponder, hfresh⟩ := new_ok htask
  obtain ⟨hself, s', hlive, haddress, hawaiting, hc'⟩ := ask_ok h hfresh
  have hanswered : task.request.kind.isAnswered = true :=
    hrequest ▸ Exchange.isAnswered_of_fits hx
  have hawaited : Session.awaitedOf task = [⟨c.issued, request.kind⟩] := by
    simp [Session.awaitedOf, ← hrequest, hanswered, hid]
  have hsent : task.sentState = .submitted := by simp [Task.sentState, hanswered]
  rw [hawaited] at hawaiting
  rw [hid] at hc'
  exact ⟨hself.trans hid, s', _, hlive, haddress, hawaiting, rfl, rfl, ⟨hsent, hresponder, hx⟩, hc'⟩

theorem ask_refused {s : Session} {task : Task Exchange} {e : Error}
    (h : c.ask server s task = (.error e, c')) (hfresh : task.state = .fresh)
    (he : e.isTooLarge = true) :
    c' = { c with issued := c.issued + 1, sessions := c.sessions.insert server s } := by
  unfold ask at h
  dsimp only at h
  split at h
  · simp at h
  · next e' s' task' hsubmit =>
    simp only [Prod.mk.injEq, Except.error.injEq] at h
    obtain ⟨rfl, rfl⟩ := h
    rw [Session.submit_tooLarge hsubmit hfresh he, if_pos he]

theorem ask_severed {s : Session} {task : Task Exchange} {e : Error}
    (hs : c.sessions.get? server = some s) (h : c.ask server s task = (.error e, c'))
    (he : e.isTooLarge = false) : Lost server c c' := by
  unfold ask at h
  dsimp only at h
  split at h
  · simp at h
  · next e' s' task' hsubmit =>
    simp only [Prod.mk.injEq, Except.error.injEq] at h
    obtain ⟨rfl, rfl⟩ := h
    rw [if_neg (by simp [he])]
    exact .of_insert hs (Nat.le_succ _) (lost_resetSession Table.get?_insert_self)

/-- What becomes of an exchange that was answered: it is dropped, or it is kept for the operation that
waits for it. -/
def Answered (id : TaskId) (pending : PendingExchange) (tasks : Table TaskId PendingExchange) :
    Prop :=
  tasks.get? id = none ∨ ∃ done, tasks.get? id = some done ∧ done.task.state = .finished ∧
    done.detached = false ∧ pending.detached = false

/-- An exchange that waits reads its reply, and one that cannot read it is dropped. The job of an
attached submission is tracked from then on. -/
theorem handleReply_waiting (server : Address) {id : TaskId} {p : Packet} {pending : PendingExchange}
    {k : Kind} {x : Exchange} (hpending : c.tasks.get? id = some pending)
    (hwaiting : Waiting pending k x) (hp : p.isResponse = true) :
    c.handleReply server id p =
      match x.respond p with
      | (.error e, _) =>
        (.error (.responderFailed pending.task.name e), { c with tasks := c.tasks.erase id })
      | (.ok _, x') =>
        (.ok (), (if x.isAttached then c.track ⟨p.payload, server⟩ p else c).settle id
          (pending.replied x')) := by
  have hdeliver : pending.task.deliver p = pending.task.respond p := by
    simp [Task.deliver, hwaiting.state, hp]
  simp only [handleReply, hpending, hdeliver, Task.respond, hwaiting.responder, Responder.respond]
  cases x with
  | submission background handle => cases background <;> rfl
  | status answer =>
    simp only [Exchange.respond]
    cases JobStatus.ofPacket p with
    | ok found => rfl
    | error e => rfl
  | echo data => rfl

theorem settle_eq (c : Client) (id : TaskId) (done : PendingExchange) :
    ∃ tasks, (∀ id', id' ≠ id → tasks.get? id' = c.tasks.get? id') ∧
      tasks.get? id = (if done.detached then none else some done) ∧
      c.settle id done = { c with tasks } := by
  unfold settle
  split
  · exact ⟨_, fun id' hne => Table.get?_erase_of_ne (Ne.symm hne), Table.get?_erase_self, rfl⟩
  · exact ⟨_, fun id' hne => Table.get?_insert_of_ne (Ne.symm hne), Table.get?_insert_self, rfl⟩

theorem tasks_settle_of_ne (c : Client) {id other : TaskId} (done : PendingExchange)
    (hne : other ≠ id) : (c.settle other done).tasks.get? id = c.tasks.get? id := by
  obtain ⟨tasks, hother, -, heq⟩ := c.settle_eq other done
  rw [heq]
  exact hother id (Ne.symm hne)

/-- A reply concerns the exchange that it belongs to, and starts to track the job of an attached
submission. -/
theorem handleReply_eq (server : Address) {id : TaskId} {p : Packet} {pending : PendingExchange} {k : Kind}
    {x : Exchange} (hpending : c.tasks.get? id = some pending) (hwaiting : Waiting pending k x)
    (hp : p.isResponse = true) :
    ∃ tasks, (∀ id', id' ≠ id → tasks.get? id' = c.tasks.get? id') ∧ Answered id pending tasks ∧
      (c.handleReply server id p).2 =
        if x.isAttached then { c with tasks }.track ⟨p.payload, server⟩ p else { c with tasks } := by
  rw [handleReply_waiting server hpending hwaiting hp]
  split
  · next hrespond =>
    rw [Exchange.isAttached_of_respond_error hrespond]
    exact ⟨_, fun id' hne => Table.get?_erase_of_ne (Ne.symm hne), .inl Table.get?_erase_self, rfl⟩
  · next x' hrespond =>
    obtain ⟨tasks, hother, hself, heq⟩ :=
      (if x.isAttached then c.track ⟨p.payload, server⟩ p else c).settle_eq id (pending.replied x')
    refine ⟨tasks, fun id' hne => ?_, ?_, ?_⟩
    · rw [hother id' hne]
      split <;> rfl
    · cases hdetached : pending.detached with
      | true => exact .inl (by simp [hself, PendingExchange.replied, hdetached])
      | false =>
        exact .inr ⟨pending.replied x', by simp [hself, PendingExchange.replied, hdetached], rfl,
          hdetached, hdetached⟩
    · rw [heq]
      split <;> rfl

/-- An exchange that waited is kept with the reply that it has read, unless nobody waits for it. -/
theorem task_handleReply_waiting (server : Address) {id : TaskId} {p : Packet}
    {pending : PendingExchange} {k : Kind} {x : Exchange} (hpending : c.tasks.get? id = some pending)
    (hwaiting : Waiting pending k x) (hp : p.isResponse = true) :
    (c.handleReply server id p).2.tasks.get? id =
      if (x.respond p).1.isOk = true ∧ pending.detached = false then
        some (pending.replied (x.respond p).2)
      else none := by
  rw [handleReply_waiting server hpending hwaiting hp]
  cases hrespond : x.respond p with
  | mk answer x' =>
    cases answer with
    | error e => simp [Except.isOk, Except.toBool]
    | ok last =>
      obtain ⟨tasks, -, hself, heq⟩ :=
        (if x.isAttached then c.track ⟨p.payload, server⟩ p else c).settle_eq id (pending.replied x')
      dsimp only
      rw [heq, hself]
      cases hdetached : pending.detached <;>
        simp [PendingExchange.replied, hdetached, Except.isOk, Except.toBool]

theorem handleReply_none {id : TaskId} {p : Packet} (h : c.tasks.get? id = none) :
    (c.handleReply server id p).2 = c := by
  simp [handleReply, h]

/-- The job that a report from a server names. -/
def subject (server : Address) (p : Packet) : JobHandle := ⟨p.handleAndRest.1, server⟩

theorem handleUpdate_none {p : Packet} (h : c.jobs.get? (subject server p) = none) :
    (c.handleUpdate server p).2 = c := by
  unfold subject at h
  simp [handleUpdate, h]

/-- A final report moves its job to the finished ones. -/
theorem handleUpdate_final {p : Packet} {r : JobResult}
    (h : c.jobs.get? (subject server p) = some r) (hfinal : p.kind.isFinal = true) :
    (c.handleUpdate server p).2 = { c with
      jobs := c.jobs.erase (subject server p)
      finished := c.finished.insert (subject server p) (r.apply p).2
      updates := c.updates ++ [⟨subject server p, p⟩] } := by
  have happly := r.apply_final hfinal
  unfold subject at h ⊢
  simp only [handleUpdate, h]
  cases hresult : r.apply p with
  | mk outcome r' =>
    obtain rfl : outcome = .ok true := by simpa [hresult] using happly
    rfl

/-- Any other report changes the result of its job, and is no news if it cannot be read. -/
theorem handleUpdate_open {p : Packet} {r : JobResult}
    (h : c.jobs.get? (subject server p) = some r) (hopen : p.kind.isFinal = false) :
    (c.handleUpdate server p).2 = { c with
      jobs := c.jobs.insert (subject server p) (r.apply p).2
      updates := c.updates ++ if (r.apply p).1.isOk then [⟨subject server p, p⟩] else [] } := by
  unfold subject at h ⊢
  simp only [handleUpdate, h]
  cases hresult : r.apply p with
  | mk outcome r' =>
    cases outcome with
    | error e => simp [Except.isOk, Except.toBool]
    | ok last =>
      obtain rfl : last = false := by rw [JobResult.isFinal_of_apply hresult, hopen]
      rfl

/-- A reply changes exchanges, tracked jobs and updates, and nothing else. -/
theorem handleReply_frame (c : Client) (server : Address) (id : TaskId) (p : Packet) :
    ∃ tasks jobs updates, (c.handleReply server id p).2 = { c with tasks, jobs, updates } := by
  unfold handleReply
  repeat' split
  all_goals
    dsimp only [settle, track, note]
    repeat' split
    all_goals exact ⟨_, _, _, rfl⟩

theorem sessions_handleReply (c : Client) (server : Address) (id : TaskId) (p : Packet) :
    (c.handleReply server id p).2.sessions = c.sessions := by
  obtain ⟨tasks, jobs, updates, heq⟩ := handleReply_frame c server id p
  rw [heq]

/-- A reply leaves all exchanges alone but the one that it belongs to. -/
theorem tasks_handleReply_of_ne (c : Client) (server : Address) {id other : TaskId} (p : Packet)
    (hne : other ≠ id) :
    (c.handleReply server other p).2.tasks.get? id = c.tasks.get? id := by
  unfold handleReply
  split
  · rfl
  · next pending hpending =>
    split
    · exact Table.get?_erase_of_ne hne
    · next task hdeliver =>
      rw [tasks_settle_of_ne _ _ hne]
      split <;> rfl
    · exact Table.get?_insert_of_ne hne

theorem handleReply_keeps (c : Client) (server : Address) (id : TaskId) (p : Packet) :
    (c.handleReply server id p).2.state = c.state ∧
      ∀ id' pending, (c.handleReply server id p).2.tasks.get? id' = some pending →
        ∃ old, c.tasks.get? id' = some old ∧ pending.detached = old.detached := by
  have hinsert : ∀ old new : PendingExchange, c.tasks.get? id = some old →
      new.detached = old.detached → ∀ id' pending,
        (c.tasks.insert id new).get? id' = some pending →
          ∃ old, c.tasks.get? id' = some old ∧ pending.detached = old.detached := by
    intro old new hold hnew id' pending hpending
    rw [Table.get?_insert] at hpending
    split at hpending
    · next heq =>
      cases hpending
      exact ⟨old, heq ▸ hold, hnew⟩
    · exact ⟨pending, hpending, rfl⟩
  have herase : ∀ id' pending, (c.tasks.erase id).get? id' = some pending →
      ∃ old, c.tasks.get? id' = some old ∧ pending.detached = old.detached := by
    intro id' pending hpending
    rw [Table.get?_erase] at hpending
    split at hpending
    · contradiction
    · exact ⟨pending, hpending, rfl⟩
  unfold handleReply
  split
  · exact ⟨rfl, fun id' pending h => ⟨pending, h, rfl⟩⟩
  · next old hold =>
    split
    · exact ⟨rfl, herase⟩
    · next task hdeliver =>
      dsimp only [settle]
      split <;> split
      · exact ⟨rfl, herase⟩
      · exact ⟨rfl, herase⟩
      · exact ⟨rfl, hinsert old _ hold rfl⟩
      · exact ⟨rfl, hinsert old _ hold rfl⟩
    · exact ⟨rfl, hinsert old _ hold rfl⟩

/-- A report changes jobs and updates, and nothing else. -/
theorem handleUpdate_frame (c : Client) (server : Address) (p : Packet) :
    ∃ jobs finished updates, (c.handleUpdate server p).2 = { c with jobs, finished, updates } := by
  unfold handleUpdate
  dsimp only [note]
  repeat' split
  all_goals exact ⟨_, _, _, rfl⟩

theorem handleUpdate_keeps (c : Client) (server : Address) (p : Packet) :
    (c.handleUpdate server p).2.state = c.state ∧
      (c.handleUpdate server p).2.tasks = c.tasks := by
  obtain ⟨jobs, finished, updates, heq⟩ := handleUpdate_frame c server p
  rw [heq]
  exact ⟨rfl, rfl⟩

theorem sessions_handleUpdate (c : Client) (server : Address) (p : Packet) :
    (c.handleUpdate server p).2.sessions = c.sessions := by
  obtain ⟨jobs, finished, updates, heq⟩ := handleUpdate_frame c server p
  rw [heq]

end Client

end Gearman
