import Gearman.Proofs.Client.Effects

/-!
The invariant of the session pool.

`Sound` holds after every step, also in the middle of an operation. In between operations no exchange
is waited for, so that every exchange that is held is one that was given up and still awaits its reply.
-/

namespace Gearman.Client

variable {c c' : Client} {server : Address} {s : Session}

/-- The requests that a server still has to answer, oldest first. -/
def queue (c : Client) (server : Address) : List Awaited :=
  (c.sessions.get? server).elim [] (·.awaiting)

def IsLiveAt (c : Client) (server : Address) : Prop :=
  ∃ s, c.sessions.get? server = some s ∧ s.isLive = true

/-- What holds of a client after every step. -/
structure Sound (c : Client) : Prop where
  session : ∀ server s, c.sessions.get? server = some s → s.address = server ∧ s.isClosed = false
  queue_nodup : ∀ server, ((c.queue server).map (·.task)).Nodup
  queue_issued : ∀ server, ∀ a ∈ c.queue server, a.task < c.issued
  queue_task : ∀ server, ∀ a ∈ c.queue server, ∀ pending, c.tasks.get? a.task = some pending →
    pending.server = server ∧ ∃ x, Waiting pending a.kind x
  task_issued : ∀ id pending, c.tasks.get? id = some pending → id < c.issued
  task_queue : ∀ id pending, c.tasks.get? id = some pending →
    pending.task.state = .finished ∧ pending.detached = false ∨
      ∃ a ∈ c.queue pending.server, a.task = id
  job_live : ∀ job r, c.jobs.get? job = some r → c.IsLiveAt job.server
  update_known : ∀ u ∈ c.updates,
    c.jobs.contains u.job = true ∨ c.finished.contains u.job = true
  bare : c.state = .terminated → Bare c

theorem sound_withSettings (settings : ClientSettings) : Sound (withSettings settings) where
  session := by simp [withSettings]
  queue_nodup := by simp [withSettings, queue]
  queue_issued := by simp [withSettings, queue]
  queue_task := by simp [withSettings, queue]
  task_issued := by simp [withSettings]
  task_queue := by simp [withSettings]
  job_live := by simp [withSettings]
  update_known := by simp [withSettings]
  bare := by simp [withSettings]

theorem queue_of_get? (hs : c.sessions.get? server = some s) :
    c.queue server = s.awaiting := by
  simp [queue, hs]

/-- A server that has something to answer has a live session. -/
theorem isLiveAt_of_mem_queue {a : Awaited} (h : a ∈ c.queue server) : c.IsLiveAt server := by
  unfold queue at h
  cases hs : c.sessions.get? server with
  | none => simp [hs] at h
  | some s =>
    refine ⟨s, hs, ?_⟩
    cases hlive : s.isLive with
    | true => rfl
    | false => simp [hs, Session.awaiting_eq_nil hlive] at h

theorem Sound.state_ne (h : Sound c) (hs : c.sessions.get? server = some s) :
    c.state ≠ .terminated := by
  intro hstate
  rw [(h.bare hstate).sessions] at hs
  simp at hs

/-- A session that is put in the place of its server changes the queue of that server alone. -/
theorem queue_insert (h : c'.sessions = c.sessions.insert server s) (other : Address) :
    c'.queue other = if server = other then s.awaiting else c.queue other := by
  simp only [queue, h, Table.get?_insert]
  split <;> rfl

theorem IsLiveAt.insert (h : c'.sessions = c.sessions.insert server s)
    (hlive : c.IsLiveAt server → s.isLive = true) {other : Address} (hother : c.IsLiveAt other) :
    c'.IsLiveAt other := by
  by_cases heq : server = other
  · subst heq
    exact ⟨s, by rw [h, Table.get?_insert_self], hlive hother⟩
  · obtain ⟨t, ht, hlivet⟩ := hother
    exact ⟨t, by rw [h, Table.get?_insert_of_ne heq, ht], hlivet⟩

/-- An open session may take the place of its server. -/
theorem Sound.session_insert (h : Sound c) (hsessions : c'.sessions = c.sessions.insert server s)
    (haddress : s.address = server) (hopen : s.isClosed = false) (other : Address) (t : Session)
    (ht : c'.sessions.get? other = some t) : t.address = other ∧ t.isClosed = false := by
  rw [hsessions, Table.get?_insert] at ht
  split at ht
  · next heq =>
    cases ht
    exact ⟨haddress.trans heq, hopen⟩
  · exact h.session other t ht

/-- A client with the same queues, and at least the same live sessions, is as sound. -/
theorem Sound.transfer (h : Sound c)
    (hsession : ∀ server s, c'.sessions.get? server = some s →
      s.address = server ∧ s.isClosed = false)
    (hqueue : ∀ server, c'.queue server = c.queue server)
    (hlive : ∀ server, c.IsLiveAt server → c'.IsLiveAt server) (htasks : c'.tasks = c.tasks)
    (hjobs : c'.jobs = c.jobs) (hfinished : c'.finished = c.finished)
    (hupdates : c'.updates = c.updates) (hissued : c.issued ≤ c'.issued)
    (hbare : c'.state = .terminated → Bare c') : Sound c' where
  session := hsession
  queue_nodup server := by
    rw [hqueue]
    exact h.queue_nodup server
  queue_issued server a ha := by
    rw [hqueue] at ha
    exact Nat.lt_of_lt_of_le (h.queue_issued server a ha) hissued
  queue_task server a ha := by
    rw [hqueue] at ha
    rw [htasks]
    exact h.queue_task server a ha
  task_issued id pending hpending := by
    rw [htasks] at hpending
    exact Nat.lt_of_lt_of_le (h.task_issued id pending hpending) hissued
  task_queue id pending hpending := by
    rw [htasks] at hpending
    rw [hqueue]
    exact h.task_queue id pending hpending
  job_live job r hr := by
    rw [hjobs] at hr
    exact hlive _ (h.job_live job r hr)
  update_known := by
    rw [hjobs, hfinished, hupdates]
    exact h.update_known
  bare := hbare

/-- A session may change as long as it stays open and awaits what it awaited. -/
theorem Sound.insert_session (h : Sound c) {s' : Session} {issued : Nat}
    (hs : c.sessions.get? server = some s) (haddress : s'.address = s.address)
    (hopen : s'.isClosed = false) (hawaiting : s'.awaiting = s.awaiting)
    (hlive : s.isLive = true → s'.isLive = true) (hissued : c.issued ≤ issued) :
    Sound { c with sessions := c.sessions.insert server s', issued } := by
  have hplace : s'.address = server := haddress.trans (h.session server s hs).1
  refine h.transfer (h.session_insert rfl hplace hopen) (fun other => ?_) (fun other => ?_)
    rfl rfl rfl rfl hissued fun hstate => absurd hstate (h.state_ne hs)
  · rw [queue_insert rfl]
    split
    · next heq => rw [← heq, queue_of_get? hs, hawaiting]
    · rfl
  · refine IsLiveAt.insert rfl ?_
    rintro ⟨t, ht, hlivet⟩
    rw [hs] at ht
    cases ht
    exact hlive hlivet

theorem Sound.of_bare (hbare : Bare c) : Sound c := by
  have hqueue : ∀ server, c.queue server = [] := by simp [queue, hbare.sessions]
  exact ⟨by simp [hbare.sessions], by simp [hqueue], by simp [hqueue], by simp [hqueue],
    by simp [hbare.tasks], by simp [hbare.tasks], by simp [hbare.jobs], by simp [hbare.updates],
    fun _ => hbare⟩

theorem Sound.shutdownNow (h : Sound c) : Sound c.shutdownNow := by
  by_cases hstate : c.state = .terminated
  · rwa [shutdownNow_terminated hstate]
  · exact .of_bare (bare_shutdownNow hstate)

end Gearman.Client
