import Gearman.Proofs.Client.Pool.Basic

/-!
Losing the session of a server leaves the pool sound: all that hung on the session goes with it.
-/

namespace Gearman.Client

variable {c c' : Client} {server : Address}

theorem Lost.queue_of_ne (h : Lost server c c') {other : Address} (hne : other ≠ server) :
    c'.queue other = c.queue other := by
  simp only [queue, h.session_of_ne other hne]

theorem Lost.queue_self (h : Lost server c c') : c'.queue server = [] := by
  rcases h.session with hnone | ⟨-, settings, hfresh⟩
  · simp [queue, hnone]
  · simp [queue, hfresh, Session.awaiting]

theorem Lost.mem_queue (h : Lost server c c') {other : Address} {a : Awaited}
    (ha : a ∈ c'.queue other) : other ≠ server ∧ a ∈ c.queue other := by
  by_cases heq : other = server
  · rw [heq, h.queue_self] at ha
    contradiction
  · rw [h.queue_of_ne heq] at ha
    exact ⟨heq, ha⟩

theorem Lost.task (h : Lost server c c') {id : TaskId} {pending : PendingExchange}
    (hpending : c'.tasks.get? id = some pending) :
    c.tasks.get? id = some pending ∧ pending.server ≠ server := by
  rw [h.tasks, Table.get?_filter, Option.filter_eq_some_iff] at hpending
  simpa using hpending

theorem Lost.job (h : Lost server c c') {job : JobHandle} {r : JobResult}
    (hr : c'.jobs.get? job = some r) : c.jobs.get? job = some r ∧ job.server ≠ server := by
  rw [h.jobs, Table.get?_filter, Option.filter_eq_some_iff] at hr
  simpa using hr

/-- A client that holds nothing has nothing to lose. -/
theorem Lost.bare (h : Lost server c c') (hbare : Bare c) : Bare c' := by
  have hsessions : c'.sessions = ∅ := by
    refine Table.eq_empty_iff.2 fun other => ?_
    by_cases heq : other = server
    · rcases h.session with hnone | ⟨⟨s, hs⟩, -⟩
      · rw [heq, hnone]
      · rw [hbare.sessions] at hs
        contradiction
    · rw [h.session_of_ne other heq, hbare.sessions, Table.get?_empty]
  refine ⟨hsessions, ?_, ?_, ?_, ?_⟩
  · rw [h.tasks, hbare.tasks]
    rfl
  · rw [h.jobs, hbare.jobs]
    rfl
  · rw [h.finished, hbare.finished]
  · rw [h.updates, hbare.updates]
    rfl

theorem Sound.lost (h : Sound c) (hlost : Lost server c c') : Sound c' where
  session other s hs := by
    by_cases heq : other = server
    · subst heq
      rcases hlost.session with hnone | ⟨-, settings, hfresh⟩
      · rw [hnone] at hs
        contradiction
      · rw [hfresh] at hs
        cases hs
        exact ⟨rfl, rfl⟩
    · rw [hlost.session_of_ne other heq] at hs
      exact h.session other s hs
  queue_nodup other := by
    by_cases heq : other = server
    · simp [heq, hlost.queue_self]
    · rw [hlost.queue_of_ne heq]
      exact h.queue_nodup other
  queue_issued other a ha :=
    Nat.lt_of_lt_of_le (h.queue_issued other a (hlost.mem_queue ha).2) hlost.issued_le
  queue_task other a ha pending hpending :=
    h.queue_task other a (hlost.mem_queue ha).2 pending (hlost.task hpending).1
  task_issued id pending hpending :=
    Nat.lt_of_lt_of_le (h.task_issued id pending (hlost.task hpending).1) hlost.issued_le
  task_queue id pending hpending := by
    obtain ⟨hold, hne⟩ := hlost.task hpending
    rw [hlost.queue_of_ne hne]
    exact h.task_queue id pending hold
  job_live job r hr := by
    obtain ⟨hold, hne⟩ := hlost.job hr
    obtain ⟨s, hs, hlive⟩ := h.job_live job r hold
    exact ⟨s, (hlost.session_of_ne _ hne).trans hs, hlive⟩
  update_known u hu := by
    rw [hlost.updates, List.mem_filter] at hu
    obtain ⟨hold, hne⟩ := hu
    have hne : u.job.server ≠ server := by simpa using hne
    rw [hlost.finished]
    refine (h.update_known u hold).imp_left fun hknown => ?_
    obtain ⟨r, hr⟩ := Table.contains_iff.1 hknown
    refine Table.contains_iff.2 ⟨r, ?_⟩
    simp [hlost.jobs, hr, hne]
  bare hstate := hlost.bare (h.bare (hlost.state ▸ hstate))

end Gearman.Client
