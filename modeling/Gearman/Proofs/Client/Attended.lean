import Gearman.Proofs.Client.Evolution
import Gearman.Proofs.Client.Pool.Loss

/-!
No operation leaves an exchange behind that it waits for: it is done with the exchange, or gives it up.
-/

namespace Gearman.Client

variable {c c' : Client} {server : Address}

/-- Whether an operation waits for this exchange. -/
def IsAttended (c : Client) (id : TaskId) : Prop :=
  ∃ pending, c.tasks.get? id = some pending ∧ pending.detached = false

theorem IsAttended.of_lost {id : TaskId} (hlost : Lost server c c') (h : c'.IsAttended id) :
    c.IsAttended id := by
  obtain ⟨pending, hpending, hattended⟩ := h
  exact ⟨pending, (hlost.task hpending).1, hattended⟩

theorem IsAttended.of_shutdownNow {id : TaskId} (h : c.shutdownNow.IsAttended id) :
    c.IsAttended id := by
  obtain ⟨pending, hpending, hattended⟩ := h
  exact ⟨pending, task_of_shutdownNow hpending, hattended⟩

/-- What servers bring about makes no operation wait. -/
theorem IsAttended.of_drive {log : History} {id : TaskId} (hstep : Drive c log c')
    (h : c'.IsAttended id) : c.IsAttended id := by
  obtain ⟨pending, hpending, hattended⟩ := h
  obtain ⟨old, hold, hsame⟩ := detached_of_drive hstep hpending
  exact ⟨old, hold, hsame ▸ hattended⟩

theorem IsAttended.of_drives {id : TaskId} (hevolves : Evolves Drive c c')
    (h : c'.IsAttended id) : c.IsAttended id := by
  refine hevolves.invariant (P := fun c' => c'.IsAttended id → c.IsAttended id) ?_ (fun h => h) h
  exact fun hstep ih h => ih (h.of_drive hstep)

/-- An operation may wait for the exchange that it has begun, and for no other. -/
theorem IsAttended.of_start {env : Surroundings} {request : Packet} {x : Exchange}
    {r : Except Error TaskId} {id : TaskId} (hstart : c.start env server request x = (r, c'))
    (h : c'.IsAttended id) : c.IsAttended id ∨ r = .ok id := by
  unfold start at hstart
  split at hstart
  · cases hstart
    exact .inl h
  · next task htask =>
    obtain ⟨sessions, heq⟩ := session_keeps c env server
    split at hstart
    · next e c₁ hsession =>
      cases hstart
      rw [hsession] at heq
      subst heq
      exact .inl h
    · next s c₁ hsession =>
      have hs := (session_ok hsession).1
      rw [hsession] at heq
      subst heq
      obtain ⟨-, -, -, hfresh⟩ := new_ok htask
      cases r with
      | ok id₀ =>
        obtain ⟨rfl, s', -, -, -, rfl⟩ := ask_ok hstart hfresh
        obtain ⟨pending, hpending, hattended⟩ := h
        rw [Table.get?_insert] at hpending
        split at hpending
        · next heq => exact .inr (by rw [heq])
        · exact .inl ⟨pending, hpending, hattended⟩
      | error e =>
        cases he : e.isTooLarge with
        | true =>
          rw [ask_refused hstart hfresh he] at h
          exact .inl h
        | false =>
          have hheld := h.of_lost (ask_severed hs hstart he)
          exact .inl hheld

theorem IsAttended.of_exchanged {id : TaskId} (hexchanged : Exchanged c c')
    (h : c'.IsAttended id) : c.IsAttended id := by
  obtain rfl | ⟨env, server, request, x, awaited, -, rfl⟩ := hexchanged
  · exact h
  · rcases exchange_cases c env server request x awaited with
      ⟨e, hstart⟩ | ⟨id₀, c₁, c₂, hstart, hdrive, hend⟩
    · exact (h.of_start hstart).resolve_right (by simp)
    · obtain ⟨hne, hc₂⟩ : id ≠ id₀ ∧ c₂.IsAttended id := by
        obtain ⟨pending, hpending, hattended⟩ := h
        rcases hend with hend | ⟨⟨old, hold, -⟩, hend⟩
        · rw [hend, Table.get?_erase] at hpending
          split at hpending
          · contradiction
          · next hne => exact ⟨Ne.symm hne, pending, hpending, hattended⟩
        · simp only [hend, detach, hold, Table.get?_insert] at hpending
          split at hpending
          · cases hpending
            contradiction
          · next hne => exact ⟨Ne.symm hne, pending, hpending, hattended⟩
      refine ((hc₂.of_drives hdrive).of_start hstart).resolve_right ?_
      simpa using Ne.symm hne

theorem IsAttended.of_takeResult {id : TaskId} {job : JobHandle}
    (h : (c.takeResult job).2.IsAttended id) : c.IsAttended id := by
  unfold takeResult at h
  split at h <;> exact h

theorem IsAttended.of_waitForJob {id : TaskId} {env : Surroundings} {job : JobHandle}
    (h : (c.waitForJob env job).client.IsAttended id) : c.IsAttended id := by
  obtain ⟨c₁, hevolves, hend | ⟨r, -, hend⟩⟩ := waitForJob_cases c env job
  · rw [hend] at h
    exact h.of_drives hevolves
  · rw [hend] at h
    exact h.of_takeResult.of_drives hevolves

/-- No operation leaves an exchange behind that it waits for. -/
theorem IsAttended.of_perform {id : TaskId} {op : Operation} (h : (c.perform op).IsAttended id) :
    c.IsAttended id := by
  cases op with
  | addServer server =>
    obtain ⟨sessions, heq⟩ := addServer_keeps c server
    rwa [perform, heq] at h
  | removeServer server =>
    simp only [perform, removeServer] at h
    split at h
    · exact h.of_lost (lost_discard c server)
    · exact h
  | submit env job => exact h.of_exchanged (exchanged_submit c env job)
  | execute env job =>
    simp only [perform] at h
    rcases execute_cases c env job with hend | hend | ⟨env', handle, hend⟩
    · rwa [hend] at h
    · rw [hend] at h
      exact h.of_exchanged (exchanged_submit c env job)
    · rw [hend] at h
      exact h.of_waitForJob.of_exchanged (exchanged_submit c env job)
  | waitForJob env job => exact h.of_waitForJob
  | takeResult job => exact h.of_takeResult
  | jobStatus env job => exact h.of_exchanged (exchanged_jobStatus c env job)
  | echo env data => exact h.of_exchanged (exchanged_echo c env data)
  | drainUpdates =>
    simp only [perform, drainUpdates] at h
    split at h
    · exact h
    · exact IsAttended.of_drives (evolves_pumpAll c c.liveServers) h
  | shutdown arrivals =>
    simp only [perform] at h
    rcases shutdown_cases c arrivals with ⟨hend, -⟩ | ⟨-, c₁, hevolves, hend⟩
    · rwa [hend] at h
    · rw [hend] at h
      have hheld := h.of_shutdownNow.of_drives hevolves
      exact hheld
  | shutdownNow => exact h.of_shutdownNow
  | arrival a => exact h.of_drive (.arrival c a)

theorem not_isAttended_performAll {operations : List Operation} (hc : ∀ id, ¬ c.IsAttended id)
    (id : TaskId) : ¬ (c.performAll operations).IsAttended id := by
  induction operations generalizing c with
  | nil => exact hc id
  | cons op rest ih => exact ih fun id h => hc id h.of_perform

end Gearman.Client
