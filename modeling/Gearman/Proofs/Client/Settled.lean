import Gearman.Proofs.Client.Attended
import Gearman.Proofs.Client.Pool.Step
import Gearman.Proofs.Client.RunState

/-!
Clients between operations: no exchange is waited for, and the run state only moves forward.
-/

namespace Gearman.Client

variable {c : Client}

/-- What holds of a client between its operations. -/
structure Settled (c : Client) : Prop where
  session : ∀ server s, c.sessions.get? server = some s →
    s.address = server ∧ (s.phase = .unopened ∨ s.isLive = true)
  task : ∀ id pending, c.tasks.get? id = some pending →
    pending.detached = true ∧ pending.task.state = .submitted ∧
      ∃ s, c.sessions.get? pending.server = some s ∧ s.isLive = true ∧
        (s.awaiting.map (·.task)).count id = 1
  job : ∀ job r, c.jobs.get? job = some r →
    ∃ s, c.sessions.get? job.server = some s ∧ s.isLive = true
  update : ∀ u ∈ c.updates, c.jobs.contains u.job = true ∨ c.finished.contains u.job = true
  bare : c.state = .terminated → Bare c

theorem Sound.settled (h : Sound c) (hattended : ∀ id, ¬ c.IsAttended id) : Settled c where
  session server s hs := by
    obtain ⟨haddress, hopen⟩ := h.session server s hs
    refine ⟨haddress, ?_⟩
    cases hphase : s.phase with
    | unopened => exact .inl rfl
    | live connection awaiting => exact .inr (by simp [Session.isLive, hphase])
    | closed sent => simp [Session.isClosed, hphase] at hopen
  task id pending hpending := by
    have hdetached : pending.detached = true := by
      cases hdetached : pending.detached with
      | true => rfl
      | false => exact absurd ⟨pending, hpending, hdetached⟩ (hattended id)
    obtain ⟨-, hfalse⟩ | ⟨a, ha, rfl⟩ := h.task_queue id pending hpending
    · rw [hdetached] at hfalse
      contradiction
    · obtain ⟨s, hs, hlive⟩ := isLiveAt_of_mem_queue ha
      obtain ⟨-, x, hwaiting⟩ := h.queue_task _ a ha pending hpending
      have hnodup := h.queue_nodup pending.server
      rw [queue_of_get? hs] at ha hnodup
      exact ⟨hdetached, hwaiting.state, s, hs, hlive,
        by rw [hnodup.count, if_pos (List.mem_map_of_mem ha)]⟩
  job := h.job_live
  update := h.update_known
  bare := h.bare

/-- The pool invariant: a client is settled between any two operations, its run state only moves
forward, and a client that has ended holds nothing from then on. -/
theorem settled_performAll (settings : ClientSettings) (operations more : List Operation) :
    Settled ((withSettings settings).performAll operations) ∧
      ((withSettings settings).performAll operations).state.rank ≤
        ((withSettings settings).performAll (operations ++ more)).state.rank ∧
      (((withSettings settings).performAll operations).state = .terminated →
        ((withSettings settings).performAll (operations ++ more)).state = .terminated ∧
          Bare ((withSettings settings).performAll (operations ++ more))) := by
  have hsettled : ∀ operations, Settled ((withSettings settings).performAll operations) := by
    intro operations
    obtain ⟨log, h⟩ := evolves_performAll (withSettings settings) operations
    refine (h.invariant (fun hstep hc => hc.step hstep) (sound_withSettings settings)).settled ?_
    refine not_isAttended_performAll ?_
    rintro id ⟨pending, hpending, -⟩
    contradiction
  have hrank := rank_performAll ((withSettings settings).performAll operations) more
  rw [← performAll_append] at hrank
  refine ⟨hsettled operations, hrank, fun hstate => ?_⟩
  have hterminated := RunState.eq_terminated (hstate ▸ hrank)
  exact ⟨hterminated, (hsettled (operations ++ more)).bare hterminated⟩

end Gearman.Client
