import Gearman.Proofs.Client.Pool.Loss
import Gearman.Proofs.Client.Pool.Replies
import Gearman.Proofs.Client.Pool.Requests

/-!
Every step of a client leaves the pool sound.
-/

namespace Gearman.Client

variable {c c' : Client}

theorem Sound.takeResult (h : Sound c) {job : JobHandle} {r : JobResult}
    (hr : c.finished.get? job = some r) : Sound (c.takeResult job).2 := by
  simp only [Client.takeResult, hr, releaseUpdates]
  refine ⟨h.session, h.queue_nodup, h.queue_issued, h.queue_task, h.task_issued, h.task_queue,
    h.job_live, ?_, ?_⟩
  · intro u hu
    simp only [List.mem_filter, decide_eq_true_eq] at hu
    rw [Table.contains_erase]
    exact (h.update_known u hu.1).imp_right (⟨Ne.symm hu.2, ·⟩)
  · intro hstate
    rw [(h.bare hstate).finished] at hr
    contradiction

theorem Sound.drained (h : Sound c) : Sound { c with updates := [] } where
  session := h.session
  queue_nodup := h.queue_nodup
  queue_issued := h.queue_issued
  queue_task := h.queue_task
  task_issued := h.task_issued
  task_queue := h.task_queue
  job_live := h.job_live
  update_known := by simp
  bare hstate := { h.bare hstate with updates := rfl }

theorem Sound.closing (h : Sound c) : Sound { c with state := .shuttingDown } where
  session := h.session
  queue_nodup := h.queue_nodup
  queue_issued := h.queue_issued
  queue_task := h.queue_task
  task_issued := h.task_issued
  task_queue := h.task_queue
  job_live := h.job_live
  update_known := h.update_known
  bare hstate := by contradiction

theorem Sound.drive {log : History} (h : Sound c) (hstep : Drive c log c') : Sound c' := by
  cases hstep with
  | arrival a => exact h.deliver a
  | idle hr => exact h.receive_none hr
  | failed hr => exact h.lost (lost_of_receive hr)
  | reply hr => exact h.reply hr
  | report hr => exact (h.receive_unsolicited hr).handleUpdate _ _
  | expelled hr => exact (h.receive_unsolicited hr).lost (lost_discard _ _)
  | deserted => exact h.shutdownNow

theorem Sound.step {log : History} (h : Sound c) (hstep : Step c log c') : Sound c' := by
  cases hstep with
  | drive hdrive => exact h.drive hdrive
  | added server => exact h.addServer server
  | removed => exact h.lost (lost_discard _ _)
  | opened env server => exact h.session_of env server
  | asked hs hx htask hask => exact h.asked hs hx htask hask
  | refused hs htask hask he => exact h.refused hs (new_ok htask).2.2.2 hask he
  | severed hs htask hask he => exact h.lost (ask_severed hs hask he)
  | released id => exact h.released id
  | detached hopen => exact h.detach hopen
  | collected hr => exact h.takeResult hr
  | drained => exact h.drained
  | closing => exact h.closing
  | ended => exact h.shutdownNow

theorem Sound.chain {log : History} (h : Sound c) (hchain : Chain Step c log c') : Sound c' :=
  hchain.invariant (fun hstep hc => hc.step hstep) h

/-- Whatever a client has been through, it is sound. -/
theorem sound_of_chain {settings : ClientSettings} {log : History}
    (h : Chain Step (withSettings settings) log c) : Sound c :=
  (sound_withSettings settings).chain h

end Gearman.Client
