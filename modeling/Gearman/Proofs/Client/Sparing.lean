import Gearman.Proofs.Client.Ledger
import Gearman.Proofs.Client.Queues

/-!
Exchanges that were given up. No step of an operation touches such an exchange, except that its reply is
handled or the session of its server is lost: an operation lets go of the exchange that it waits for itself,
and of no other.
-/

namespace Gearman.Client

/-- The reply of a server that was handled, with the exchange that it was handed to. -/
def Happening.reply? (server : Address) : Happening → Option (TaskId × Packet)
  | .packet source (.reply id p) _ => if source = server then some (id, p) else none
  | _ => none

/-- Whether this is a server's reply to an exchange. -/
def Happening.answers (server : Address) (id : TaskId) (e : Happening) : Bool :=
  (e.reply? server).any (·.1 = id)

theorem Happening.answers_iff {server : Address} {id : TaskId} {e : Happening} :
    e.answers server id = true ↔ ∃ p, e.reply? server = some (id, p) := by
  simp [answers, Option.any_eq_true]

variable {c c' : Client} {server : Address} {log : History} {id : TaskId}

/-- Exchanges that were given up stay as they are, unless they are answered or forgotten. -/
def Spares (c : Client) (log : History) (c' : Client) : Prop :=
  Sound c → ∀ id pending, c.tasks.get? id = some pending → pending.detached = true →
    (∀ e ∈ log, e.forgets pending.server = false ∧ e.answers pending.server id = false) →
      c'.tasks.get? id = some pending

/-- A step that leaves alone what was given up. -/
structure Sparing (c : Client) (log : History) (c' : Client) : Prop where
  step : Step c log c'
  spares : Spares c log c'

theorem spares_of_tasks (h : c'.tasks = c.tasks) : Spares c log c' := by
  intro _ id pending hpending _ _
  rwa [h]

theorem Lost.spares (h : Lost server c c') (hlog : .forgotten server ∈ log) : Spares c log c' := by
  intro _ id pending hpending _ hkept
  have hne : server ≠ pending.server := by simpa [Happening.forgets] using (hkept _ hlog).1
  rw [h.tasks, Table.get?_filter, hpending]
  simp [Ne.symm hne]

theorem spares_of_ended (hlog : .ended ∈ log) : Spares c log c' := by
  intro _ id pending _ _ hkept
  have := (hkept _ hlog).1
  contradiction

theorem spares_drive (h : Drive c log c') : Spares c log c' := by
  cases h with
  | arrival a =>
    obtain ⟨sessions, heq⟩ := deliver_keeps c a
    rw [heq]
    exact spares_of_tasks rfl
  | idle hr =>
    obtain ⟨sessions, rfl⟩ := receive_keeps hr
    exact spares_of_tasks rfl
  | failed hr => exact (lost_of_receive hr).spares List.mem_cons_self
  | @reply c₁ server other p hr =>
    intro hsound id pending hpending _ hkept
    have hne : other ≠ id := by
      rintro rfl
      -- The server that replies is the one that was asked.
      obtain ⟨a, hqueue, rfl, -⟩ := queue_of_reply hr
      obtain ⟨hserver, -⟩ := hsound.queue_task server a (hqueue ▸ List.mem_cons_self) pending hpending
      have := (hkept _ List.mem_cons_self).2
      simp [Happening.answers, Happening.reply?, hserver] at this
    rw [tasks_handleReply_of_ne c₁ server p hne]
    obtain ⟨sessions, rfl⟩ := receive_keeps hr
    exact hpending
  | report hr =>
    obtain ⟨sessions, rfl⟩ := receive_keeps hr
    exact spares_of_tasks (handleUpdate_keeps _ _ _).2
  | @expelled c₁ server p hr =>
    intro hsound id pending hpending hdetached hkept
    refine (lost_discard c₁ server).spares (List.mem_cons_of_mem _ List.mem_cons_self)
      (hsound.receive_unsolicited hr) id pending ?_ hdetached hkept
    obtain ⟨sessions, rfl⟩ := receive_keeps hr
    exact hpending
  | deserted => exact spares_of_ended List.mem_cons_self

namespace Sparing

theorem drive (h : Drive c log c') : Sparing c log c' := ⟨.drive h, spares_drive h⟩

theorem added (c : Client) (server : Address) : Sparing c [] (c.addServer server).2 := by
  refine ⟨.added c server, ?_⟩
  obtain ⟨sessions, heq⟩ := addServer_keeps c server
  rw [heq]
  exact spares_of_tasks rfl

theorem removed (h : c.hasServer server = true) :
    Sparing c [.forgotten server] (c.discard server) :=
  ⟨.removed h, (lost_discard c server).spares List.mem_cons_self⟩

theorem opened (c : Client) (env : Surroundings) (server : Address) :
    Sparing c [] (c.session env server).2 := by
  refine ⟨.opened c env server, ?_⟩
  obtain ⟨sessions, heq⟩ := session_keeps c env server
  rw [heq]
  exact spares_of_tasks rfl

variable {s : Session} {request : Packet} {x : Exchange} {task : Task Exchange} {e : Error}

theorem asked (hs : c.sessions.get? server = some s) (hx : x.fits request.kind = true)
    (htask : Task.new c.issued request (some x) = .ok task)
    (h : c.ask server s task = (.ok id, c')) : Sparing c [] c' := by
  refine ⟨.asked hs hx htask h, fun hsound id pending hpending _ _ => ?_⟩
  obtain ⟨-, s', new, -, -, -, -, -, -, rfl⟩ := ask_waiting hx htask h
  have hold := hsound.task_issued id pending hpending
  exact (Table.get?_insert_of_ne (Nat.ne_of_gt hold)).trans hpending

theorem refused (hs : c.sessions.get? server = some s)
    (htask : Task.new c.issued request (some x) = .ok task)
    (h : c.ask server s task = (.error e, c')) (he : e.isTooLarge = true) : Sparing c [] c' := by
  refine ⟨.refused hs htask h he, ?_⟩
  rw [ask_refused h (new_ok htask).2.2.2 he]
  exact spares_of_tasks rfl

theorem severed (hs : c.sessions.get? server = some s)
    (htask : Task.new c.issued request (some x) = .ok task)
    (h : c.ask server s task = (.error e, c')) (he : e.isTooLarge = false) :
    Sparing c [.forgotten server] c' :=
  ⟨.severed hs htask h he, (ask_severed hs h he).spares List.mem_cons_self⟩

/-- Who lets go of an exchange that was not given up touches no other. -/
theorem released (hattended : ∀ pending, c.tasks.get? id = some pending → pending.detached = false) :
    Sparing c [] { c with tasks := c.tasks.erase id } := by
  refine ⟨.released c id, fun _ other pending hpending hdetached _ => ?_⟩
  have hne : id ≠ other := by
    rintro rfl
    rw [hattended pending hpending] at hdetached
    contradiction
  exact (Table.get?_erase_of_ne hne).trans hpending

theorem detached (h : c.IsOpen id) : Sparing c [] (c.detach id) := by
  refine ⟨.detached h, fun _ other pending hpending hdetached _ => ?_⟩
  unfold detach
  split
  · exact hpending
  · next old hold =>
    dsimp only
    rw [Table.get?_insert]
    split
    · next heq =>
      subst heq
      obtain rfl : old = pending := Option.some.inj (hold.symm.trans hpending)
      rw [← hdetached]
    · exact hpending

theorem collected {job : JobHandle} {r : JobResult} (h : c.finished.get? job = some r) :
    Sparing c [.collected job] (c.takeResult job).2 := by
  refine ⟨.collected h, ?_⟩
  simp only [takeResult, h]
  exact spares_of_tasks rfl

theorem drained (c : Client) : Sparing c [.drained c.updates] { c with updates := [] } :=
  ⟨.drained c, spares_of_tasks rfl⟩

theorem closing (h : c.state = .running) : Sparing c [] { c with state := .shuttingDown } :=
  ⟨.closing h, spares_of_tasks rfl⟩

theorem ended (c : Client) : Sparing c [.ended] c.shutdownNow :=
  ⟨.ended c, spares_of_ended List.mem_cons_self⟩

end Sparing

theorem task_of_shutdownNow {pending : PendingExchange}
    (h : c.shutdownNow.tasks.get? id = some pending) : c.tasks.get? id = some pending := by
  by_cases hstate : c.state = .terminated
  · rwa [shutdownNow_terminated hstate] at h
  · rw [(bare_shutdownNow hstate).tasks] at h
    contradiction

/-- Servers give up no exchange for an operation, and take none up again. -/
theorem detached_of_drive {pending : PendingExchange} (h : Drive c log c')
    (hpending : c'.tasks.get? id = some pending) :
    ∃ old, c.tasks.get? id = some old ∧ pending.detached = old.detached := by
  cases h with
  | arrival a =>
    obtain ⟨sessions, heq⟩ := deliver_keeps c a
    rw [heq] at hpending
    exact ⟨pending, hpending, rfl⟩
  | idle hr =>
    obtain ⟨sessions, rfl⟩ := receive_keeps hr
    exact ⟨pending, hpending, rfl⟩
  | failed hr => exact ⟨pending, ((lost_of_receive hr).task hpending).1, rfl⟩
  | @reply c₁ server other p hr =>
    have hold := (handleReply_keeps c₁ server other p).2 id pending hpending
    obtain ⟨sessions, rfl⟩ := receive_keeps hr
    exact hold
  | report hr =>
    obtain ⟨sessions, rfl⟩ := receive_keeps hr
    rw [(handleUpdate_keeps _ _ _).2] at hpending
    exact ⟨pending, hpending, rfl⟩
  | expelled hr =>
    obtain ⟨sessions, rfl⟩ := receive_keeps hr
    exact ⟨pending, ((lost_discard _ _).task hpending).1, rfl⟩
  | deserted => exact ⟨pending, task_of_shutdownNow hpending, rfl⟩

end Gearman.Client
