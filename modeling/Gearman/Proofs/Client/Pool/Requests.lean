import Gearman.Proofs.Client.Pool.Basic

/-!
What the user asks for leaves the pool sound: servers that are added, sessions that are opened, requests
that are sent, and exchanges that are given up or done with.
-/

namespace Gearman.Client

variable {c c' : Client} {server : Address}

theorem Sound.addServer (h : Sound c) (server : Address) : Sound (c.addServer server).2 := by
  unfold Client.addServer
  split
  · exact h
  · next hrunning =>
    split
    · exact h
    · next hnew =>
      have hnone : c.sessions.get? server = none := by
        simpa [hasServer, Table.contains] using hnew
      have hne : c.state ≠ .terminated := by
        intro hstate
        simp [ensureRunning, hstate] at hrunning
      refine h.transfer (h.session_insert rfl rfl rfl) (fun other => ?_) (fun other => ?_)
        rfl rfl rfl rfl (Nat.le_refl _) fun hstate => absurd hstate hne
      · rw [queue_insert rfl]
        split
        · next heq => simp [← heq, queue, hnone, Session.awaiting]
        · rfl
      · refine IsLiveAt.insert rfl ?_
        rintro ⟨t, ht, -⟩
        rw [hnone] at ht
        contradiction

theorem Sound.session_of (h : Sound c) (env : Surroundings) (server : Address) :
    Sound (c.session env server).2 := by
  unfold Client.session
  split
  · exact h
  · next s hs =>
    split
    · exact h
    · next hdead =>
      split
      · next s' hinit =>
        obtain ⟨hlive, haddress, hempty, hempty'⟩ := Session.init_ok hinit
        exact h.insert_session hs haddress (Session.isClosed_of_isLive hlive)
          (hempty.trans hempty'.symm) (fun _ => hlive) (Nat.le_refl _)
      · next e s' hinit =>
        obtain rfl := Session.init_error hinit
        exact h.insert_session hs rfl (h.session _ s' hs).2 rfl id (Nat.le_refl _)

/-- A request that was sent is the latest in the queue of its server. -/
theorem Sound.asked (h : Sound c) {s : Session} {request : Packet} {x : Exchange}
    {task : Task Exchange} {id : TaskId} (hs : c.sessions.get? server = some s)
    (hx : x.fits request.kind = true) (htask : Task.new c.issued request (some x) = .ok task)
    (hask : c.ask server s task = (.ok id, c')) : Sound c' := by
  obtain ⟨-, s', new, hlive, haddress, hawaiting, hserver, -, hwaiting, hc'⟩ :=
    ask_waiting hx htask hask
  have hsessions : c'.sessions = c.sessions.insert server s' := by rw [hc']
  have hissued : c'.issued = c.issued + 1 := by rw [hc']
  have hqueue : ∀ other, c'.queue other =
      if server = other then c.queue other ++ [⟨c.issued, request.kind⟩] else c.queue other := by
    intro other
    rw [queue_insert hsessions]
    split
    · next heq => rw [← heq, queue_of_get? hs, hawaiting]
    · rfl
  have hmem : ∀ other a, a ∈ c'.queue other →
      a ∈ c.queue other ∨ server = other ∧ a = ⟨c.issued, request.kind⟩ := by
    intro other a ha
    rw [hqueue] at ha
    split at ha
    · next heq =>
      rw [List.mem_append, List.mem_singleton] at ha
      exact ha.imp_right (⟨heq, ·⟩)
    · exact .inl ha
  have hold : ∀ id pending, c'.tasks.get? id = some pending → id ≠ c.issued →
      c.tasks.get? id = some pending := by
    intro id pending hpending hne
    rw [hc'] at hpending
    rwa [Table.get?_insert_of_ne (Ne.symm hne)] at hpending
  have hnew : ∀ pending, c'.tasks.get? c.issued = some pending → pending = new := by
    intro pending hpending
    simp only [hc', Table.get?_insert_self, Option.some.injEq] at hpending
    exact hpending.symm
  have hnone : ∀ other a, a ∈ c.queue other → a.task ≠ c.issued := fun other a ha =>
    Nat.ne_of_lt (h.queue_issued other a ha)
  have hplace : s'.address = server := haddress.trans (h.session server s hs).1
  refine ⟨h.session_insert hsessions hplace (Session.isClosed_of_isLive hlive), ?_, ?_, ?_, ?_, ?_,
    fun job r hr => ?_, ?_, fun hstate => ?_⟩
  · intro other
    rw [hqueue]
    split
    · rw [List.map_append, List.nodup_append]
      refine ⟨h.queue_nodup other, by simp, fun id hid id' hid' => ?_⟩
      obtain ⟨a, ha, rfl⟩ := List.mem_map.1 hid
      obtain rfl : id' = c.issued := by simpa using hid'
      exact hnone other a ha
    · exact h.queue_nodup other
  · intro other a ha
    rw [hissued]
    rcases hmem other a ha with ha | ⟨-, rfl⟩
    · exact Nat.lt_succ_of_lt (h.queue_issued other a ha)
    · exact Nat.lt_succ_self _
  · intro other a ha pending hpending
    rcases hmem other a ha with ha | ⟨heq, rfl⟩
    · exact h.queue_task other a ha pending (hold _ _ hpending (hnone other a ha))
    · obtain rfl := hnew pending hpending
      exact ⟨hserver.trans heq, x, hwaiting⟩
  · intro id pending hpending
    rw [hissued]
    by_cases hne : id = c.issued
    · rw [hne]
      exact Nat.lt_succ_self _
    · exact Nat.lt_succ_of_lt (h.task_issued id pending (hold _ _ hpending hne))
  · intro id pending hpending
    by_cases hne : id = c.issued
    · subst hne
      rw [hnew pending hpending, hserver]
      exact .inr ⟨⟨c.issued, request.kind⟩, by simp [hqueue], rfl⟩
    · refine (h.task_queue id pending (hold _ _ hpending hne)).imp_right ?_
      rintro ⟨a, ha, haid⟩
      refine ⟨a, ?_, haid⟩
      rw [hqueue]
      split
      · exact List.mem_append_left _ ha
      · exact ha
  · rw [hc'] at hr
    exact (h.job_live job r hr).insert hsessions fun _ => hlive
  · rw [hc']
    exact h.update_known
  · rw [hc'] at hstate
    exact absurd hstate (h.state_ne hs)

theorem Sound.refused (h : Sound c) {s : Session} {task : Task Exchange} {e : Error}
    (hs : c.sessions.get? server = some s) (hfresh : task.state = .fresh)
    (hask : c.ask server s task = (.error e, c')) (he : e.isTooLarge = true) : Sound c' := by
  rw [ask_refused hask hfresh he]
  exact h.insert_session hs rfl (h.session server s hs).2 rfl id (Nat.le_succ _)

/-- Fewer exchanges may be held, and an open one may be given up. -/
theorem Sound.of_tasks (h : Sound c) {tasks : Table TaskId PendingExchange}
    (htasks : ∀ id pending, tasks.get? id = some pending → ∃ old, c.tasks.get? id = some old ∧
      pending.task = old.task ∧ pending.server = old.server ∧
        (pending.detached = old.detached ∨ old.task.state.isAnswered = false))
    (hempty : c.tasks = ∅ → tasks = ∅) : Sound { c with tasks } where
  session := h.session
  queue_nodup := h.queue_nodup
  queue_issued := h.queue_issued
  queue_task server a ha pending hpending := by
    obtain ⟨old, hold, htask, hserver, -⟩ := htasks _ pending hpending
    obtain ⟨heq, x, hstate, hresponder, hfits⟩ := h.queue_task server a ha old hold
    exact ⟨hserver.trans heq, x, by rw [htask, hstate], by rw [htask, hresponder], hfits⟩
  task_issued id pending hpending := by
    obtain ⟨old, hold, -⟩ := htasks id pending hpending
    exact h.task_issued id old hold
  task_queue id pending hpending := by
    obtain ⟨old, hold, htask, hserver, hdetached⟩ := htasks id pending hpending
    rw [htask, hserver]
    refine (h.task_queue id old hold).imp_left ?_
    rintro ⟨hfinished, hattended⟩
    refine ⟨hfinished, ?_⟩
    rcases hdetached with heq | hopen
    · rw [heq, hattended]
    · rw [hfinished] at hopen
      contradiction
  job_live := h.job_live
  update_known := h.update_known
  bare hstate := by
    have hbare := h.bare hstate
    exact ⟨hbare.sessions, hempty hbare.tasks, hbare.jobs, hbare.finished, hbare.updates⟩

theorem Sound.released (h : Sound c) (id : TaskId) :
    Sound { c with tasks := c.tasks.erase id } := by
  refine h.of_tasks (fun id' pending hpending => ?_) ?_
  · rw [Table.get?_erase] at hpending
    split at hpending
    · contradiction
    · exact ⟨pending, hpending, rfl, rfl, .inl rfl⟩
  · intro hempty
    rw [hempty]
    rfl

theorem Sound.detach (h : Sound c) {id : TaskId} (hopen : c.IsOpen id) : Sound (c.detach id) := by
  obtain ⟨open_, hget, hstate⟩ := hopen
  unfold Client.detach
  rw [hget]
  refine h.of_tasks (fun id' pending hpending => ?_) ?_
  · rw [Table.get?_insert] at hpending
    split at hpending
    · next heq =>
      cases hpending
      exact ⟨open_, heq ▸ hget, rfl, rfl, .inr hstate⟩
    · exact ⟨pending, hpending, rfl, rfl, .inl rfl⟩
  · intro hempty
    rw [hempty] at hget
    contradiction

end Gearman.Client
