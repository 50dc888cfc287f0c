import Gearman.Proofs.Client.Pool.Step

/-!
What servers do to the requests that they have to answer: they answer the oldest one or drop them all.
So the queue of a server only gets shorter while nothing is asked, and an empty one stays empty.
-/

namespace Gearman.Client

variable {c c' : Client} {log : History} {id : TaskId} {p : Packet}

/-- A session that awaits what it awaited before leaves all queues as they are. -/
theorem queue_insert_same {source : Address} {s s' : Session} (hs : c.sessions.get? source = some s)
    (hawaiting : s'.awaiting = s.awaiting) (server : Address) :
    ({ c with sessions := c.sessions.insert source s' } : Client).queue server = c.queue server := by
  rw [queue_insert rfl]
  split
  · next heq => rw [← heq, queue_of_get? hs, hawaiting]
  · rfl

theorem queue_deliver (c : Client) (a : Arrival) (server : Address) :
    (c.deliver a).1.queue server = c.queue server := by
  unfold deliver
  split
  · rfl
  · next s hs => exact queue_insert_same hs (s.deliver_eq a).2.2.2 server

/-- A session that is opened has nothing to answer. -/
theorem queue_session (c : Client) (env : Surroundings) (opened server : Address) :
    (c.session env opened).2.queue server = c.queue server := by
  unfold session
  split
  · rfl
  · next s hs =>
    split
    · rfl
    · split
      · next s' hinit =>
        obtain ⟨-, -, hempty', hempty⟩ := Session.init_ok hinit
        exact queue_insert_same hs (hempty'.trans hempty.symm) server
      · next e s' hinit => exact queue_insert_same hs (by rw [Session.init_error hinit]) server

theorem queue_shutdownNow (c : Client) (server : Address) :
    c.shutdownNow.queue server <:+ c.queue server := by
  by_cases hstate : c.state = .terminated
  · exact (shutdownNow_terminated hstate).symm ▸ List.suffix_refl (c.queue server)
  · have hnil : c.shutdownNow.queue server = [] := by
      simp [queue, (bare_shutdownNow hstate).sessions]
    rw [hnil]
    exact List.nil_suffix

theorem Lost.queue_suffix {other : Address} (h : Lost other c c') (server : Address) :
    c'.queue server <:+ c.queue server := by
  by_cases heq : server = other
  · rw [heq, h.queue_self]
    exact List.nil_suffix
  · exact h.queue_of_ne heq ▸ List.suffix_refl _

/-- A reply takes the oldest request off the queue of its server. -/
theorem queue_of_reply {server : Address} (h : c.receive server = (.ok (some (.reply id p)), c')) :
    ∃ a, c.queue server = a :: c'.queue server ∧ a.task = id ∧ Session.isReply p a = true := by
  obtain ⟨s, s', hs, hstep, rfl⟩ := receive_some h
  obtain ⟨a, hawaiting, hid, hreply⟩ := Session.awaiting_of_step_reply hstep
  refine ⟨a, ?_, hid, hreply⟩
  rw [queue_of_get? hs, hawaiting, queue_insert rfl, if_pos rfl]

theorem queue_of_unsolicited {source : Address}
    (h : c.receive source = (.ok (some (.unsolicited p)), c')) (server : Address) :
    c'.queue server = c.queue server := by
  obtain ⟨s, s', hs, hstep, rfl⟩ := receive_some h
  exact queue_insert_same hs (Session.awaiting_of_step_unsolicited hstep) server

theorem queue_of_receive_none {source : Address} (h : c.receive source = (.ok none, c'))
    (server : Address) : c'.queue server = c.queue server := by
  obtain rfl | ⟨s, s', hs, hstep, rfl⟩ := receive_none h
  · rfl
  · exact queue_insert_same hs (Session.awaiting_of_step_none hstep) server

theorem queue_suffix_of_reply {source : Address}
    (h : c.receive source = (.ok (some (.reply id p)), c')) (server : Address) :
    c'.queue server <:+ c.queue server := by
  by_cases heq : source = server
  · subst heq
    obtain ⟨a, hqueue, -⟩ := queue_of_reply h
    rw [hqueue]
    exact List.suffix_cons a _
  · obtain ⟨s, s', -, -, rfl⟩ := receive_some h
    have hsame : ({ c with sessions := c.sessions.insert source s' } : Client).queue server =
        c.queue server := by
      rw [queue_insert rfl, if_neg heq]
    exact hsame ▸ List.suffix_refl _

theorem queue_drive (h : Drive c log c') (server : Address) :
    c'.queue server <:+ c.queue server := by
  have hsame : ∀ {c c' : Client}, c'.sessions = c.sessions → c'.queue server = c.queue server := by
    intro c c' hsessions
    simp only [queue, hsessions]
  cases h with
  | arrival a => exact queue_deliver c a server ▸ List.suffix_refl _
  | idle hr => exact queue_of_receive_none hr server ▸ List.suffix_refl _
  | failed hr => exact (lost_of_receive hr).queue_suffix server
  | reply hr =>
    rw [hsame (sessions_handleReply _ _ _ _)]
    exact queue_suffix_of_reply hr server
  | report hr =>
    rw [hsame (sessions_handleUpdate _ _ _)]
    exact queue_of_unsolicited hr server ▸ List.suffix_refl _
  | expelled hr =>
    rw [← queue_of_unsolicited hr]
    exact (lost_discard _ _).queue_suffix server
  | deserted => exact queue_shutdownNow c server

/-- While servers drive the client, no queue becomes longer. -/
theorem queue_chain (h : Chain Drive c log c') (server : Address) :
    c'.queue server <:+ c.queue server := by
  induction h with
  | refl => exact List.suffix_refl _
  | tail _ hstep ih => exact (queue_drive hstep server).trans ih

/-- Once the latest request of a server is answered, nothing is left to be answered. -/
theorem queue_of_latest {server : Address} {q : List Awaited} {k : Kind} (h : Sound c)
    (hqueue : c.queue server <:+ q ++ [⟨id, k⟩])
    (hr : c.receive server = (.ok (some (.reply id p)), c')) : c'.queue server = [] := by
  obtain ⟨a, hold, rfl, -⟩ := queue_of_reply hr
  have hnodup := h.queue_nodup server
  rw [hold, List.map_cons, List.nodup_cons] at hnodup
  rw [hold] at hqueue
  refine Decidable.byContradiction fun hne => ?_
  have hlast := ((List.suffix_cons a _).trans hqueue).getLast hne
  rw [List.getLast_append_of_ne_nil _ (List.cons_ne_nil _ _), List.getLast_singleton] at hlast
  have hmem : (⟨a.task, k⟩ : Awaited) ∈ c'.queue server := hlast ▸ List.getLast_mem hne
  exact hnodup.1 (List.mem_map.2 ⟨_, hmem, rfl⟩)

/-- A server that has nothing to answer sends no reply. -/
theorem unanswering {server : Address} (hnone : c.queue server = []) (h : Chain Drive c log c') :
    ∀ id p x, .packet server (.reply id p) x ∉ log := by
  induction h with
  | refl => simp
  | @tail c₁ c₂ log new h hstep ih =>
    intro id p x hmem
    rcases List.mem_append.1 hmem with hmem | hmem
    · exact ih id p x hmem
    · have hsuffix := queue_chain h server
      rw [hnone, List.suffix_nil] at hsuffix
      cases hstep with
      | reply hr =>
        obtain ⟨rfl, ⟨rfl, rfl⟩, -⟩ := by simpa using hmem
        obtain ⟨a, hqueue, -⟩ := queue_of_reply hr
        rw [hsuffix] at hqueue
        contradiction
      | _ => simp at hmem

end Gearman.Client
