import Gearman.Proofs.Client.Exchanges
import Gearman.Proofs.Client.Streams

/-!
Clients of servers in order. A packet in order is handled without an error, `Handles` says all that it can
do to the client, and what is kept by every such packet is a course of the stream. `Expects` and `Replied`
follow the latest request of a server up to its reply and beyond.
-/

namespace Gearman.Client

variable {settings : ClientSettings} {past log new : History} {c c' c'' : Client} {server : Address}
  {id : TaskId} {k : Kind} {x : Exchange} {p : Packet} {ps before : List Packet}

/-- A report that can be read is no error, whatever is known of its job. -/
theorem handleUpdate_of_isReadable (hp : p.isReport = true) (hreadable : p.isReadable = true) :
    (c.handleUpdate server p).1 = .ok () := by
  cases hr : c.jobs.get? (subject server p) with
  | none =>
    unfold subject at hr
    simp [handleUpdate, hr]
  | some r =>
    have happly := JobResult.apply_of_isReadable hp hreadable r
    unfold subject at hr
    simp only [handleUpdate, hr]
    cases hresult : r.apply p with
    | mk outcome r' =>
      rw [hresult] at happly
      obtain rfl : outcome = .ok p.kind.isFinal := happly
      cases p.kind.isFinal <;> rfl

/-- The client `c` handles the packet `p`, which is in order, and what happens then is `new`. -/
inductive Handles (c : Client) (server : Address) (p : Packet) : History → Client → Prop
  | reply {a : Awaited} {sessions : Table Address Session} {c' : Client}
    (hqueue : c.queue server = a :: c'.queue server) (hp : Session.isReply p a = true)
    (hreadable : p.isReadable = true)
    (h : c' = ({ c with sessions }.handleReply server a.task p).2) :
    Handles c server p [.packet server (.reply a.task p) (c.exchange? a.task)] c'
  | report {sessions : Table Address Session} {c' : Client} (hqueue : c'.queue server = c.queue server)
    (hp : p.isReport = true) (hreadable : p.isReadable = true)
    (h : c' = ({ c with sessions }.handleUpdate server p).2) :
    Handles c server p [.packet server (.unsolicited p) none] c'

theorem Sound.handles {rest : List Awaited} (h : Sound c)
    (hafter : Session.after? (c.queue server) p = some rest)
    (hr : c.receive server = (.ok (some (Session.classify (c.queue server) p).1), c')) :
    ∃ c'', c'.dispatch server (Session.classify (c.queue server) p).1 = (.ok (), c'') ∧
      c''.queue server = rest ∧
      Handles c server p (c'.dispatchHistory server (Session.classify (c.queue server) p).1) c'' := by
  obtain ⟨hreadable, -, ⟨a, hqueue, hreply, hevent⟩ | ⟨hreport, hqueue, hevent⟩⟩ :=
    Session.after?_eq_some hafter
  · rw [hevent] at hr ⊢
    have hrest : (c'.handleReply server a.task p).2.queue server = rest := by
      obtain ⟨b, hold, -⟩ := queue_of_reply hr
      rw [hold, List.cons.injEq] at hqueue
      rw [queue, sessions_handleReply]
      exact hqueue.2
    have hok : (c'.handleReply server a.task p).1 = .ok () := by
      cases hpending : c.tasks.get? a.task with
      | none =>
        obtain ⟨sessions, rfl⟩ := receive_keeps hr
        simp [handleReply, hpending]
      | some pending =>
        obtain ⟨rfl, x, hreads⟩ := h.reads hr hpending
        obtain ⟨k, hwaiting, hanswers⟩ := hreads.waiting
        rw [Session.isReply, Bool.and_eq_true] at hanswers
        have hread := Exchange.respond_of_isReadable hwaiting.fits hanswers.2 hreadable
        obtain ⟨sessions, rfl⟩ := receive_keeps hr
        rw [handleReply_waiting _ (c := { c with sessions }) hpending hwaiting hanswers.1]
        cases hrespond : x.respond p with
        | mk answer x' =>
          rw [hrespond] at hread
          obtain rfl : answer = .ok true := hread
          rfl
    refine ⟨_, Prod.ext hok rfl, hrest, ?_⟩
    obtain ⟨sessions, rfl⟩ := receive_keeps hr
    exact .reply (hqueue.trans (congrArg (a :: ·) hrest.symm)) hreply hreadable rfl
  · rw [hevent] at hr ⊢
    have hupdate : c'.dispatch server (.unsolicited p) = c'.handleUpdate server p := by
      rw [Packet.isReport] at hreport
      simp [dispatch, handleUnsolicited, hreport]
    have hsame : (c'.handleUpdate server p).2.queue server = c.queue server := by
      rw [queue, sessions_handleUpdate]
      exact queue_of_unsolicited hr server
    refine ⟨_, hupdate.trans (Prod.ext (handleUpdate_of_isReadable hreport hreadable) rfl),
      hsame.trans hqueue, ?_⟩
    simp only [dispatchHistory, hreport, if_true]
    obtain ⟨sessions, rfl⟩ := receive_keeps hr
    exact .report hsame hreport hreadable rfl

/-- After `past`, and after `log` since then, the packets to come are in order. -/
structure Orderly (settings : ClientSettings) (past : History) (server : Address) (log : History)
    (c : Client) (ps : List Packet) : Prop where
  chain : Chain Step (withSettings settings) (past ++ log) c
  order : ∃ rest, Session.afterAll? (c.queue server) ps = some rest

theorem Orderly.sound (h : Orderly settings past server log c ps) : Sound c :=
  sound_of_chain h.chain

/-- A step that makes nothing happen and leaves the queue as it is. -/
theorem Orderly.still (h : Orderly settings past server log c ps) (hstep : Drive c [] c')
    (hqueue : c'.queue server = c.queue server) : Orderly settings past server log c' ps where
  chain := by simpa using h.chain.tail (.drive hstep)
  order := by
    rw [hqueue]
    exact h.order

theorem Orderly.packet (h : Orderly settings past server log c (p :: ps))
    (hr : c.receive server = (.ok (some (Session.classify (c.queue server) p).1), c')) :
    ∃ new c'', c'.dispatch server (Session.classify (c.queue server) p).1 = (.ok (), c'') ∧
      c'.dispatchHistory server (Session.classify (c.queue server) p).1 = new ∧
      Handles c server p new c'' ∧ Orderly settings past server (log ++ new) c'' ps := by
  obtain ⟨rest, horder⟩ := h.order
  rw [Session.afterAll?_cons] at horder
  obtain ⟨next, hnext, hrest⟩ := Option.bind_eq_some_iff.1 horder
  obtain ⟨c'', hdispatch, rfl, hhandles⟩ := h.sound.handles hnext hr
  have hchain := (chain_dispatch hr).mono Step.drive
  rw [hdispatch] at hchain
  refine ⟨_, c'', hdispatch, rfl, hhandles, ?_, rest, hrest⟩
  rw [← List.append_assoc]
  exact h.chain.trans hchain

/-- What is kept by every packet in order is a course. It may tell of everything but the sessions, and of
the queue of the server. -/
theorem course_of_orderly {Q : History → Client → List Packet → Prop}
    (hstill : ∀ {log c ps} sessions, ({ c with sessions } : Client).queue server = c.queue server →
      Q log c ps → Q log { c with sessions } ps)
    (hpacket : ∀ {log c p ps new c'}, Orderly settings past server log c (p :: ps) →
      Q log c (p :: ps) → Handles c server p new c' → Orderly settings past server (log ++ new) c' ps →
      Q (log ++ new) c' ps) :
    Course server fun log c ps => Orderly settings past server log c ps ∧ Q log c ps where
  idle := by
    rintro log c ps c' ⟨horderly, hQ⟩ hr
    have hqueue := queue_of_receive_none hr server
    refine ⟨horderly.still (.idle hr) hqueue, ?_⟩
    obtain ⟨sessions, rfl⟩ := receive_keeps hr
    exact hstill sessions hqueue hQ
  arrival := by
    rintro log c ps a ⟨horderly, hQ⟩
    have hqueue := queue_deliver c a server
    refine ⟨horderly.still (.arrival c a) hqueue, ?_⟩
    obtain ⟨sessions, heq⟩ := deliver_keeps c a
    rw [heq] at hqueue ⊢
    exact hstill sessions hqueue hQ
  packet := by
    rintro log c p ps c' ⟨horderly, hQ⟩ hr
    obtain ⟨new, c'', hdispatch, rfl, hhandles, horderly'⟩ := horderly.packet hr
    exact ⟨c'', hdispatch, horderly', hpacket horderly hQ hhandles horderly'⟩

/-- The exchange `id` waits for the reply to the latest request, and the packets in front of it are in
order. -/
structure Expects (c : Client) (server : Address) (id : TaskId) (k : Kind) (x : Exchange)
    (before : List Packet) : Prop where
  held : ∃ pending, c.tasks.get? id = some pending ∧ pending.server = server ∧
    pending.detached = false ∧ Waiting pending k x
  order : Session.afterAll? (c.queue server) before = some [⟨id, k⟩]

/-- The exchange `id` is kept with what it has read, and the server has nothing left to answer. -/
structure Replied (c : Client) (server : Address) (id : TaskId) (x : Exchange) : Prop where
  held : ∃ done, c.tasks.get? id = some done ∧ done.task.state = .finished ∧
    done.task.responder = some x
  queue : c.queue server = []

/-- The packets in front of a reply leave the exchange to wait. -/
theorem Expects.next (h : Expects c server id k x (p :: before)) (hsound : Sound c)
    (hhandles : Handles c server p new c') : Expects c' server id k x before := by
  obtain ⟨pending, hpending, hwaits⟩ := h.held
  have horder := h.order
  rw [Session.afterAll?_cons] at horder
  cases hhandles with
  | @reply a sessions _ hqueue hp hreadable heq =>
    rw [hqueue, Session.after?_of_isReply hp hreadable, Option.bind_some] at horder
    have hmem : (⟨id, k⟩ : Awaited) ∈ c'.queue server :=
      (Session.suffix_of_afterAll? horder).mem List.mem_cons_self
    have hnodup := hsound.queue_nodup server
    rw [hqueue, List.map_cons, List.nodup_cons] at hnodup
    have hne : a.task ≠ id := by
      rintro rfl
      exact hnodup.1 (List.mem_map.2 ⟨_, hmem, rfl⟩)
    refine ⟨⟨pending, ?_, hwaits⟩, horder⟩
    rw [heq, tasks_handleReply_of_ne _ _ _ hne]
    exact hpending
  | report hqueue hp hreadable heq =>
    rw [Session.after?_of_isReport hp hreadable, Option.bind_some, ← hqueue] at horder
    refine ⟨⟨pending, ?_, hwaits⟩, horder⟩
    rw [heq, (handleUpdate_keeps _ _ _).2]
    exact hpending

/-- The reply is read by the exchange that waits for it. -/
theorem Expects.reply (h : Expects c server id k x []) (hp : Session.isReply p ⟨id, k⟩ = true)
    (hhandles : Handles c server p new c') :
    new = [.packet server (.reply id p) (some x)] ∧ Replied c' server id (x.respond p).2 := by
  obtain ⟨pending, hpending, rfl, hattended, hwaiting⟩ := h.held
  have hqueue : c.queue pending.server = [⟨id, k⟩] := Option.some.inj h.order
  cases hhandles with
  | @reply a sessions _ hqueue' _ hreadable heq =>
    rw [hqueue, List.cons.injEq] at hqueue'
    obtain ⟨rfl, hnone⟩ := hqueue'
    refine ⟨by simp [exchange?, hpending, hwaiting.responder], ?_, hnone.symm⟩
    rw [Session.isReply, Bool.and_eq_true] at hp
    have hread := Exchange.respond_of_isReadable hwaiting.fits hp.2 hreadable
    refine ⟨pending.replied (x.respond p).2, ?_, rfl, rfl⟩
    rw [heq, task_handleReply_waiting _ (c := { c with sessions }) hpending hwaiting hp.1, hread]
    exact if_pos ⟨rfl, hattended⟩
  | report _ hreport =>
    rw [Session.isReply_of_isReport hreport] at hp
    contradiction

/-- What comes behind the reply to the latest request answers nothing. -/
theorem Replied.next (h : Replied c server id x) (hhandles : Handles c server p new c') :
    Replied c' server id x := by
  cases hhandles with
  | reply hqueue =>
    rw [h.queue] at hqueue
    contradiction
  | report hqueue _ _ heq =>
    refine ⟨?_, hqueue.trans h.queue⟩
    rw [heq, (handleUpdate_keeps _ _ _).2]
    exact h.held

end Gearman.Client
