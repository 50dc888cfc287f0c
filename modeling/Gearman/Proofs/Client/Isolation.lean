import Gearman.Proofs.Client.Growth
import Gearman.Proofs.Client.Pool.Step
import Gearman.Proofs.Client.Queues

/-!
Servers are isolated from each other: what one of them sends, and the loss of its session, leave alone
all that hangs on the others.
-/

namespace Gearman.Client

variable {c c' c'' : Client} {server : Address}

/-- All that hangs on other servers than this one is in `c'` as it is in `c`. -/
structure Untouched (server : Address) (c c' : Client) : Prop where
  sessions : ∀ other, other ≠ server → c'.sessions.get? other = c.sessions.get? other
  tasks : ∀ id pending, pending.server ≠ server →
    (c'.tasks.get? id = some pending ↔ c.tasks.get? id = some pending)
  jobs : ∀ job, job.server ≠ server → c'.jobs.get? job = c.jobs.get? job
  finished : ∀ job, job.server ≠ server → c'.finished.get? job = c.finished.get? job
  updates : c'.updates.filter (·.job.server ≠ server) = c.updates.filter (·.job.server ≠ server)
  state : c'.state = c.state

theorem Untouched.refl (server : Address) (c : Client) : Untouched server c c :=
  ⟨fun _ _ => rfl, fun _ _ _ => .rfl, fun _ _ => rfl, fun _ _ => rfl, rfl, rfl⟩

theorem Untouched.trans (h : Untouched server c c') (h' : Untouched server c' c'') :
    Untouched server c c'' where
  sessions other hne := (h'.sessions other hne).trans (h.sessions other hne)
  tasks id pending hne := (h'.tasks id pending hne).trans (h.tasks id pending hne)
  jobs job hne := (h'.jobs job hne).trans (h.jobs job hne)
  finished job hne := (h'.finished job hne).trans (h.finished job hne)
  updates := h'.updates.trans h.updates
  state := h'.state.trans h.state

theorem Untouched.hasServer_eq (h : Untouched server c c') {other : Address} (hne : other ≠ server) :
    c'.hasServer other = c.hasServer other := by
  rw [hasServer, Table.contains, h.sessions other hne]
  rfl

/-- A session may change in its place. -/
theorem untouched_insert (c : Client) (server : Address) (s : Session) :
    Untouched server c { c with sessions := c.sessions.insert server s } where
  sessions _ hne := Table.get?_insert_of_ne (Ne.symm hne)
  tasks _ _ _ := .rfl
  jobs _ _ := rfl
  finished _ _ := rfl
  updates := rfl
  state := rfl

/-- A server that is lost takes nothing of the others along. -/
theorem Lost.untouched (h : Lost server c c') : Untouched server c c' where
  sessions := h.session_of_ne
  tasks id pending hne := by
    rw [h.tasks, Table.get?_filter, Option.filter_eq_some_iff]
    simp [hne]
  jobs job hne := by
    rw [h.jobs, Table.get?_filter]
    cases c.jobs.get? job <;> simp [hne]
  finished job _ := by rw [h.finished]
  updates := by simp [h.updates, List.filter_filter]
  state := h.state

/-- A job that is tracked from now on is one of the server that has told of it. -/
theorem untouched_track (c : Client) (job : JobHandle) (p : Packet) :
    Untouched job.server c (c.track job p) where
  sessions _ _ := rfl
  tasks _ _ _ := .rfl
  jobs other hne := Table.get?_insert_of_ne fun heq => hne (heq ▸ rfl)
  finished _ _ := rfl
  updates := by simp [track, note]
  state := rfl

/-- A reply changes the exchange that it answers, which is one with its server. -/
theorem untouched_handleReply {id : TaskId} {p : Packet} (hp : p.isResponse = true)
    (hasked : ∀ pending, c.tasks.get? id = some pending →
      pending.server = server ∧ ∃ k x, Waiting pending k x) :
    Untouched server c (c.handleReply server id p).2 := by
  cases hpending : c.tasks.get? id with
  | none =>
    rw [handleReply_none hpending]
    exact .refl server c
  | some pending =>
    obtain ⟨hserver, k, x, hwaiting⟩ := hasked pending hpending
    have hself := task_handleReply_waiting server hpending hwaiting hp
    obtain ⟨tasks, hother, -, heq⟩ := handleReply_eq server hpending hwaiting hp
    have hanswered : Untouched server c { c with tasks } := by
      -- The only entry that may change is one of this server, before and after.
      refine ⟨fun _ _ => rfl, fun other old hne => ?_, fun _ _ => rfl, fun _ _ => rfl, rfl, rfl⟩
      by_cases hid : other = id
      · have hnew : tasks.get? id = (c.handleReply server id p).2.tasks.get? id := by
          rw [heq]
          split <;> rfl
        subst hid
        dsimp only
        rw [hnew, hself, hpending]
        constructor
        · intro h
          split at h
          · cases h
            exact absurd hserver hne
          · contradiction
        · intro h
          cases h
          exact absurd hserver hne
      · dsimp only
        rw [hother other hid]
    rw [heq]
    split
    · exact hanswered.trans (untouched_track { c with tasks } ⟨p.payload, server⟩ p)
    · exact hanswered

/-- A report changes what is known of the job that it names, which is one of its server. -/
theorem untouched_handleUpdate (c : Client) (server : Address) (p : Packet) :
    Untouched server c (c.handleUpdate server p).2 := by
  have hsubject : ∀ {job : JobHandle}, job.server ≠ server → subject server p ≠ job :=
    fun hne heq => hne (heq ▸ rfl)
  cases hr : c.jobs.get? (subject server p) with
  | none =>
    rw [handleUpdate_none hr]
    exact .refl server c
  | some r =>
    cases hfinal : p.kind.isFinal with
    | true =>
      rw [handleUpdate_final hr hfinal]
      refine ⟨fun _ _ => rfl, fun _ _ _ => .rfl, fun job hne => ?_, fun job hne => ?_, ?_, rfl⟩
      · exact Table.get?_erase_of_ne (hsubject hne)
      · exact Table.get?_insert_of_ne (hsubject hne)
      · simp [subject]
    | false =>
      rw [handleUpdate_open hr hfinal]
      refine ⟨fun _ _ => rfl, fun _ _ _ => .rfl, fun job hne => ?_, fun _ _ => rfl, ?_, rfl⟩
      · exact Table.get?_insert_of_ne (hsubject hne)
      · split <;> simp [subject]

/-- How a client is left when it has handled what a server sends. -/
inductive Driven (server : Address) (c c' : Client) : Prop
  | kept (h : Untouched server c c') (hserver : c'.hasServer server = c.hasServer server)
  | dropped (h : Untouched server c c') {other : Address} (hne : other ≠ server)
    (hother : c.hasServer other = true)
  | ended (hlast : ∀ other, c.hasServer other = true ↔ other = server)
    (hstate : c'.state = .terminated) (hbare : Bare c')

/-- What was done before to the same server makes no difference. -/
theorem Driven.of_untouched (h : Driven server c' c'') (hbefore : Untouched server c c')
    (hserver : c'.hasServer server = c.hasServer server) : Driven server c c'' := by
  cases h with
  | kept h hserver' => exact .kept (hbefore.trans h) (hserver'.trans hserver)
  | dropped h hne hother => exact .dropped (hbefore.trans h) hne (hbefore.hasServer_eq hne ▸ hother)
  | ended hlast hstate hbare =>
    refine .ended (fun other => ?_) hstate hbare
    rw [← hlast other]
    by_cases heq : other = server
    · rw [heq, hserver]
    · rw [hbefore.hasServer_eq heq]

/-- What is done one after the other leaves the client as one of these, too. -/
theorem Driven.trans (h : Driven server c c') (h' : Driven server c' c'')
    (hrest : Bare c' → c'' = c') : Driven server c c'' := by
  cases h with
  | kept h hserver => exact h'.of_untouched h hserver
  | dropped h hne hother =>
    cases h' with
    | kept h' _ => exact .dropped (h.trans h') hne hother
    | dropped h' _ _ => exact .dropped (h.trans h') hne hother
    | ended hlast _ _ =>
      -- The server that is left from before cannot be the one that is now the last.
      exact absurd ((hlast _).1 (h.hasServer_eq hne ▸ hother)) hne
  | ended hlast hstate hbare =>
    rw [hrest hbare]
    exact .ended hlast hstate hbare

theorem untouched_receive {r : Except Error (Option Session.Event)} (h : c.receive server = (r, c')) :
    Untouched server c c' ∧ c'.hasServer server = c.hasServer server := by
  have hreplaced : ∀ {s s' : Session}, c.sessions.get? server = some s →
      Untouched server c { c with sessions := c.sessions.insert server s' } ∧
        hasServer { c with sessions := c.sessions.insert server s' } server = c.hasServer server := by
    intro s s' hs
    exact ⟨untouched_insert c server s', by simp [hasServer, Table.contains, hs]⟩
  cases r with
  | error e =>
    obtain ⟨s, s', hs, -, heq⟩ := receive_error h
    refine ⟨(lost_of_receive h).untouched, ?_⟩
    rw [heq, hasServer, Table.contains, sessions_resetSession Table.get?_insert_self]
    simp [hasServer, Table.contains, hs]
  | ok event =>
    cases event with
    | none =>
      obtain rfl | ⟨s, s', hs, -, rfl⟩ := receive_none h
      · exact ⟨.refl server c', rfl⟩
      · exact hreplaced hs
    | some event =>
      obtain ⟨s, s', hs, -, rfl⟩ := receive_some h
      exact hreplaced hs

/-- A server that is dropped is the last one, and the client ends, or there are others. -/
theorem driven_dropSession (h : Sound c) (hserver : c.hasServer server = true) :
    Driven server c (c.dropSession server) := by
  have hlost := lost_discard c server
  obtain ⟨s, hs⟩ := Table.contains_iff.1 hserver
  unfold dropSession
  dsimp only
  split
  · next hempty =>
    have hnone := Table.isEmpty_iff.1 hempty
    refine .ended (fun other => ⟨fun hother => ?_, fun heq => heq ▸ hserver⟩) (state_shutdownNow _)
      (bare_shutdownNow (hlost.state ▸ h.state_ne hs))
    refine Classical.byContradiction fun hne => ?_
    obtain ⟨t, ht⟩ := Table.contains_iff.1 hother
    have hgone := hnone other
    rw [hlost.session_of_ne other hne, ht] at hgone
    contradiction
  · next hothers =>
    have hsome := fun h => hothers (Table.isEmpty_iff.2 h)
    obtain ⟨other, hother⟩ := Classical.not_forall.1 hsome
    rw [sessions_discard, Table.get?_erase] at hother
    split at hother
    · contradiction
    · next hne =>
      obtain ⟨t, ht⟩ := Option.ne_none_iff_exists'.1 hother
      exact .dropped hlost.untouched (Ne.symm hne) (Table.contains_iff.2 ⟨t, ht⟩)

/-- What one packet of a server does. -/
theorem Sound.driven_dispatch (h : Sound c) {event : Session.Event}
    (hr : c.receive server = (.ok (some event), c')) :
    Driven server c (c'.dispatch server event).2 := by
  obtain ⟨hread, hserver⟩ := untouched_receive hr
  cases event with
  | reply id p =>
    obtain ⟨a, hqueue, hid, hreply⟩ := queue_of_reply hr
    rw [Session.isReply, Bool.and_eq_true] at hreply
    obtain ⟨sessions, rfl⟩ := receive_keeps hr
    refine .kept (hread.trans (untouched_handleReply hreply.1 fun pending hpending => ?_)) ?_
    · obtain ⟨hplace, x, hwaiting⟩ :=
        h.queue_task server a (hqueue ▸ List.mem_cons_self) pending (hid ▸ hpending)
      exact ⟨hplace, a.kind, x, hwaiting⟩
    · exact (congrArg (Table.contains · server) (sessions_handleReply _ server id p)).trans hserver
  | unsolicited p =>
    have hsound := h.receive_unsolicited hr
    simp only [dispatch, handleUnsolicited]
    split
    · refine .kept (hread.trans (untouched_handleUpdate c' server p)) ?_
      exact (congrArg (Table.contains · server) (sessions_handleUpdate c' server p)).trans hserver
    · obtain ⟨s, s', hs, -, -⟩ := receive_some hr
      have hthere : c.hasServer server = true := Table.contains_iff.2 ⟨s, hs⟩
      rw [hserver.symm] at hthere
      exact (driven_dropSession hsound hthere).of_untouched hread hserver

theorem pump_of_bare (h : Bare c) (server : Address) : c.pump server = (.ok (), c) :=
  pump_idle (by simp [receive, h.sessions])

/-- What all packets of a server do that have arrived. -/
theorem Sound.driven_pump (h : Sound c) (server : Address) :
    Driven server c (c.pump server).2 := by
  -- The induction is on the packets that are read, and `Sound` is what carries it: it says that the
  -- exchanges in the queue of the server are exchanges with that server.
  fun_induction pump c server with
  | case1 c e c' hreceive =>
    obtain ⟨hread, hserver⟩ := untouched_receive hreceive
    exact .kept hread hserver
  | case2 c c' hreceive =>
    obtain ⟨hread, hserver⟩ := untouched_receive hreceive
    exact .kept hread hserver
  | case3 c event c' hreceive e c'' hdispatch =>
    have hdriven := h.driven_dispatch hreceive
    rwa [hdispatch] at hdriven
  | case4 c event c' hreceive c'' hdispatch ih =>
    have hdriven := h.driven_dispatch hreceive
    have hsound := (chain_dispatch hreceive).invariant (fun hstep hc => hc.drive hstep) h
    rw [hdispatch] at hdriven hsound
    exact hdriven.trans (ih hsound) fun hbare => by rw [pump_of_bare hbare]

theorem untouched_deliver (c : Client) (a : Arrival) :
    Untouched a.server c (c.deliver a).1 ∧ (c.deliver a).1.hasServer a.server = c.hasServer a.server := by
  unfold deliver
  split
  · exact ⟨.refl _ c, rfl⟩
  · next s hs => exact ⟨untouched_insert c a.server _, by simp [hasServer, Table.contains, hs]⟩

/-- Lets what a server sends arrive, in any number of parts, and then reads all that is there. -/
def attend (c : Client) (server : Address) (arrivals : List Arrival) : Client :=
  ((arrivals.foldl (fun c a => (c.deliver a).1) c).pump server).2

theorem Sound.driven_attend (h : Sound c) {arrivals : List Arrival}
    (harrivals : ∀ a ∈ arrivals, a.server = server) :
    Sound (c.attend server arrivals) ∧ Driven server c (c.attend server arrivals) := by
  unfold attend
  induction arrivals generalizing c with
  | nil =>
    exact ⟨(chain_pump c server).invariant (fun hstep hc => hc.drive hstep) h, h.driven_pump server⟩
  | cons a rest ih =>
    obtain ⟨hsound, hdriven⟩ := ih (h.deliver a) fun b hb => harrivals b (List.mem_cons_of_mem _ hb)
    obtain ⟨harrived, hserver⟩ := untouched_deliver c a
    rw [harrivals a List.mem_cons_self] at harrived hserver
    exact ⟨hsound, hdriven.of_untouched harrived hserver⟩

theorem attend_of_bare (h : Bare c) (server : Address) (arrivals : List Arrival) :
    c.attend server arrivals = c := by
  have hdeliver : ∀ a, (c.deliver a).1 = c := fun a => by simp [deliver, h.sessions]
  unfold attend
  induction arrivals with
  | nil => rw [List.foldl_nil, pump_of_bare h]
  | cons a rest ih => rw [List.foldl_cons, hdeliver, ih]

/-- Lets a server send something and reads it, again and again. -/
def attendAll (c : Client) (server : Address) (rounds : List (List Arrival)) : Client :=
  rounds.foldl (fun c arrivals => c.attend server arrivals) c

theorem attendAll_of_bare (h : Bare c) (server : Address) (rounds : List (List Arrival)) :
    c.attendAll server rounds = c := by
  unfold attendAll
  induction rounds with
  | nil => rfl
  | cons arrivals rest ih => rw [List.foldl_cons, attend_of_bare h, ih]

theorem Sound.driven_attendAll (h : Sound c) {rounds : List (List Arrival)}
    (harrivals : ∀ arrivals ∈ rounds, ∀ a ∈ arrivals, a.server = server) :
    Driven server c (c.attendAll server rounds) := by
  induction rounds generalizing c with
  | nil => exact .kept (.refl server c) rfl
  | cons arrivals rest ih =>
    obtain ⟨hsound, hdriven⟩ := h.driven_attend (harrivals arrivals List.mem_cons_self)
    exact hdriven.trans (ih hsound fun later hlater => harrivals later (List.mem_cons_of_mem _ hlater))
      fun hbare => attendAll_of_bare hbare server rest

/-- The server was the only one in the pool of `c` and has lost its place there in `c'`. -/
structure DropsLast (server : Address) (c c' : Client) : Prop where
  last : ∀ other, c.hasServer other = true ↔ other = server
  gone : c'.hasServer server = false

/-- Whatever one server sends, and however its session ends, all that hangs on other servers stays as
it is: their sessions and the exchanges with them, their jobs and the news and results of these, under
handles that the servers share as well. Only the last server takes everything along when it is dropped,
and then the client ends. This holds of clients in the middle of any operation. -/
theorem servers_are_isolated {settings : ClientSettings} {log : History}
    (h : Chain Step (withSettings settings) log c) {rounds : List (List Arrival)}
    (harrivals : ∀ arrivals ∈ rounds, ∀ a ∈ arrivals, a.server = server) :
    (DropsLast server c (c.attendAll server rounds) →
      (c.attendAll server rounds).state = .terminated ∧ Bare (c.attendAll server rounds)) ∧
    (¬DropsLast server c (c.attendAll server rounds) →
      Untouched server c (c.attendAll server rounds)) := by
  have hdriven := (sound_of_chain h).driven_attendAll harrivals
  generalize c.attendAll server rounds = c' at hdriven
  cases hdriven with
  | kept huntouched hserver =>
    refine ⟨fun hdrops => ?_, fun _ => huntouched⟩
    have hthere := hserver.trans ((hdrops.last server).2 rfl)
    rw [hdrops.gone] at hthere
    contradiction
  | dropped huntouched hne hother =>
    exact ⟨fun hdrops => absurd ((hdrops.last _).1 hother) hne, fun _ => huntouched⟩
  | ended hlast hstate hbare =>
    exact ⟨fun _ => ⟨hstate, hbare⟩, fun hnot => absurd ⟨hlast, by simp [hasServer, hbare.sessions]⟩ hnot⟩

namespace Errand

/-- A second server. -/
def backup : Address := ⟨"backup", 4730⟩

/-- The client that knows of a job at one server and has just submitted one to another. -/
def spread : Client :=
  ((occupied.addServer backup).2.start (hearing []) backup (.request .submitJob [0, 0])
    (.submission false none)).2

theorem evolves_spread : Evolves Step (withSettings {}) spread :=
  (evolves_occupied.trans (.single (.added occupied backup))).trans
    (evolves_start (hearing []) backup rfl)

end Errand

open Errand

/-- The second server gives its job the handle that the first has given to another one, reports that it
is done, and resets the connection. -/
theorem servers_are_isolated_same_handle : ∃ log rounds,
    Chain Step (withSettings {}) log spread ∧
    rounds = [[⟨backup, (created [0x42]).encode, .none⟩],
      [⟨backup, (Packet.response .workComplete [0x42, 0, 0x78]).encode, .reset⟩]] ∧
    spread.jobs.get? ⟨[0x42], .default⟩ = some (.pending [0x42]) ∧
    (spread.attendAll backup rounds).jobs.get? ⟨[0x42], .default⟩ = some (.pending [0x42]) ∧
    Untouched backup spread (spread.attendAll backup rounds) := by
  let rounds : List (List Arrival) := [[⟨backup, (created [0x42]).encode, .none⟩],
    [⟨backup, (Packet.response .workComplete [0x42, 0, 0x78]).encode, .reset⟩]]
  obtain ⟨log, hlog⟩ := evolves_spread
  have harrivals : ∀ arrivals ∈ rounds, ∀ a ∈ arrivals, a.server = backup := by simp [rounds]
  have hserver : spread.hasServer .default = true := by cbv
  have hjob : spread.jobs.get? ⟨[0x42], .default⟩ = some (.pending [0x42]) := by cbv
  have huntouched := (servers_are_isolated hlog harrivals).2 fun hdrops =>
    absurd ((hdrops.last .default).1 hserver) (by decide)
  exact ⟨log, rounds, hlog, rfl, hjob, (huntouched.jobs _ (by decide)).trans hjob, huntouched⟩

end Gearman.Client
