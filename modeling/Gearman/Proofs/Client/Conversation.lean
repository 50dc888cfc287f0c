import Gearman.Proofs.Client.Evolution
import Gearman.Proofs.Client.Order
import Gearman.Proofs.Client.Pool.Retired
import Gearman.Proofs.Client.Pool.Tidy
import Mathlib.Data.List.Nodup

/-!
What is said between a client and one of its servers. As long as the session of the server is not lost,
requests are added at the end of the server's queue, and each reply is handed to the exchange at the front.
So the replies go to the requests in the order of the requests, whoever still waits for them.
-/

namespace Gearman

/-- The packet of a server that was handled, if it is no news of a job. -/
def Client.Happening.answer? (server : Address) : Client.Happening → Option Packet
  | .packet source event _ =>
    if source = server ∧ event.packet.isReport = false then some event.packet else none
  | _ => none

namespace Client

variable {c c' : Client} {server : Address} {log new : History} {id : TaskId} {p request : Packet}
  {settings : ConnectionSettings} {asked : List (TaskId × Packet)}

/-- What the session of a server has sent. -/
def sentTo (c : Client) (server : Address) : List Packet := (c.sessions.get? server).elim [] (·.sent)

/-- The packets of a server that are no news of jobs, in the order in which they were handled. -/
def answersFrom (server : Address) (log : History) : List Packet := log.filterMap (·.answer? server)

/-- The replies of a server, with the exchanges that they were handed to. -/
def repliesFrom (server : Address) (log : History) : List (TaskId × Packet) :=
  log.filterMap (·.reply? server)

/-- What a step of a client that keeps the session of a server does to what is said between them. -/
inductive Utterance (server : Address) (c : Client) (log : History) (c' : Client) : Prop
  | none (hqueue : c'.queue server = c.queue server) (hsent : c'.sentTo server = c.sentTo server)
    (hissued : c.issued ≤ c'.issued) (hreplies : repliesFrom server log = [])
    (hanswers : answersFrom server log = [])
  | request (request : Packet) (hqueue : c'.queue server = c.queue server ++ [⟨c.issued, request.kind⟩])
    (hsent : c'.sentTo server = c.sentTo server ++ [request]) (hissued : c'.issued = c.issued + 1)
    (hlog : log = [])
  | reply (a : Awaited) (p : Packet) (hqueue : c.queue server = a :: c'.queue server)
    (hsent : c'.sentTo server = c.sentTo server) (hissued : c'.issued = c.issued)
    (hreplies : repliesFrom server log = [(a.task, p)]) (hanswers : answersFrom server log = [p])

theorem sentTo_insert_same {source : Address} {s s' : Session} (hs : c.sessions.get? source = some s)
    (hsent : s'.sent = s.sent) (server : Address) :
    ({ c with sessions := c.sessions.insert source s' } : Client).sentTo server = c.sentTo server := by
  simp only [sentTo, Table.get?_insert]
  split
  · next heq => simp [← heq, hs, hsent]
  · rfl

theorem sentTo_deliver (c : Client) (a : Arrival) (server : Address) :
    (c.deliver a).1.sentTo server = c.sentTo server := by
  unfold Client.deliver
  split
  · rfl
  · next s hs => exact sentTo_insert_same hs (s.sent_deliver a) server

theorem sentTo_session (c : Client) (env : Surroundings) (opened server : Address) :
    (c.session env opened).2.sentTo server = c.sentTo server := by
  unfold Client.session
  split
  · rfl
  · next s hs =>
    split
    · rfl
    · split
      · next s' hinit => exact sentTo_insert_same hs (Session.sent_of_init hinit) server
      · next e s' hinit => exact sentTo_insert_same hs (by rw [Session.init_error hinit]) server

/-- Reading sends nothing. -/
theorem Tidy.sentTo_receive {source : Address} {event : Option Session.Event} (h : c.Tidy settings)
    (hr : c.receive source = (.ok event, c')) (server : Address) : c'.sentTo server = c.sentTo server := by
  have hsame : ∀ {s s'}, c.sessions.get? source = some s → s.step = (.ok event, s') → s'.sent = s.sent :=
    fun hs hstep => (((h.session _ _ hs).clear (Session.isLive_of_step hstep).1).step hstep).2.1
  cases event with
  | none =>
    obtain rfl | ⟨s, s', hs, hstep, rfl⟩ := receive_none hr
    · rfl
    · exact sentTo_insert_same hs (hsame hs hstep) server
  | some event =>
    obtain ⟨s, s', hs, hstep, rfl⟩ := receive_some hr
    exact sentTo_insert_same hs (hsame hs hstep) server

/-- A request that is asked is sent. -/
theorem Tidy.sentTo_ask {s : Session} {task : Task Exchange} (h : c.Tidy settings)
    (hs : c.sessions.get? server = some s) (hfresh : task.state = .fresh)
    (hask : c.ask server s task = (.ok id, c')) :
    c'.sentTo server = c.sentTo server ++ [task.request] := by
  unfold Client.ask at hask
  dsimp only at hask
  split at hask
  · next s' task' hsubmit =>
    cases hask
    obtain ⟨-, -, hlive, -⟩ := Session.submit_ok hsubmit hfresh
    obtain ⟨-, hsent, -⟩ := ((h.session server s hs).clear hlive).submit_ok hsubmit hfresh
    simp [sentTo, Table.get?_insert_self, hs, hsent]
  · simp at hask

namespace Utterance

/-- Who does not touch the session of a server says nothing to it. -/
theorem of_session (hsession : c'.sessions.get? server = c.sessions.get? server)
    (hissued : c.issued ≤ c'.issued) (hreplies : repliesFrom server log = [])
    (hanswers : answersFrom server log = []) : Utterance server c log c' :=
  .none (by simp only [queue, hsession]) (by simp only [sentTo, hsession]) hissued hreplies hanswers

/-- Losing another session says nothing to this server. -/
theorem of_lost {other : Address} (h : Lost other c c')
    (hkept : (Happening.forgotten other).forgets server = false) :
    Utterance server c [.forgotten other] c' := by
  have hne : other ≠ server := by simpa [Happening.forgets] using hkept
  exact of_session (h.session_of_ne server (Ne.symm hne)) h.issued_le rfl rfl

theorem of_drive (htidy : c.Tidy settings) (h : Drive c log c')
    (hkept : ∀ e ∈ log, e.forgets server = false) : Utterance server c log c' := by
  cases h with
  | arrival a =>
    refine .none (queue_deliver c a server) (sentTo_deliver c a server) (Nat.le_of_eq ?_) rfl rfl
    obtain ⟨sessions, heq⟩ := deliver_keeps c a
    rw [heq]
  | idle hr =>
    refine .none (queue_of_receive_none hr server) (htidy.sentTo_receive hr server) (Nat.le_of_eq ?_) rfl rfl
    obtain ⟨sessions, rfl⟩ := receive_keeps hr
    rfl
  | failed hr => exact of_lost (lost_of_receive hr) (hkept _ List.mem_cons_self)
  | @reply c₁ source id p hr =>
    obtain ⟨tasks, jobs, updates, heq⟩ := handleReply_frame c₁ source id p
    rw [heq]
    have hsent := htidy.sentTo_receive hr server
    have hissued : c₁.issued = c.issued := by
      obtain ⟨sessions, rfl⟩ := receive_keeps hr
      rfl
    by_cases hsource : source = server
    · subst hsource
      obtain ⟨a, hqueue, rfl, hreply⟩ := queue_of_reply hr
      have hreport : p.isReport = false := by
        cases hreport : p.isReport with
        | false => rfl
        | true =>
          rw [Session.isReply_of_isReport hreport] at hreply
          contradiction
      refine .reply a p hqueue hsent hissued ?_ ?_
      · simp [repliesFrom, Happening.reply?]
      · simp [answersFrom, Happening.answer?, Session.Event.packet, hreport]
    · obtain ⟨s, s', -, -, rfl⟩ := receive_some hr
      refine of_session (Table.get?_insert_of_ne hsource) (Nat.le_refl _) ?_ ?_
      · simp [repliesFrom, Happening.reply?, hsource]
      · simp [answersFrom, Happening.answer?, hsource]
  | @report c₁ source p hr hp =>
    obtain ⟨jobs, finished, updates, heq⟩ := handleUpdate_frame c₁ source p
    rw [heq]
    refine .none (queue_of_unsolicited hr server) (htidy.sentTo_receive hr server) (Nat.le_of_eq ?_) rfl ?_
    · obtain ⟨sessions, rfl⟩ := receive_keeps hr
      rfl
    · simp [answersFrom, Happening.answer?, Session.Event.packet, hp]
  | @expelled c₁ source p hr =>
    have hne : source ≠ server := by simpa [Happening.forgets] using hkept
    obtain ⟨s, s', -, -, rfl⟩ := receive_some hr
    have hlost := lost_discard { c with sessions := c.sessions.insert source s' } source
    refine of_session ?_ hlost.issued_le rfl ?_
    · exact (hlost.session_of_ne server (Ne.symm hne)).trans (Table.get?_insert_of_ne hne)
    · simp [answersFrom, Happening.answer?, hne]
  | deserted => simp [Happening.forgets] at hkept

theorem of_step (htidy : c.Tidy settings) (h : Step c log c')
    (hkept : ∀ e ∈ log, e.forgets server = false) : Utterance server c log c' := by
  cases h with
  | drive hdrive => exact of_drive htidy hdrive hkept
  | added source =>
    unfold Client.addServer
    repeat' split
    · exact of_session rfl (Nat.le_refl _) rfl rfl
    · exact of_session rfl (Nat.le_refl _) rfl rfl
    · next hnew =>
      have hnone : c.sessions.get? source = .none := by simpa [hasServer, Table.contains] using hnew
      refine .none ?_ ?_ (Nat.le_refl _) rfl rfl
      · rw [queue_insert rfl]
        split
        · next heq => simp [← heq, queue, hnone, Session.awaiting]
        · rfl
      · simp only [sentTo, Table.get?_insert]
        split
        · next heq => simp [← heq, hnone, Session.sent]
        · rfl
  | removed => exact of_lost (lost_discard _ _) (hkept _ List.mem_cons_self)
  | opened env source =>
    refine .none (queue_session c env source server) (sentTo_session c env source server)
      (Nat.le_of_eq ?_) rfl rfl
    obtain ⟨sessions, heq⟩ := session_keeps c env source
    rw [heq]
  | @asked _ source s request x task id hs hx htask hask =>
    obtain ⟨-, hrequest, -, hfresh⟩ := new_ok htask
    have hsent := htidy.sentTo_ask hs hfresh hask
    obtain ⟨-, s', pending, -, -, hawaiting, -, -, -, rfl⟩ := ask_waiting hx htask hask
    by_cases hsource : source = server
    · subst hsource
      rw [hrequest] at hsent
      refine .request request ?_ hsent rfl rfl
      rw [queue_insert rfl, if_pos rfl, hawaiting, queue_of_get? hs]
    · exact of_session (Table.get?_insert_of_ne hsource) (Nat.le_succ _) rfl rfl
  | refused hs htask hask he =>
    rw [ask_refused hask (new_ok htask).2.2.2 he]
    exact .none (queue_insert_same hs rfl server) (sentTo_insert_same hs rfl server) (Nat.le_succ _) rfl rfl
  | severed hs htask hask he =>
    exact of_lost (ask_severed hs hask he) (hkept _ List.mem_cons_self)
  | released id => exact of_session rfl (Nat.le_refl _) rfl rfl
  | detached =>
    unfold detach
    split <;> exact of_session rfl (Nat.le_refl _) rfl rfl
  | collected hr =>
    simp only [takeResult, hr]
    exact of_session rfl (Nat.le_refl _) rfl rfl
  | drained => exact of_session rfl (Nat.le_refl _) rfl rfl
  | closing => exact of_session rfl (Nat.le_refl _) rfl rfl
  | ended => simp [Happening.forgets] at hkept

theorem issued_le (h : Utterance server c log c') : c.issued ≤ c'.issued := by
  cases h with
  | none hqueue hsent hissued => exact hissued
  | request request hqueue hsent hissued => exact hissued ▸ Nat.le_succ c.issued
  | reply a p hqueue hsent hissued => exact Nat.le_of_eq hissued.symm

end Utterance

/-- No number is given twice. -/
theorem issued_le_of_chain (htidy : c.Tidy settings) (h : Chain Step c log c')
    (hkept : ∀ e ∈ log, e.forgets server = false) : c.issued ≤ c'.issued := by
  induction h with
  | refl => exact Nat.le_refl _
  | @tail c₁ c₂ before new hbefore hstep ih =>
    obtain ⟨hbefore_kept, hnew_kept⟩ := List.forall_mem_append.1 hkept
    have hutterance := Utterance.of_step (htidy.chain hbefore) hstep hnew_kept
    exact Nat.le_trans (ih hbefore_kept) hutterance.issued_le

/-- Servers make a client say nothing. -/
theorem sentTo_drive (htidy : c.Tidy settings) (h : Drive c log c')
    (hkept : ∀ e ∈ log, e.forgets server = false) : c'.sentTo server = c.sentTo server := by
  cases Utterance.of_drive htidy h hkept with
  | none _ hsent => exact hsent
  | reply _ _ _ hsent => exact hsent
  | request request hqueue =>
    have hlonger := (queue_drive h server).length_le
    simp only [hqueue, List.length_append, List.length_singleton] at hlonger
    omega

theorem sentTo_drives (htidy : c.Tidy settings) (h : Chain Drive c log c')
    (hkept : ∀ e ∈ log, e.forgets server = false) : c'.sentTo server = c.sentTo server := by
  induction h with
  | refl => rfl
  | @tail c₁ c₂ before new hbefore hstep ih =>
    have htidy₁ := htidy.chain (hbefore.mono .drive)
    obtain ⟨hbefore_kept, hnew_kept⟩ := List.forall_mem_append.1 hkept
    exact (sentTo_drive htidy₁ hstep hnew_kept).trans (ih hbefore_kept)

/-- An exchange that is begun sends its request. -/
theorem Tidy.sentTo_start {env : Surroundings} {x : Exchange} (h : c.Tidy settings)
    (hstart : c.start env server request x = (.ok id, c')) :
    c'.sentTo server = c.sentTo server ++ [request] := by
  unfold start at hstart
  split at hstart
  · simp at hstart
  · next task htask =>
    obtain ⟨-, hrequest, -, hfresh⟩ := new_ok htask
    have hopened := h.session_of env server
    have hsent := sentTo_session c env server server
    split at hstart
    · simp at hstart
    · next s c₁ hsession =>
      rw [hsession] at hopened hsent
      rw [hopened.sentTo_ask (session_ok hsession).1 hfresh hstart, hsent, hrequest]

/-- What was said between a client and a server since the session of the server was opened. `asked` are the
requests, each with its exchange, in the order in which they were sent. -/
structure Conversation (server : Address) (log : History) (c : Client) (asked : List (TaskId × Packet)) :
    Prop where
  tasks : (repliesFrom server log).map (·.1) ++ (c.queue server).map (·.task) = asked.map (·.1)
  sent : c.sentTo server = asked.map (·.2)
  answers : answersFrom server log = (repliesFrom server log).map (·.2)
  nodup : (asked.map (·.1)).Nodup
  issued : ∀ a ∈ asked, a.1 < c.issued

namespace Conversation

theorem unopened (h : Sound c) (hdead : ¬ c.IsLiveAt server) : Conversation server [] c [] := by
  have hsaid : c.queue server = [] ∧ c.sentTo server = [] := by
    unfold queue sentTo
    cases hs : c.sessions.get? server with
    | none => exact ⟨rfl, rfl⟩
    | some s =>
      have hopen := (h.session server s hs).2
      have hlive : s.isLive = false := Bool.eq_false_iff.2 fun hlive => hdead ⟨s, hs, hlive⟩
      refine ⟨Session.awaiting_eq_nil hlive, ?_⟩
      unfold Session.isLive at hlive
      unfold Session.isClosed at hopen
      simp only [Option.elim_some, Session.sent]
      split <;> simp_all
  exact ⟨by simp [repliesFrom, hsaid.1], hsaid.2, rfl, List.nodup_nil, by simp⟩

theorem utter (h : Conversation server log c asked) (hstep : Utterance server c new c') :
    ∃ more, Conversation server (log ++ new) c' (asked ++ more) := by
  have happend : repliesFrom server (log ++ new) = repliesFrom server log ++ repliesFrom server new ∧
      answersFrom server (log ++ new) = answersFrom server log ++ answersFrom server new :=
    ⟨List.filterMap_append, List.filterMap_append⟩
  cases hstep with
  | none hqueue hsent hissued hreplies hanswers =>
    refine ⟨[], ?_, ?_, ?_, ?_, ?_⟩
    · rw [happend.1, hreplies, hqueue, List.append_nil, List.append_nil, h.tasks]
    · rw [hsent, h.sent, List.append_nil]
    · rw [happend.1, happend.2, hreplies, hanswers, List.append_nil, List.append_nil, h.answers]
    · simpa using h.nodup
    · intro a ha
      rw [List.append_nil] at ha
      exact Nat.lt_of_lt_of_le (h.issued a ha) hissued
  | request request hqueue hsent hissued hlog =>
    subst hlog
    refine ⟨[(c.issued, request)], ?_, ?_, ?_, ?_, ?_⟩
    · rw [List.append_nil, hqueue, List.map_append, ← List.append_assoc, h.tasks, List.map_append]
      rfl
    · rw [hsent, h.sent, List.map_append]
      rfl
    · rw [List.append_nil, h.answers]
    · -- The number of the new exchange is beyond all numbers so far.
      have hfresh : c.issued ∉ asked.map (·.1) := fun hmem => by
        obtain ⟨a, ha, heq⟩ := List.mem_map.1 hmem
        exact Nat.lt_irrefl _ (heq ▸ h.issued a ha)
      rw [List.map_append]
      refine List.nodup_append.2 ⟨h.nodup, List.nodup_singleton _, fun id hid other hother heq => ?_⟩
      rw [heq, List.mem_singleton.1 hother] at hid
      exact hfresh hid
    · intro a ha
      rw [hissued]
      rcases List.mem_append.1 ha with ha | ha
      · exact Nat.lt_succ_of_lt (h.issued a ha)
      · rw [List.mem_singleton.1 ha]
        exact Nat.lt_succ_self _
  | reply a p hqueue hsent hissued hreplies hanswers =>
    refine ⟨[], ?_, ?_, ?_, ?_, ?_⟩
    · have htasks := h.tasks
      rw [hqueue, List.map_cons] at htasks
      rw [happend.1, hreplies, List.append_nil, ← htasks]
      simp
    · rw [hsent, h.sent, List.append_nil]
    · rw [happend.1, happend.2, hreplies, hanswers, h.answers, List.map_append]
      rfl
    · simpa using h.nodup
    · rw [hissued, List.append_nil]
      exact h.issued

theorem chain (h : Conversation server log c asked) (htidy : c.Tidy settings)
    (hchain : Chain Step c new c') (hkept : ∀ e ∈ new, e.forgets server = false) :
    ∃ more, Conversation server (log ++ new) c' (asked ++ more) := by
  induction hchain with
  | refl => exact ⟨[], by simpa using h⟩
  | @tail c₁ c₂ before last hbefore hstep ih =>
    obtain ⟨hbefore_kept, hlast_kept⟩ := List.forall_mem_append.1 hkept
    obtain ⟨more, hmore⟩ := ih hbefore_kept
    obtain ⟨most, hmost⟩ := hmore.utter (.of_step (htidy.chain hbefore) hstep hlast_kept)
    exact ⟨more ++ most, by simpa using hmost⟩

/-- The n-th packet that is no news of a job is the reply to the n-th request. -/
theorem getElem?_answersFrom (h : Conversation server log c asked) {n : Nat}
    (hn : asked[n]? = some (id, request)) :
    (answersFrom server log)[n]? = some p ↔ (id, p) ∈ repliesFrom server log := by
  have hid : ∀ {m : Nat} {other q}, (repliesFrom server log)[m]? = some (other, q) →
      (asked.map (·.1))[m]? = some other := by
    intro m other q hm
    have hlt := (List.getElem?_eq_some_iff.1 hm).1
    rw [← h.tasks, List.getElem?_append_left (by simpa using hlt), List.getElem?_map, hm]
    rfl
  rw [h.answers, List.getElem?_map, Option.map_eq_some_iff]
  constructor
  · rintro ⟨⟨other, q⟩, hreply, rfl⟩
    have hother := hid hreply
    rw [List.getElem?_map, hn] at hother
    obtain rfl : id = other := Option.some.inj hother
    exact List.mem_of_getElem? hreply
  · intro hmem
    obtain ⟨m, hm⟩ := List.mem_iff_getElem?.1 hmem
    have hsame : (asked.map (·.1))[m]? = (asked.map (·.1))[n]? := by
      rw [hid hm, List.getElem?_map, hn]
      rfl
    obtain ⟨hlt, -⟩ := List.getElem?_eq_some_iff.1 (hid hm)
    obtain rfl := (List.getElem?_inj hlt h.nodup).1 hsame
    exact ⟨_, hm, rfl⟩

/-- A reply whose exchange still waits was not handled. -/
theorem not_mem_repliesFrom (h : Conversation server log c asked) {a : Awaited}
    (ha : a ∈ c.queue server) : (a.task, p) ∉ repliesFrom server log := by
  intro hmem
  have hnodup := h.tasks ▸ h.nodup
  exact (List.nodup_append.1 hnodup).2.2 _ (List.mem_map.2 ⟨_, hmem, rfl⟩) _ (List.mem_map.2 ⟨a, ha, rfl⟩)
    rfl

/-- No exchange is handed two replies. -/
theorem answers_once {before since : History} {e : Happening}
    (h : Conversation server (before ++ e :: since) c asked) (he : e.answers server id = true) :
    ∀ e' ∈ before ++ since, e'.answers server id = false := by
  obtain ⟨p, hreply⟩ := Happening.answers_iff.1 he
  have hnodup := h.tasks ▸ h.nodup
  rw [repliesFrom, List.filterMap_append, List.filterMap_cons_some hreply, List.map_append, List.map_cons]
    at hnodup
  have hfirst := (List.nodup_cons.1 (List.nodup_middle.1 (List.nodup_append.1 hnodup).1)).1
  intro e' he'
  refine Bool.eq_false_iff.2 fun hanswers => hfirst ?_
  obtain ⟨q, hreply'⟩ := Happening.answers_iff.1 hanswers
  rw [← List.map_append, ← List.filterMap_append]
  exact List.mem_map.2 ⟨_, List.mem_filterMap.2 ⟨e', he', hreply'⟩, rfl⟩

end Conversation

/-- The request of an exchange was the `n`-th one that was sent over the session of the server. -/
def Placed (server : Address) (log : History) (c : Client) (n : Nat) (id : TaskId) (request : Packet) :
    Prop :=
  ∃ asked, Conversation server log c asked ∧ asked[n]? = some (id, request)

theorem Placed.chain {n : Nat} (h : Placed server log c n id request) (htidy : c.Tidy settings)
    (hchain : Chain Step c new c') (hkept : ∀ e ∈ new, e.forgets server = false) :
    Placed server (log ++ new) c' n id request := by
  obtain ⟨asked, hconversation, hn⟩ := h
  obtain ⟨more, hmore⟩ := hconversation.chain htidy hchain hkept
  refine ⟨_, hmore, ?_⟩
  rwa [List.getElem?_append_left (List.getElem?_eq_some_iff.1 hn).1]

/-- The reply to the `n`-th request is the `n`-th packet that is no news of a job, and comes once. -/
theorem Placed.answered {n : Nat} {before since : History} {x : Option Exchange}
    (h : Placed server (before ++ .packet server (.reply id p) x :: since) c n id request) :
    (answersFrom server (before ++ .packet server (.reply id p) x :: since))[n]? = some p ∧
      ∀ e ∈ before ++ since, e.answers server id = false := by
  obtain ⟨asked, hconversation, hn⟩ := h
  have hreply : (Happening.packet server (.reply id p) x).reply? server = some (id, p) := by
    simp [Happening.reply?]
  refine ⟨?_, hconversation.answers_once (Happening.answers_iff.2 ⟨p, hreply⟩)⟩
  refine (hconversation.getElem?_answersFrom hn).2 (List.mem_filterMap.2 ⟨_, ?_, hreply⟩)
  exact List.mem_append_right _ List.mem_cons_self

/-- What has happened to a client since the session of a server was opened: it was not lost since. -/
structure Unbroken (settings : ClientSettings) (server : Address) (log : History) (c : Client) : Prop where
  begun : ∃ past c₀, Chain Step (withSettings settings) past c₀ ∧ ¬ c₀.IsLiveAt server ∧ Chain Step c₀ log c
  kept : ∀ e ∈ log, e.forgets server = false

namespace Unbroken

variable {settings : ClientSettings}

theorem reached (h : Unbroken settings server log c) :
    ∃ past, Chain Step (withSettings settings) past c := by
  obtain ⟨past, c₀, hpast, -, hlog⟩ := h.begun
  exact ⟨_, hpast.trans hlog⟩

theorem chain (h : Unbroken settings server log c) (hchain : Chain Step c new c')
    (hkept : ∀ e ∈ new, e.forgets server = false) : Unbroken settings server (log ++ new) c' := by
  obtain ⟨past, c₀, hpast, hdead, hlog⟩ := h.begun
  exact ⟨⟨past, c₀, hpast, hdead, hlog.trans hchain⟩, List.forall_mem_append.2 ⟨h.kept, hkept⟩⟩

/-- All that has happened since a session was lost last is unbroken. -/
theorem of_chain {past : History} (h : Chain Step (withSettings settings) past c) (server : Address) :
    ∃ log, Unbroken settings server log c := by
  induction h with
  | refl =>
    refine ⟨[], ⟨[], _, .refl _, ?_, .refl _⟩, by simp⟩
    rintro ⟨s, hs, -⟩
    contradiction
  | @tail c₁ c₂ past new hpast hstep ih =>
    obtain ⟨log, hlog⟩ := ih
    by_cases hkept : ∀ e ∈ new, e.forgets server = false
    · exact ⟨_, hlog.chain (.single hstep) hkept⟩
    · obtain ⟨e, he, hforgets⟩ : ∃ e ∈ new, e.forgets server = true := by simpa using hkept
      have hdead := not_isLiveAt_of_forgets (sound_of_chain hpast) hstep he hforgets
      exact ⟨[], ⟨_, _, hpast.tail hstep, hdead, .refl _⟩, by simp⟩

theorem conversation (h : Unbroken settings server log c) :
    ∃ asked, Conversation server log c asked := by
  obtain ⟨past, c₀, hpast, hdead, hlog⟩ := h.begun
  exact (Conversation.unopened (sound_of_chain hpast) hdead).chain (tidy_of_chain hpast) hlog h.kept

/-- An exchange that is begun has its place behind all that was sent before. -/
theorem start {env : Surroundings} {x : Exchange} (h : Unbroken settings server log c)
    (hx : x.fits request.kind = true) (hstart : c.start env server request x = (.ok id, c')) :
    Unbroken settings server log c' ∧ c'.sentTo server = c.sentTo server ++ [request] ∧
      Placed server log c' (c.sentTo server).length c.issued request := by
  obtain ⟨past, hpast⟩ := h.reached
  obtain ⟨rfl, hchain, hqueue, -⟩ := start_ok hx hstart
  have hsent := (tidy_of_chain hpast).sentTo_start hstart
  have hbegun := h.chain hchain (by simp)
  rw [List.append_nil] at hbegun
  obtain ⟨asked, hasked⟩ := h.conversation
  obtain ⟨more, hmore⟩ := hasked.chain (tidy_of_chain hpast) hchain (by simp)
  rw [List.append_nil] at hmore
  refine ⟨hbegun, hsent, asked ++ more, hmore, ?_⟩
  -- The queue and the session agree on what was added.
  have htasks := hmore.tasks
  rw [hqueue, List.map_append, ← List.append_assoc, hasked.tasks, List.map_append,
    List.append_cancel_left_eq] at htasks
  have hpackets := hmore.sent
  rw [hsent, hasked.sent, List.map_append, List.append_cancel_left_eq] at hpackets
  obtain ⟨⟨other, q⟩, rfl⟩ : ∃ a, more = [a] := List.length_eq_one_iff.1 (by
    simpa using (congrArg List.length htasks).symm)
  obtain ⟨rfl, rfl⟩ : c.issued = other ∧ request = q := by simpa using And.intro htasks hpackets
  rw [hasked.sent, List.length_map]
  simp

end Unbroken

end Client

end Gearman
