import Gearman.Proofs.Client.Conversation
import Gearman.Proofs.Client.Deadline
import Gearman.Proofs.Client.Replies

/-!
Replies that come too late. An operation whose deadline has come leaves its exchange behind, and the request
stays in its place between those before and those behind it. Whatever the client does then, the reply is
handed to that exchange, which is dropped with it, and no later call is given the reply of an earlier one.
-/

namespace Gearman.Client

variable {c c' told heard done : Client} {server : Address} {log : History} {id : TaskId} {p request : Packet}
  {x : Exchange} {settings : ConnectionSettings}

/-- The exchange was given up, and its request still waits for the reply. -/
def Overdue (c : Client) (server : Address) (id : TaskId) (x : Exchange) : Prop :=
  ∃ pending k, c.tasks.get? id = some pending ∧ pending.server = server ∧ pending.detached = true ∧
    Waiting pending k x

/-- All that becomes of a reply to an exchange that was given up: the exchange is dropped, and the job of an
attached submission is tracked. -/
structure Absorbs (told : Client) (server : Address) (id : TaskId) (x : Exchange) (p : Packet)
    (done : Client) : Prop where
  handled : ∃ heard r, told.receive server = (.ok (some (.reply id p)), heard) ∧
    heard.dispatch server (.reply id p) = (r, done) ∧ ((x.respond p).1.isOk = true → r = .ok ())
  queue : ∃ a, told.queue server = a :: done.queue server ∧ a.task = id
  tasks : done.tasks = told.tasks.erase id
  jobs : done.jobs =
    if x.isAttached then told.jobs.insert ⟨p.payload, server⟩ (.pending p.payload) else told.jobs
  updates : done.updates = told.updates ++ if x.isAttached then [⟨⟨p.payload, server⟩, p⟩] else []
  finished : done.finished = told.finished
  state : done.state = told.state

theorem Overdue.absorbs (h : Overdue told server id x)
    (hr : told.receive server = (.ok (some (.reply id p)), heard)) :
    Absorbs told server id x p (heard.handleReply server id p).2 := by
  obtain ⟨pending, k, hpending, -, hdetached, hwaiting⟩ := h
  obtain ⟨a, hqueue, hid, hreply⟩ := queue_of_reply hr
  rw [Session.isReply, Bool.and_eq_true] at hreply
  have hp := hreply.1
  obtain ⟨sessions, rfl⟩ := receive_keeps hr
  have hhandle := handleReply_waiting (c := { told with sessions }) server hpending hwaiting hp
  cases hrespond : x.respond p with
  | mk answer x' =>
    rw [hrespond] at hhandle
    cases answer with
    | error e =>
      have hattached := Exchange.isAttached_of_respond_error hrespond
      rw [hhandle]
      exact ⟨⟨_, _, hr, hhandle, by simp [hrespond, Except.isOk, Except.toBool]⟩, ⟨a, hqueue, hid⟩, rfl,
        by simp [hattached], by simp [hattached], rfl, rfl⟩
    | ok last =>
      have hsettle : ∀ c : Client, c.settle id (pending.replied x') = { c with tasks := c.tasks.erase id } := by
        intro c
        simp [settle, PendingExchange.replied, hdetached]
      simp only [hsettle] at hhandle
      rw [hhandle]
      refine ⟨⟨_, _, hr, hhandle, fun _ => rfl⟩, ⟨a, ?_, hid⟩, ?_, ?_, ?_, ?_, ?_⟩
      · rw [hqueue]
        cases x.isAttached <;> rfl
      all_goals cases x.isAttached <;> simp [track, note]

/-- A reply that was handled was the next packet of its server. -/
theorem receive_of_answers (h : Step c log c') {e : Happening} (he : e ∈ log)
    (hanswers : e.answers server id = true) :
    ∃ p heard, c.receive server = (.ok (some (.reply id p)), heard) ∧
      log = [.packet server (.reply id p) (heard.exchange? id)] ∧
      c' = (heard.handleReply server id p).2 := by
  obtain ⟨p, hreply⟩ := Happening.answers_iff.1 hanswers
  cases h with
  | drive hdrive =>
    cases hdrive with
    | @reply heard source other q hr =>
      rw [List.mem_singleton.1 he, Happening.reply?] at hreply
      split at hreply
      · next hsource =>
        subst hsource
        cases hreply
        exact ⟨p, heard, hr, rfl, rfl⟩
      · contradiction
    | expelled hr hp =>
      rcases List.mem_cons.1 he with rfl | he
      · contradiction
      · rw [List.mem_singleton.1 he] at hreply
        contradiction
    | _ =>
      -- No other happening is a reply.
      simp only [List.not_mem_nil, List.mem_singleton] at he
      all_goals
        subst he
        contradiction
  | _ =>
    simp only [List.not_mem_nil, List.mem_singleton] at he
    all_goals
      subst he
      contradiction

/-- An exchange that was given up stays, until it absorbs its reply. -/
theorem Overdue.step (hsound : Sound c) (h : Overdue c server id x) (hstep : Sparing c log c')
    (hkept : ∀ e ∈ log, e.forgets server = false) :
    Overdue c' server id x ∨
      ∃ p, log = [.packet server (.reply id p) (some x)] ∧ Absorbs c server id x p c' := by
  by_cases hsilent : ∀ e ∈ log, e.answers server id = false
  · obtain ⟨pending, k, hpending, rfl, hdetached, hwaiting⟩ := h
    have hheld := hstep.spares hsound id pending hpending hdetached fun e he => ⟨hkept e he, hsilent e he⟩
    exact .inl ⟨pending, k, hheld, rfl, hdetached, hwaiting⟩
  · obtain ⟨e, he, hanswers⟩ : ∃ e ∈ log, e.answers server id = true := by simpa using hsilent
    obtain ⟨p, heard, hr, hlog, rfl⟩ := receive_of_answers hstep.step he hanswers
    refine .inr ⟨p, ?_, h.absorbs hr⟩
    obtain ⟨pending, k, hpending, -, -, hwaiting⟩ := h
    obtain ⟨sessions, rfl⟩ := receive_keeps hr
    rw [hlog, exchange?, hpending]
    simp [hwaiting.responder]

/-- An exchange that is gone does not come back. -/
theorem absent_step (h : Step c log c') (hid : id < c.issued) (hnone : c.tasks.get? id = none) :
    c'.tasks.get? id = none := by
  have hkeep : ∀ {tasks : Table TaskId PendingExchange},
      (∀ pending, tasks.get? id = some pending → ∃ old, c.tasks.get? id = some old) →
        tasks.get? id = none := by
    intro tasks hold
    refine Option.eq_none_iff_forall_ne_some.2 fun pending hpending => ?_
    obtain ⟨old, hold⟩ := hold pending hpending
    rw [hnone] at hold
    contradiction
  have hlost : ∀ {other}, Lost other c c' → c'.tasks.get? id = none := fun hlost =>
    hkeep fun pending hpending => ⟨pending, (hlost.task hpending).1⟩
  cases h with
  | drive hdrive =>
    refine hkeep fun pending hpending => ?_
    obtain ⟨old, hold, -⟩ := detached_of_drive hdrive hpending
    exact ⟨old, hold⟩
  | added other =>
    obtain ⟨sessions, heq⟩ := addServer_keeps c other
    rwa [heq]
  | removed => exact hlost (lost_discard _ _)
  | opened env other =>
    obtain ⟨sessions, heq⟩ := session_keeps c env other
    rwa [heq]
  | asked hs hx htask hask =>
    obtain ⟨-, s', pending, -, -, -, -, -, -, rfl⟩ := ask_waiting hx htask hask
    exact (Table.get?_insert_of_ne (Nat.ne_of_gt hid)).trans hnone
  | refused hs htask hask he =>
    rwa [ask_refused hask (new_ok htask).2.2.2 he]
  | severed hs htask hask he => exact hlost (ask_severed hs hask he)
  | released other =>
    simp [Table.get?_erase, hnone]
  | @detached other hopen =>
    obtain ⟨pending, hpending, -⟩ := hopen
    have hne : other ≠ id := by
      rintro rfl
      rw [hnone] at hpending
      contradiction
    simp only [detach, hpending]
    exact (Table.get?_insert_of_ne hne).trans hnone
  | collected hr =>
    simp only [takeResult, hr]
    exact hnone
  | drained => exact hnone
  | closing => exact hnone
  | ended => exact hkeep fun pending hpending => ⟨pending, task_of_shutdownNow hpending⟩

theorem absent_chain (htidy : c.Tidy settings) (hchain : Chain Step c log c')
    (hkept : ∀ e ∈ log, e.forgets server = false) (hid : id < c.issued)
    (hnone : c.tasks.get? id = none) : c'.tasks.get? id = none := by
  induction hchain with
  | refl => exact hnone
  | @tail c₁ c₂ before new hbefore hstep ih =>
    obtain ⟨hbefore_kept, -⟩ := List.forall_mem_append.1 hkept
    have hissued := issued_le_of_chain htidy hbefore hbefore_kept
    exact absent_step hstep (Nat.lt_of_lt_of_le hid hissued) (ih hbefore_kept)

/-- An exchange that was given up waits through a whole run, or absorbs its reply at one point of it. -/
theorem Overdue.chain (hsound : Sound c) (h : Overdue c server id x) (hchain : Chain Sparing c log c')
    (hkept : ∀ e ∈ log, e.forgets server = false) :
    Overdue c' server id x ∨
      ∃ before p since told done, log = before ++ .packet server (.reply id p) (some x) :: since ∧
        Chain Step c before told ∧ Step told [.packet server (.reply id p) (some x)] done ∧
        Absorbs told server id x p done ∧ Chain Step done since c' := by
  induction hchain with
  | refl => exact .inl h
  | @tail c₁ c₂ past new hpast hstep ih =>
    obtain ⟨hpast_kept, hnew_kept⟩ := List.forall_mem_append.1 hkept
    rcases ih hpast_kept with
      hwaits | ⟨before, p, since, told, done, rfl, hbefore, hreply, habsorbs, hsince⟩
    · have hsound₁ := hsound.chain (hpast.mono Sparing.step)
      rcases hwaits.step hsound₁ hstep hnew_kept with
        hwaits' | ⟨p, rfl, habsorbs⟩
      · exact .inl hwaits'
      · exact .inr ⟨past, p, [], c₁, c₂, rfl, hpast.mono Sparing.step, hstep.step, habsorbs, .refl _⟩
    · exact .inr ⟨before, p, since ++ new, told, done, by simp, hbefore, hreply, habsorbs,
        hsince.tail hstep.step⟩

theorem Overdue.mem_queue (hsound : Sound c) (h : Overdue c server id x) :
    ∃ a ∈ c.queue server, a.task = id := by
  obtain ⟨pending, k, hpending, rfl, hdetached, -⟩ := h
  refine (hsound.task_queue id pending hpending).resolve_left ?_
  rintro ⟨-, hattended⟩
  rw [hattended] at hdetached
  contradiction

theorem Overdue.unanswered (hsound : Sound c) (h : Overdue c server id x) {n : Nat}
    (hplaced : Placed server log c n id request) : (answersFrom server log)[n]? = none := by
  obtain ⟨a, ha, rfl⟩ := h.mem_queue hsound
  obtain ⟨asked, hconversation, hn⟩ := hplaced
  refine Option.eq_none_iff_forall_ne_some.2 fun p hp => ?_
  exact hconversation.not_mem_repliesFrom ha ((hconversation.getElem?_answersFrom hn).1 hp)

/-- An operation that reports a timeout leaves its exchange behind, and the session as it was. -/
theorem overdue_of_timeout {settings : ClientSettings} {env : Surroundings} {awaited late : String}
    {rest : List Arrival} (h : Unbroken settings server log c) (hx : x.fits request.kind = true)
    (hlate : c.exchange env server request x awaited = ⟨.error (.timeout late), c', rest⟩) :
    ∃ new, Unbroken settings server (log ++ new) c' ∧ c'.sentTo server = c.sentTo server ++ [request] ∧
      Overdue c' server c.issued x ∧
      Placed server (log ++ new) c' (c.sentTo server).length c.issued request := by
  obtain ⟨-, id, c₁, c₂, hstart, hrun, rfl⟩ := exchange_eq_timeout hlate
  obtain ⟨hbegun, hsent, hplaced⟩ := h.start hx hstart
  obtain ⟨past, hpast⟩ := hbegun.reached
  have hsound := sound_of_chain hpast
  have htidy := tidy_of_chain hpast
  obtain ⟨rfl, -, -, pending, hpending, rfl, -, hwaiting⟩ := start_ok hx hstart
  obtain ⟨c₃, hchain, hend⟩ := Watch.chain_run (w := replyTo c.issued pending.server)
    (fun c => chain_pump c pending.server) env.arrivals c₁
  rw [hrun] at hend
  obtain ⟨r, hr, -⟩ | ⟨⟨e, he⟩, -⟩ | ⟨-, rfl, hwaits⟩ := hend
  · cases hr
  · cases he
  obtain ⟨done, hdone, hanswered⟩ := isOpen_of_replyTo hwaits
  obtain ⟨hkept, rfl | ⟨_, p, _, _, _, -, -, -, -, -, rfl⟩⟩ :=
    reply_of_chain hsound hpending hwaiting.responder hchain hdone
  · have hleft := (hchain.mono Step.drive).tail (.detached (isOpen_of_replyTo hwaits))
    rw [List.append_nil] at hleft
    have hdetach : c₂.detach c.issued =
        { c₂ with tasks := c₂.tasks.insert c.issued { done with detached := true } } := by
      simp only [detach, hdone]
    refine ⟨_, hbegun.chain hleft hkept, ?_, ?_, hplaced.chain htidy hleft hkept⟩
    · rw [← hsent, ← sentTo_drives htidy hchain hkept, hdetach]
      rfl
    · rw [hdetach]
      exact ⟨_, request.kind, Table.get?_insert_self, rfl, rfl,
        ⟨hwaiting.state, hwaiting.responder, hwaiting.fits⟩⟩
  · contradiction

/-- An exchange that ends well has read the reply to its own request. -/
theorem own_reply_of_ok {settings : ClientSettings} {env : Surroundings} {awaited : String}
    {answer : Option Exchange} {rest : List Arrival} (h : Unbroken settings server log c)
    (hx : x.fits request.kind = true)
    (hok : c.exchange env server request x awaited = ⟨.ok answer, c', rest⟩) :
    ∃ new p, Unbroken settings server (log ++ new) c' ∧
      c'.sentTo server = c.sentTo server ++ [request] ∧
      (answersFrom server (log ++ new))[(c.sentTo server).length]? = some p ∧
      answer = some (x.respond p).2 := by
  obtain ⟨past, hpast⟩ := h.reached
  obtain ⟨c₁, c₃, before, p, since, told, heard, hstart, hlog, hturn, hanswer, -⟩ :=
    turn_of_exchange (sound_of_chain hpast) hx hok
  obtain ⟨id, c₁', c₂, hstart', hrun, -, rfl⟩ := exchange_eq_ok hok
  obtain ⟨rfl, rfl⟩ : c.issued = id ∧ c₁ = c₁' := by simpa [hstart] using hstart'
  obtain ⟨hbegun, hsent, hplaced⟩ := h.start hx hstart
  obtain ⟨past₁, hpast₁⟩ := hbegun.reached
  have htidy := tidy_of_chain hpast₁
  have hwaited := chain_replyTo c.issued server env.arrivals c₁
  rw [hrun, hlog] at hwaited
  have hkept : ∀ e ∈ before ++ .packet server (.reply c.issued p) (some x) :: since,
      e.forgets server = false := by
    obtain ⟨hbefore, hsince⟩ := List.forall_mem_append.1 hturn.unforgotten
    exact List.forall_mem_append.2 ⟨hbefore, List.forall_mem_cons.2 ⟨rfl, hsince⟩⟩
  have hended := (hwaited.mono Step.drive).tail (.released c₂ c.issued)
  rw [List.append_nil] at hended
  have hplaced' := hplaced.chain htidy hended hkept
  rw [← List.append_assoc] at hplaced'
  refine ⟨_, p, hbegun.chain hended hkept, (sentTo_drives htidy hwaited hkept).trans hsent, ?_, hanswer⟩
  rw [← List.append_assoc]
  exact hplaced'.answered.1

/-- What a run makes of an exchange that was given up, once this is what its server has replied. -/
inductive LateReply (c : Client) (server : Address) (id : TaskId) (x : Exchange) (later : History)
    (c' : Client) : Option Packet → Prop
  /-- The request still waits for its reply. -/
  | outstanding (h : Overdue c' server id x) : LateReply c server id x later c' none
  /-- The exchange has absorbed the reply at one point of the run, and gets no other. -/
  | absorbed {before since : History} {p : Packet} {told done : Client}
    (hlater : later = before ++ .packet server (.reply id p) (some x) :: since)
    (hbefore : Chain Step c before told)
    (hreply : Step told [.packet server (.reply id p) (some x)] done)
    (habsorbs : Absorbs told server id x p done) (hsince : Chain Step done since c')
    (honce : ∀ e ∈ before ++ since, e.answers server id = false) (hgone : c'.tasks.get? id = none) :
    LateReply c server id x later c' (some p)

/-- Whatever is done then, the reply to an exchange that was given up is absorbed by it, once, as soon as it
is handled. -/
theorem Overdue.resolved {settings : ClientSettings} {n : Nat} (h : Unbroken settings server log c)
    (hover : Overdue c server id x) (hplaced : Placed server log c n id request)
    (more : List Operation) (hkeeps : KeepsSession server c (c.performAll more)) :
    ∃ later, Chain Step c later (c.performAll more) ∧
      Unbroken settings server (log ++ later) (c.performAll more) ∧
      LateReply c server id x later (c.performAll more) (answersFrom server (log ++ later))[n]? := by
  obtain ⟨past, hpast⟩ := h.reached
  have hsound := sound_of_chain hpast
  have htidy := tidy_of_chain hpast
  obtain ⟨later, hspared⟩ := spares_performAll c more
  have hlater := hspared.mono Sparing.step
  obtain ⟨a, ha, -⟩ := hover.mem_queue hsound
  have hkept := hsound.kept_of_keepsSession (isLiveAt_of_mem_queue ha) hlater hkeeps
  refine ⟨later, hlater, h.chain hlater hkept, ?_⟩
  have hplaced' := hplaced.chain htidy hlater hkept
  rcases hover.chain hsound hspared hkept with
    hwaits | ⟨before, p, since, told, done, rfl, hbefore, hreply, habsorbs, hsince⟩
  · rw [hwaits.unanswered (hsound.chain hlater) hplaced']
    exact .outstanding hwaits
  · have hdone := hbefore.tail hreply
    rw [List.append_cons] at hkept
    obtain ⟨hdone_kept, hsince_kept⟩ := List.forall_mem_append.1 hkept
    have hid : id < c.issued := by
      obtain ⟨pending, -, hpending, -⟩ := hover
      exact hsound.task_issued id pending hpending
    have hissued := Nat.lt_of_lt_of_le hid (issued_le_of_chain htidy hdone hdone_kept)
    have htidy' := htidy.chain hdone
    rw [← List.append_assoc] at hplaced' ⊢
    obtain ⟨hanswer, honce⟩ := hplaced'.answered
    rw [hanswer]
    rw [List.append_assoc] at honce
    have hnone : done.tasks.get? id = none := by rw [habsorbs.tasks, Table.get?_erase_self]
    exact .absorbed rfl hbefore hreply habsorbs hsince (List.forall_mem_append.1 honce).2
      (absent_chain htidy' hsince hsince_kept hissued hnone)

namespace Call

variable {α : Type} {env : Surroundings} {call : Call α} {late : String} {rest : List Arrival}

/-- A call reports a timeout because its exchange does. -/
theorem exchange_of_timeout (hquestion : call.question? c env = some (server, request, x))
    (h : call.place c env = ⟨.error (.timeout late), c', rest⟩) :
    ∃ awaited, c.exchange env server request x awaited = ⟨.error (.timeout late), c', rest⟩ := by
  obtain ⟨awaited, outcome, hconcludes, hplace⟩ := place_concludes hquestion
  rw [h] at hplace
  rcases hexchange : c.exchange env server request x awaited with ⟨ended, c₁, rest₁⟩
  rw [hexchange] at hconcludes hplace
  cases hplace
  cases hconcludes
  exact ⟨awaited, hexchange⟩

/-- A call that ends well returns what its exchange has read. -/
theorem exchange_of_ok {v : α} (hquestion : call.question? c env = some (server, request, x))
    (h : call.place c env = ⟨.ok v, c', rest⟩) :
    ∃ awaited answer, c.exchange env server request x awaited = ⟨.ok answer, c', rest⟩ ∧
      ∀ p, answer = some (x.respond p).2 → call.answer? server p = some v := by
  obtain ⟨awaited, outcome, hconcludes, hplace⟩ := place_concludes hquestion
  rw [h] at hplace
  rcases hexchange : c.exchange env server request x awaited with ⟨ended, c₁, rest₁⟩
  rw [hexchange] at hconcludes hplace
  cases hplace
  cases hconcludes with
  | answered answer _ hanswer => exact ⟨awaited, answer, hexchange, hanswer⟩

end Call

/-- A deadline takes nothing back. A call that reports a timeout has sent its request, and the session is
there as before. If the server answers in order, the reply to the `n`-th request is its `n`-th packet that is
no news of a job. When that is handled, in whatever operation, the exchange of the late call absorbs it. A
call that ends well on the same session, however many of the earlier ones were late, returns the reply to its
own request. -/
theorem deadline_takes_nothing_back (settings : ClientSettings) (server : Address) :
    (∀ operations, ∃ log, Unbroken settings server log ((withSettings settings).performAll operations)) ∧
      ∀ (log : History) (c : Client), Unbroken settings server log c →
        ∀ (α : Type) (call : Call α) (env : Surroundings) (request : Packet) (x : Exchange),
          call.question? c env = some (server, request, x) →
          (∀ late c' rest, call.place c env = ⟨.error (.timeout late), c', rest⟩ →
            ∃ new, Unbroken settings server (log ++ new) c' ∧
              c'.sentTo server = c.sentTo server ++ [request] ∧
              ∀ more, KeepsSession server c' (c'.performAll more) →
                ∃ later, Chain Step c' later (c'.performAll more) ∧
                  Unbroken settings server (log ++ new ++ later) (c'.performAll more) ∧
                  LateReply c' server c.issued x later (c'.performAll more)
                    (answersFrom server (log ++ new ++ later))[(c.sentTo server).length]?) ∧
          ∀ v c' rest, call.place c env = ⟨.ok v, c', rest⟩ →
            ∃ new p, Unbroken settings server (log ++ new) c' ∧
              c'.sentTo server = c.sentTo server ++ [request] ∧
              (answersFrom server (log ++ new))[(c.sentTo server).length]? = some p ∧
              call.answer? server p = some v := by
  refine ⟨fun operations => ?_, fun log c h α call env request x hquestion => ?_⟩
  · obtain ⟨past, hpast⟩ := evolves_performAll (withSettings settings) operations
    exact Unbroken.of_chain hpast server
  obtain ⟨-, hx⟩ := Call.fits_of_question? hquestion
  refine ⟨fun late c' rest hlate => ?_, fun v c' rest hok => ?_⟩
  · obtain ⟨awaited, hexchange⟩ := Call.exchange_of_timeout hquestion hlate
    obtain ⟨new, hunbroken, hsent, hover, hplaced⟩ := overdue_of_timeout h hx hexchange
    exact ⟨new, hunbroken, hsent, hover.resolved hunbroken hplaced⟩
  · obtain ⟨awaited, answer, hexchange, hreturns⟩ := Call.exchange_of_ok hquestion hok
    obtain ⟨new, p, hunbroken, hsent, hp, hanswer⟩ := own_reply_of_ok h hx hexchange
    exact ⟨new, p, hunbroken, hsent, hp, hreturns p hanswer⟩

namespace Errand

/-- The reply to a second echo request. -/
def echoedAgain : Packet := .response .echoRes [0x79]

/-- Both replies, which come when the second request was sent. -/
def belated : List Arrival := [⟨.default, echoed.encode ++ echoedAgain.encode, .none⟩]

/-- The client that has asked for an echo and has heard nothing before its deadline. -/
def impatient : Client := (waited []).detach 0

/-- The client that has asked for another echo then. -/
def askedAgain : Client :=
  (impatient.start (sending belated) .default (.request .echoReq [0x79]) (.echo none)).2

/-- The client that has heard both replies. -/
def informedAgain : Client :=
  ((replyTo 1 .default).rehearse .default 9 9 belated askedAgain).elim askedAgain (·.1.client)

theorem echo_impatient :
    novice.echo (sending []) [0x78] = ⟨.error (.timeout "ECHO_RES"), impatient, []⟩ := by
  have hstart : novice.start (sending []) .default (.request .echoReq [0x78]) (.echo none) =
      (.ok 0, asked) := by
    cbv
  have hwait : (replyTo 0 .default).rehearse .default 9 9 [] asked = some (⟨none, waited [], []⟩, []) := by
    cbv
  have hrun := (Watch.run_of_rehearsal (fun _ => rfl) hwait).1
  have hserver : novice.pickServer (sending []).chance = .ok .default := rfl
  have harrivals : (sending []).arrivals = [] := rfl
  simp only [echo, show novice.ensureRunning = .ok () from rfl, hserver, exchange, hstart, harrivals, hrun]
  rfl

theorem echo_again : impatient.echo (sending belated) [0x79] =
    ⟨.ok [0x79], { informedAgain with tasks := informedAgain.tasks.erase 1 }, []⟩ := by
  have hstart : impatient.start (sending belated) .default (.request .echoReq [0x79]) (.echo none) =
      (.ok 1, askedAgain) := by
    cbv
  have hwait : (replyTo 1 .default).rehearse .default 9 9 belated askedAgain =
      some (⟨some (.ok ()), informedAgain, []⟩,
        [.packet .default (.reply 0 echoed) (some (.echo none)),
          .packet .default (.reply 1 echoedAgain) (some (.echo none))]) := by
    cbv
  have hanswer : informedAgain.exchange? 1 = some (.echo (some [0x79])) := by
    cbv
  have hrun := (Watch.run_of_rehearsal (fun _ => rfl) hwait).1
  have hserver : impatient.pickServer (sending belated).chance = .ok .default := by
    cbv
  have hrunning : impatient.ensureRunning = .ok () := by
    cbv
  have harrivals : (sending belated).arrivals = belated := rfl
  rw [exchange?] at hanswer
  simp only [echo, hrunning, hserver, exchange, hstart, harrivals, hrun, takeExchange, hanswer]

end Errand

open Errand

/-- A call whose reply comes late, and one behind it, which is given its own reply. -/
theorem deadline_takes_nothing_back_echo : ∃ log later p new q, Unbroken {} .default log impatient ∧
    LateReply impatient .default 0 (.echo none) later
      (impatient.performAll [.echo (sending belated) [0x79]]) (some p) ∧
    (answersFrom .default (log ++ new))[1]? = some q ∧
    (Call.echo [0x79]).answer? .default q = some [0x79] := by
  have hbegun : Unbroken {} .default [] novice := by
    refine ⟨⟨[], withSettings {}, .refl _, ?_, .single (.added _ .default)⟩, by simp⟩
    rintro ⟨s, hs, -⟩
    contradiction
  have hend : impatient.performAll [.echo (sending belated) [0x79]] =
      { informedAgain with tasks := informedAgain.tasks.erase 1 } :=
    congrArg Answer.client echo_again
  have hkeeps : KeepsSession .default impatient
      (impatient.performAll [.echo (sending belated) [0x79]]) := by
    have hnone : informedAgain.retired = [] := by
      cbv
    intro s hs
    rw [hend] at hs
    simp [hnone] at hs
  have hgone : (informedAgain.tasks.erase 1).get? novice.issued = none := by
    cbv
  obtain ⟨log, hlog, hsent, hlate⟩ :=
    ((deadline_takes_nothing_back {} .default).2 [] novice hbegun _ (.echo [0x78]) (sending []) _ _ rfl).1
      _ _ _ echo_impatient
  obtain ⟨later, -, -, hreply⟩ := hlate [.echo (sending belated) [0x79]] hkeeps
  have hquestion : (Call.echo [0x79]).question? impatient (sending belated) =
      some (.default, .request .echoReq [0x79], .echo none) := by
    cbv
  obtain ⟨new, q, -, -, hq, hanswer⟩ :=
    ((deadline_takes_nothing_back {} .default).2 _ impatient hlog _ (.echo [0x79]) (sending belated) _ _
      hquestion).2 _ _ _ echo_again
  rw [hsent] at hq
  rw [hend] at hreply ⊢
  -- The first exchange is gone in the end, so it has absorbed its reply.
  generalize (answersFrom Address.default ([] ++ log ++ later))[(novice.sentTo .default).length]? = reply
    at hreply
  cases hreply with
  | outstanding h =>
    obtain ⟨pending, k, hpending, -⟩ := h
    have := hgone.symm.trans hpending
    contradiction
  | absorbed hlater hbefore hstep habsorbs hsince honce hgone =>
    exact ⟨_, later, _, new, q, hlog, .absorbed hlater hbefore hstep habsorbs hsince honce hgone, hq,
      hanswer⟩

end Gearman.Client
