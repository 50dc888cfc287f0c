import Gearman.Proofs.Client.Execution
import Gearman.Proofs.Client.Orderly
import Gearman.Proofs.Client.Pool.Tidy

/-!
A reply that has arrived is returned. A server that answers in order may cut what it sends as it likes, and
may do what it likes once the reply is through. The exception is what it sends along with the end of the
reply: the client reads all of that before it looks for the reply, and a fault that it meets there ends the
call.
-/

namespace Gearman.Client

variable {α : Type} {settings : ClientSettings} {past log : History} {c c' : Client}
  {env : Surroundings} {server : Address} {id : TaskId} {request reply : Packet} {x : Exchange}
  {now later : List Arrival} {ps before behind : List Packet} {bs : Bytes}

/-- A request can be sent to the server: over a live session whose stream has not ended, on which `bs` was
not handled, or over a session that is opened for it. -/
def Reaches (c : Client) (env : Surroundings) (server : Address) (bs : Bytes) : Prop :=
  ∃ s, c.sessions.get? server = some s ∧
    match s.connection? with
    | some connection => connection.stream.fate = .flowing ∧ connection.pending = bs
    | none => env.accepts server = true ∧ bs = []

/-- The server can be reached, and with the pieces `now` of what arrives it has sent these packets, and
maybe the start of one more, over a stream that has not ended then. -/
structure Hears (c : Client) (env : Surroundings) (server : Address) (now later : List Arrival)
    (ps : List Packet) : Prop where
  arrivals : env.arrivals = now ++ later
  frames : ∃ bs, c.Reaches env server bs ∧
    Packet.Frames c.settings.connection.maxPayloadSize (bs ++ bytesFrom server now) ps
  open_ : ∀ a ∈ now, a.server = server → a.ending = .none

/-- The session of a server that is known and accepts is connected when it is asked for. -/
theorem session_of_accepted (hsound : Sound c) {s : Session} (hs : c.sessions.get? server = some s)
    (haccepts : s.isLive = true ∨ env.accepts server = true) :
    c.session env server = (.ok s.connected,
      if s.isLive then c else { c with sessions := c.sessions.insert server s.connected }) := by
  cases hlive : s.isLive with
  | true => simp [session, hs, hlive, Session.connected]
  | false =>
    have haccepts : env.accepts server = true := by simpa [hlive] using haccepts
    have hinit := Session.init_of_not_isLive hlive (hsound.session server s hs).2
    simp [session, hs, hlive, haccepts, hinit]

/-- A session that is opened to a server that accepts has nothing to read. -/
theorem session_of_reaches (hsound : Sound c) (hreach : c.Reaches env server bs) :
    ∃ s connection, (c.session env server).1 = .ok s ∧ s.connection? = some connection ∧
      connection.stream.fate = .flowing ∧ connection.pending = bs := by
  obtain ⟨s, hs, hreach⟩ := hreach
  cases hconnection : s.connection? with
  | some connection =>
    rw [hconnection] at hreach
    have hlive : s.isLive = true :=
      Session.isLive_iff.2 ⟨_, _, Session.connection?_eq_some_iff.1 hconnection⟩
    exact ⟨s, connection, by simp [session, hs, hlive], hconnection, hreach⟩
  | none =>
    rw [hconnection] at hreach
    obtain ⟨haccepts, rfl⟩ := hreach
    have hdead : s.isLive = false := by
      unfold Session.connection? at hconnection
      unfold Session.isLive
      cases hphase : s.phase <;> simp_all
    have hconnected : s.connected.connection? = some (.fresh s.address s.settings) := by
      simp [Session.connected, hdead, Session.connection?]
    exact ⟨s.connected, _, by rw [session_of_accepted hsound hs (.inr haccepts)], hconnected, rfl, rfl⟩

/-- An exchange with a server that can be reached is begun, and what the server has sent is left to be
read. -/
theorem start_of_reaches (hsound : Sound c) (htidy : c.Tidy c.settings.connection)
    (hreach : c.Reaches env server bs) (hrequest : request.isRequest = true)
    (hlimit : request.payload.length ≤ c.settings.connection.maxPayloadSize.toNat) :
    ∃ id c', c.start env server request x = (.ok id, c') ∧ ∃ s, c'.sessions.get? server = some s ∧
      s.Holds c.settings.connection.maxPayloadSize bs := by
  obtain ⟨s, connection, hok, hconnection, hflowing, hpending⟩ := session_of_reaches hsound hreach
  obtain ⟨c₁, hsession⟩ : ∃ c₁, c.session env server = (.ok s, c₁) := ⟨_, Prod.ext hok rfl⟩
  have hopened := htidy.session_of env server
  rw [hsession] at hopened
  have hs := hopened.session server s (session_ok hsession).1
  have hnew : Task.new c.issued request (some x) =
      .ok { id := c.issued, request, responder := some x, isRequest_request := hrequest } := by
    simp [Task.new, hrequest]
  obtain ⟨s', task, hsubmit⟩ := hs.submit_of_flowing hconnection hflowing
    (t := { id := c.issued, request, responder := some x, isRequest_request := hrequest }) rfl hlimit
  obtain ⟨-, hholds⟩ := hs.submit hsubmit rfl
  have hholds := hholds connection hconnection hflowing
  rw [hpending] at hholds
  refine ⟨task.id, { c₁ with
    issued := c₁.issued + 1
    sessions := c₁.sessions.insert server s'
    tasks := c₁.tasks.insert task.id { task, server } }, ?_, s', Table.get?_insert_self, hholds⟩
  simp only [start, hnew, hsession, ask, hsubmit]

/-- What a server sends over a session that is live is left to be read. -/
theorem Hears.brings (h : c.Hears env server now later ps) (htidy : c.Tidy c.settings.connection)
    (hlive : c.IsLiveAt server) : c.Brings server now ps := by
  obtain ⟨bs, ⟨s, hs, hreach⟩, hframes⟩ := h.frames
  obtain ⟨t, ht, hlive⟩ := hlive
  obtain rfl : s = t := Option.some.inj (hs.symm.trans ht)
  obtain ⟨connection, awaiting, hphase⟩ := Session.isLive_iff.1 hlive
  have hconnection : s.connection? = some connection := by simp [Session.connection?, hphase]
  rw [hconnection] at hreach
  have hholds := ((htidy.session server s hs).connection connection hconnection).holds hreach.1
  rw [hreach.2] at hholds
  exact ⟨⟨s, _, bs, hs, ⟨connection, awaiting, hphase, hholds⟩, hframes⟩, h.open_⟩

/-- An exchange that is begun with a server that sends packets in order expects its reply behind them. -/
theorem start_of_hears (hc : Chain Step (withSettings settings) past c)
    (hears : c.Hears env server now later ps) (hrequest : request.isRequest = true)
    (hlimit : request.payload.length ≤ c.settings.connection.maxPayloadSize.toNat)
    (hx : x.fits request.kind = true)
    (hbefore : Session.afterAll? (c.queue server ++ [⟨c.issued, request.kind⟩]) before =
      some [⟨c.issued, request.kind⟩]) :
    ∃ c', c.start env server request x = (.ok c.issued, c') ∧ Chain Step c [] c' ∧
      c'.Brings server now ps ∧ Expects c' server c.issued request.kind x before := by
  obtain ⟨bs, hreach, hframes⟩ := hears.frames
  obtain ⟨id, c', hstart, s, hs, hholds⟩ :=
    start_of_reaches (sound_of_chain hc) (tidy_of_chain hc) hreach hrequest hlimit (x := x)
  obtain ⟨rfl, hchain, hqueue, pending, hpending, hwaits⟩ := start_ok hx hstart
  refine ⟨c', hstart, hchain, ⟨⟨s, _, bs, hs, hholds, hframes⟩, hears.open_⟩,
    ⟨pending, hpending, hwaits⟩, ?_⟩
  rw [hqueue]
  exact hbefore

/-- What is left to be answered behind the reply to the latest request is nothing. -/
theorem Expects.afterAll? {k : Kind} (h : Expects c server id k x before)
    (hp : Session.isReply reply ⟨id, k⟩ = true) (hreadable : reply.isReadable = true) :
    Session.afterAll? (c.queue server) (before ++ reply :: behind) = Session.afterAll? [] behind := by
  rw [Session.afterAll?_append, h.order, Option.bind_some, Session.afterAll?_cons,
    Session.after?_of_isReply hp hreadable, Option.bind_some]

/-- An exchange that expects its reply, or has read it while the packets `behind` are still to come. -/
def Attends (server : Address) (id : TaskId) (k : Kind) (x : Exchange) (reply : Packet)
    (behind : List Packet) (c : Client) (ps : List Packet) : Prop :=
  (∃ before, ps = before ++ reply :: behind ∧ Expects c server id k x before) ∨
    Replied c server id (x.respond reply).2

/-- An exchange goes its way while packets in order come in. -/
theorem course_attends {k : Kind} (hp : Session.isReply reply ⟨id, k⟩ = true) :
    Course server fun log c ps => Orderly settings past server log c ps ∧
      Attends server id k x reply behind c ps := by
  refine course_of_orderly (Q := fun _ => Attends server id k x reply behind) ?_ ?_
  · rintro log c ps sessions hqueue (⟨before, hps, hheld, horder⟩ | ⟨hheld, hnone⟩)
    · exact .inl ⟨before, hps, hheld, by rwa [hqueue]⟩
    · exact .inr ⟨hheld, hqueue.trans hnone⟩
  · rintro log c p ps new c' horderly (⟨_ | ⟨first, before⟩, hps, hexpects⟩ | hreplied) hhandles -
    · obtain ⟨rfl, rfl⟩ := List.cons_eq_cons.1 hps
      exact .inr (hexpects.reply hp hhandles).2
    · obtain ⟨rfl, rfl⟩ := List.cons_eq_cons.1 hps
      exact .inl ⟨before, rfl, hexpects.next horderly.sound hhandles⟩
    · exact .inr (hreplied.next hhandles)

theorem Expects.unsettled {k : Kind} (h : Expects c server id k x before) :
    (replyTo id server).settled c = none := by
  obtain ⟨pending, hpending, -, -, hwaiting⟩ := h.held
  simp [replyTo, hpending, hwaiting.state, TaskState.isAnswered, TaskState.rank]

theorem Replied.settled (h : Replied c server id x) :
    (replyTo id server).waits c = false ∧ (replyTo id server).settled c = some (.ok (), c) := by
  obtain ⟨done, hdone, hstate, -⟩ := h.held
  simp [replyTo, hdone, hstate, TaskState.isAnswered, TaskState.rank]

/-- While it expects its reply, an exchange is not answered, and behind the reply it is. -/
theorem Attends.settled {k : Kind} (h : Attends server id k x reply behind c ps) {r : Except Error Unit}
    (hr : (replyTo id server).settled c = some (r, c')) :
    r = .ok () ∧ c' = c ∧ Replied c server id (x.respond reply).2 := by
  obtain ⟨before, -, hexpects⟩ | hreplied := h
  · rw [hexpects.unsettled] at hr
    contradiction
  · rw [hreplied.settled.2] at hr
    cases hr
    exact ⟨rfl, rfl, hreplied⟩

/-- When all packets are handled, the exchange has read its reply. -/
theorem Attends.replied {k : Kind} (h : Attends server id k x reply behind c []) :
    Replied c server id (x.respond reply).2 := by
  obtain ⟨before, hps, -⟩ | hreplied := h
  · simp at hps
  · exact hreplied

/-- An exchange whose reply has arrived ends with what it reads in the reply. -/
theorem exchange_of_hears (hc : Chain Step (withSettings settings) past c)
    (hears : c.Hears env server now later (before ++ reply :: behind))
    (hrequest : request.isRequest = true)
    (hlimit : request.payload.length ≤ c.settings.connection.maxPayloadSize.toNat)
    (hx : x.fits request.kind = true)
    (hbefore : Session.afterAll? (c.queue server ++ [⟨c.issued, request.kind⟩]) before =
      some [⟨c.issued, request.kind⟩])
    (hreply : Session.isReply reply ⟨c.issued, request.kind⟩ = true)
    (hreadable : reply.isReadable = true)
    (hbehind : ∀ p ∈ behind, p.isReport = true ∧ p.isReadable = true) (awaited : String) :
    ∃ c' rest, c.exchange env server request x awaited = ⟨.ok (some (x.respond reply).2), c', rest⟩ := by
  obtain ⟨c₁, hstart, hchain, hbrings, hexpects⟩ :=
    start_of_hears hc hears hrequest hlimit hx hbefore
  have horderly : Orderly settings past server [] c₁ (before ++ reply :: behind) :=
    ⟨hc.trans hchain, [], by
      rw [hexpects.afterAll? hreply hreadable, Session.afterAll?_of_reports hbehind]⟩
  obtain ⟨c₂, outcome, c₃, rest, left, hsettled, hrun, ⟨-, hattends⟩, -⟩ :=
    (course_attends hreply).run (fun _ => rfl) (fun _ => rfl)
      (fun log c hc => ⟨hc.2.replied.settled.1, _, hc.2.replied.settled.2⟩) hbrings
      ⟨horderly, .inl ⟨before, rfl, hexpects⟩⟩ later
  obtain ⟨rfl, rfl, hreplied⟩ := hattends.settled hsettled
  obtain ⟨done, hdone, -, hresponder⟩ := hreplied.held
  refine ⟨(c₃.takeExchange c.issued).2, rest ++ later, ?_⟩
  simp only [exchange, hstart, hears.arrivals, hrun, takeExchange, hdone, Option.bind_some, hresponder]

namespace Call

/-- The request of a call and the server that it goes to, if the client runs and there is one. -/
def question? (c : Client) (env : Surroundings) : Call α → Option (Address × Packet × Exchange)
  | .submit job =>
    match c.ensureRunning, job.toPacket, c.pickServer env.chance with
    | .ok (), .ok request, .ok server => some (server, request, .submission job.background none)
    | _, _, _ => none
  | .echo data =>
    match c.ensureRunning, c.pickServer env.chance with
    | .ok (), .ok server => some (server, Packet.request .echoReq data, .echo none)
    | _, _ => none
  | .jobStatus job =>
    match c.ensureRunning with
    | .ok () => some (job.server, Packet.request .getStatus job.handle, .status none)
    | .error _ => none
  | .waitForJob _ => none

/-- What a call returns for a reply, if the reply is well-formed. -/
def answer? (server : Address) (reply : Packet) : Call α → Option α
  | .submit _ => some ⟨reply.payload, server⟩
  | .echo _ => some reply.payload
  | .jobStatus _ => (JobStatus.ofPacket reply).toOption
  | .waitForJob _ => none

theorem question?_submit {j : Job} (h : (submit j).question? c env = some (server, request, x)) :
    c.ensureRunning = .ok () ∧ j.toPacket = .ok request ∧ c.pickServer env.chance = .ok server ∧
      x = .submission j.background none := by
  simp only [question?] at h
  split at h
  · next hrunning hrequest hserver =>
    cases h
    exact ⟨hrunning, hrequest, hserver, rfl⟩
  · contradiction

theorem fits_of_question? {call : Call α} (h : call.question? c env = some (server, request, x)) :
    request.isRequest = true ∧ x.fits request.kind = true := by
  cases call with
  | submit job =>
    obtain ⟨-, hrequest, -, rfl⟩ := question?_submit h
    refine ⟨?_, fits_toPacket hrequest none⟩
    unfold Job.toPacket Packet.ofFields at hrequest
    repeat' split at hrequest
    all_goals cases hrequest
    rfl
  | echo data =>
    simp only [question?] at h
    split at h <;> cases h
    exact ⟨rfl, rfl⟩
  | jobStatus job =>
    simp only [question?] at h
    split at h <;> cases h
    exact ⟨rfl, rfl⟩
  | waitForJob job => contradiction

/-- A reply that a call can return can be read. -/
theorem isReadable_of_answer? {call : Call α} {v : α}
    (hquestion : call.question? c env = some (server, request, x))
    (hreply : Session.isReply reply ⟨id, request.kind⟩ = true)
    (hanswer : call.answer? server reply = some v) : reply.isReadable = true := by
  have hreport : reply.isReport = false := by
    cases hreport : reply.isReport with
    | false => rfl
    | true =>
      rw [Session.isReply_of_isReport hreport] at hreply
      contradiction
  unfold Packet.isReadable
  split
  · next hkind =>
    obtain ⟨-, hx⟩ := fits_of_question? hquestion
    rw [Session.isReply, Bool.and_eq_true, hkind] at hreply
    have hget : request.kind = .getStatus := by
      cases hrequest : request.kind <;> simp_all [Kind.answers, Kind.isSubmission]
    rw [hget] at hx
    cases call with
    | submit job =>
      obtain ⟨-, -, -, rfl⟩ := question?_submit hquestion
      simp [Exchange.fits, Kind.isSubmission] at hx
    | echo data =>
      simp only [question?] at hquestion
      split at hquestion <;> cases hquestion
      simp [Exchange.fits] at hx
    | jobStatus job =>
      simp only [answer?] at hanswer
      cases hstatus : JobStatus.ofPacket reply with
      | ok status => rfl
      | error e =>
        rw [hstatus] at hanswer
        contradiction
    | waitForJob job => contradiction
  · simp [hreport]

/-- What a call makes of the end of its exchange: it fails if that fails, and returns what was read if
anything was. -/
inductive Concludes (call : Call α) (server : Address) (x : Exchange) :
    Except Error (Option Exchange) → Except Error α → Prop
  | failed (e : Error) : Concludes call server x (.error e) (.error e)
  | answered (answer : Option Exchange) (v : α)
    (hanswer : ∀ p, answer = some (x.respond p).2 → call.answer? server p = some v) :
    Concludes call server x (.ok answer) (.ok v)
  | incomplete (answer : Option Exchange) (what missing : String)
    (hnone : ∀ p, answer = some (x.respond p).2 → call.answer? server p = none) :
    Concludes call server x (.ok answer) (.error (.incomplete what missing))

theorem place_concludes {call : Call α} (hquestion : call.question? c env = some (server, request, x)) :
    ∃ awaited outcome,
      call.Concludes server x (c.exchange env server request x awaited).outcome outcome ∧
      call.place c env = { c.exchange env server request x awaited with outcome } := by
  cases call with
  | submit job =>
    obtain ⟨hrunning, hrequest, hserver, rfl⟩ := question?_submit hquestion
    refine ⟨"JOB_CREATED", ?_⟩
    simp only [place, Client.submit, hrunning, hrequest, hserver]
    split
    · next hexchange =>
      rw [hexchange]
      exact ⟨_, .failed _, rfl⟩
    · next hexchange =>
      rw [hexchange]
      refine ⟨_, .answered _ _ ?_, rfl⟩
      rintro p ⟨⟩
      rfl
    · next hmissing hexchange =>
      rw [hexchange]
      refine ⟨_, .incomplete _ _ _ ?_, rfl⟩
      rintro p rfl
      exact (hmissing _ _ rfl).elim
  | echo data =>
    simp only [question?] at hquestion
    split at hquestion
    · next server hrunning hserver =>
      cases hquestion
      refine ⟨"ECHO_RES", ?_⟩
      simp only [place, Client.echo, hrunning, hserver]
      split
      · next hexchange =>
        rw [hexchange]
        exact ⟨_, .failed _, rfl⟩
      · next hexchange =>
        rw [hexchange]
        refine ⟨_, .answered _ _ ?_, rfl⟩
        rintro p ⟨⟩
        rfl
      · next hmissing hexchange =>
        rw [hexchange]
        refine ⟨_, .incomplete _ _ _ ?_, rfl⟩
        rintro p rfl
        exact (hmissing _ rfl).elim
    · contradiction
  | jobStatus job =>
    simp only [question?] at hquestion
    split at hquestion
    · next hrunning =>
      cases hquestion
      refine ⟨"STATUS_RES", ?_⟩
      simp only [place, Client.jobStatus, hrunning]
      split
      · next hexchange =>
        rw [hexchange]
        exact ⟨_, .failed _, rfl⟩
      · next hexchange =>
        rw [hexchange]
        refine ⟨_, .answered _ _ fun p hp => ?_, rfl⟩
        simp only [Exchange.respond, answer?] at hp ⊢
        split at hp <;> simp_all [Except.toOption]
      · next hmissing hexchange =>
        rw [hexchange]
        refine ⟨_, .incomplete _ _ _ fun p hp => ?_, rfl⟩
        simp only [Exchange.respond, answer?] at hp ⊢
        split at hp <;> simp_all [Except.toOption]
    · contradiction
  | waitForJob job => contradiction

/-- A call whose exchange ends with a well-formed reply returns it. -/
theorem place_of_exchange {call : Call α} {v : α}
    (hquestion : call.question? c env = some (server, request, x))
    (hanswer : call.answer? server reply = some v)
    (h : ∀ awaited, ∃ c' rest,
      c.exchange env server request x awaited = ⟨.ok (some (x.respond reply).2), c', rest⟩) :
    ∃ c' rest, call.place c env = ⟨.ok v, c', rest⟩ := by
  obtain ⟨awaited, outcome, hconcludes, hplace⟩ := place_concludes hquestion
  obtain ⟨c', rest, hexchange⟩ := h awaited
  rw [hexchange] at hconcludes hplace
  refine ⟨c', rest, hplace.trans ?_⟩
  cases hconcludes with
  | answered _ w hw =>
    obtain rfl : w = v := Option.some.inj ((hw reply rfl).symm.trans hanswer)
    rfl
  | incomplete _ what missing hnone =>
    rw [hnone reply rfl] at hanswer
    contradiction

end Call

/-- A call returns the reply that has arrived, however the stream is cut and whatever follows. The packets
in front of the reply are in order and answer what was asked before. What comes along with the end of the
reply are reports that can be read. -/
theorem arrived_reply_is_returned (settings : ClientSettings)
    (hc : Chain Step (withSettings settings) past c) (call : Call α)
    (hquestion : call.question? c env = some (server, request, x))
    (hlimit : request.payload.length ≤ c.settings.connection.maxPayloadSize.toNat)
    (hears : c.Hears env server now later (before ++ reply :: behind))
    (hbefore : Session.afterAll? (c.queue server ++ [⟨c.issued, request.kind⟩]) before =
      some [⟨c.issued, request.kind⟩])
    (hreply : Session.isReply reply ⟨c.issued, request.kind⟩ = true) {v : α}
    (hanswer : call.answer? server reply = some v)
    (hbehind : ∀ p ∈ behind, p.isReport = true ∧ p.isReadable = true) :
    ∃ c' rest, call.place c env = ⟨.ok v, c', rest⟩ := by
  obtain ⟨hrequest, hx⟩ := Call.fits_of_question? hquestion
  have hreadable := Call.isReadable_of_answer? hquestion hreply hanswer
  exact Call.place_of_exchange hquestion hanswer
    (exchange_of_hears hc hears hrequest hlimit hx hbefore hreply hreadable hbehind)

namespace Errand

/-- The reply to an echo request. -/
def echoed : Packet := .response .echoRes [0x78]

/-- A report on a job that nobody knows of. -/
def stray : Packet := .response .workFail [0x48]

/-- The surroundings in which all this arrives. -/
def sending (arrivals : List Arrival) : Surroundings := { accepts _ := true, arrivals }

/-- A client that knows one server can reach it, and hears what it sends. -/
theorem novice_hears (now later : List Arrival) (ps : List Packet)
    (hbytes : bytesFrom .default now = ps.flatMap Packet.encode)
    (hlimit : ∀ p ∈ ps, p.payload.length ≤ (67108864 : UInt32).toNat)
    (hopen : ∀ a ∈ now, a.ending = .none) :
    novice.Hears (sending (now ++ later)) .default now later ps where
  arrivals := rfl
  frames := ⟨[], ⟨{ address := .default, settings := {} }, rfl, rfl, rfl⟩, by
    rw [List.nil_append, hbytes]
    exact Packet.frames_encode ps hlimit⟩
  open_ a ha _ := hopen a ha

end Errand

open Errand

/-- The pieces of a reply and of a report behind it. -/
def Errand.pieces : List Arrival :=
  [⟨.default, echoed.encode.take 7, .none⟩, ⟨.default, echoed.encode.drop 7 ++ stray.encode, .none⟩]

/-- A reply that comes in two pieces, a report behind it, is returned, and the server may close then. -/
theorem arrived_reply_is_returned_echo : ∃ c' rest,
    (Call.echo [0x78]).place novice (sending (pieces ++ [⟨.default, [], .close⟩])) =
      ⟨.ok [0x78], c', rest⟩ := by
  have hears : novice.Hears (sending (pieces ++ [⟨.default, [], .close⟩])) .default pieces
      [⟨.default, [], .close⟩] ([] ++ echoed :: [stray]) :=
    novice_hears _ _ _ (by decide) (by decide) (by decide)
  exact arrived_reply_is_returned {} (.single (.added _ .default)) (.echo [0x78]) rfl (by decide) hears
    rfl rfl rfl (by decide)

namespace Errand

/-- The client that has asked for the echo. -/
def asked : Client :=
  (novice.start (sending []) .default (.request .echoReq [0x78]) (.echo none)).2

/-- The client that has waited for the echo. -/
def waited (arrivals : List Arrival) : Client :=
  ((replyTo 0 .default).rehearse .default 9 9 arrivals asked).elim asked (·.1.client)

theorem echo_of_rehearsal {arrivals rest : List Arrival} {outcome : Except Error Unit} {c : Client}
    {log : History}
    (hwait : (replyTo 0 .default).rehearse .default 9 9 arrivals asked =
      some (⟨some outcome, c, rest⟩, log))
    (hanswer : outcome = .ok () → c.exchange? 0 = some (.echo (some [0x78]))) :
    (novice.echo (sending arrivals) [0x78]).outcome = outcome.map fun _ => [0x78] := by
  have hstart : novice.start (sending arrivals) .default (.request .echoReq [0x78]) (.echo none) =
      (.ok 0, asked) := by
    cbv
  have hrun := (Watch.run_of_rehearsal (fun _ => rfl) hwait).1
  have hserver : novice.pickServer (sending arrivals).chance = .ok .default := rfl
  have harrivals : (sending arrivals).arrivals = arrivals := rfl
  simp only [echo, show novice.ensureRunning = .ok () from rfl, hserver, exchange, hstart, harrivals, hrun]
  cases outcome with
  | error e => rfl
  | ok _ =>
    have hanswer := hanswer rfl
    rw [exchange?] at hanswer
    simp only [takeExchange, hanswer]
    rfl

end Errand

/-- A server that closes the stream ends the call with a fault if the end comes along with the reply, and
not if it comes behind it. -/
theorem close_along_with_reply_ends_call :
    (novice.echo (sending [⟨.default, echoed.encode, .close⟩]) [0x78]).outcome =
      .error (.severed "127.0.0.1:4730") ∧
    (novice.echo (sending [⟨.default, echoed.encode, .none⟩, ⟨.default, [], .close⟩]) [0x78]).outcome =
      .ok [0x78] := by
  have htogether : (replyTo 0 .default).rehearse .default 9 9 [⟨.default, echoed.encode, .close⟩] asked =
      some (⟨some (.error (.severed "127.0.0.1:4730")), waited [⟨.default, echoed.encode, .close⟩], []⟩,
        [.packet .default (.reply 0 echoed) (some (.echo none)), .forgotten .default]) := by
    cbv
  have hbehind : (replyTo 0 .default).rehearse .default 9 9
      [⟨.default, echoed.encode, .none⟩, ⟨.default, [], .close⟩] asked =
        some (⟨some (.ok ()), waited [⟨.default, echoed.encode, .none⟩, ⟨.default, [], .close⟩],
          [⟨.default, [], .close⟩]⟩, [.packet .default (.reply 0 echoed) (some (.echo none))]) := by
    cbv
  exact ⟨echo_of_rehearsal htogether (by simp), echo_of_rehearsal hbehind fun _ => by cbv⟩

end Gearman.Client
