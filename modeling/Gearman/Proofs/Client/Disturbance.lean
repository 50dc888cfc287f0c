import Mathlib
import Gearman.Proofs.Client.Call
import Gearman.Proofs.Client.Evolution
import Gearman.Proofs.Session.Holding

/-!
What a status report that cannot be read does to a call that is about something else.

The report costs its own job nothing but a counter, and no other job anything. But whoever reads it
stops there with its error. So a call that is waiting when the report comes is over, and the exchange
that it has begun is forgotten: a handle that comes later is the handle of a job that nobody tracks. A
call that is over by then is not touched.
-/

namespace Gearman

/-- What is wrong with a status report: a field is missing, or a counter is not decimal. -/
def Packet.statusFault? (p : Packet) : Option Error :=
  match p.fields 3 with
  | .error e => some e
  | .ok fields =>
    match readCounter "numerator" (fields.getD 1 []), readCounter "denominator" (fields.getD 2 []) with
    | .error e, _ => some e
    | .ok _, .error e => some e
    | .ok _, .ok _ => none

/-- A status report that cannot be read, and why. -/
structure Packet.Garbled (p : Packet) (e : Error) : Prop where
  isResponse : p.isResponse = true
  kind : p.kind = .workStatus
  fault : p.statusFault? = some e

/-- A garbled report is refused by every result, and changes a counter of it at most. -/
theorem JobResult.apply_garbled {p : Packet} {e : Error} (h : p.Garbled e) (r : JobResult) :
    ∃ numerator, r.apply p = (.error e, { r with numerator }) := by
  have hfault := h.fault
  unfold Packet.statusFault? at hfault
  unfold apply
  rw [h.kind]
  simp only [applyStatus]
  cases hfields : p.fields 3 with
  | error e' =>
    simp only [hfields, Option.some.injEq] at hfault
    exact ⟨r.numerator, by rw [hfault]⟩
  | ok fields =>
    simp only [hfields] at hfault
    cases hnumerator : readCounter "numerator" (fields.getD 1 []) with
    | error e' =>
      simp only [hnumerator, Option.some.injEq] at hfault
      exact ⟨r.numerator, by simp only [hnumerator, hfault]⟩
    | ok numerator =>
      cases hdenominator : readCounter "denominator" (fields.getD 2 []) with
      | error e' =>
        simp only [hnumerator, hdenominator, Option.some.injEq] at hfault
        exact ⟨numerator, by simp only [hnumerator, hdenominator, hfault]⟩
      | ok denominator => simp only [hnumerator, hdenominator, reduceCtorEq] at hfault

/-- No report is the reply to a request. -/
theorem Packet.Garbled.isReply {p : Packet} {e : Error} (h : p.Garbled e) (a : Awaited) :
    Session.isReply p a = false := by
  obtain ⟨task, kind⟩ := a
  simp only [Session.isReply, h.kind]
  cases kind <;> simp [Kind.answers]

namespace Client

variable {α : Type} {c : Client} {server : Address} {s : Session} {limit : UInt32} {bs : Bytes}
  {p : Packet} {e : Error} {r : JobResult}

/-- The client that has met a garbled report on a job with result `r`. -/
def misled (c : Client) (server : Address) (p : Packet) (r : JobResult) : Client :=
  { c with jobs := c.jobs.insert (subject server p) (r.apply p).2 }

theorem dispatch_garbled (hp : p.Garbled e) (hjob : c.jobs.get? (subject server p) = some r) :
    c.dispatch server (.unsolicited p) = (.error e, c.misled server p r) := by
  obtain ⟨numerator, happly⟩ := r.apply_garbled hp
  unfold subject at hjob
  simp [dispatch, handleUnsolicited, handleUpdate, misled, subject, hp.isResponse, hp.kind,
    Kind.isUpdate, hjob, happly]

/-- Reading a garbled report on a tracked job stops with its error, unless it is not all there yet. -/
theorem pump_garbled (hs : c.sessions.get? server = some s) (hholds : s.Holds limit bs)
    (hframe : Packet.frame? limit bs = some p) (hp : p.Garbled e)
    (hjob : c.jobs.get? (subject server p) = some r) :
    ∃ s' : Session,
      c.pump server =
          (.error e, { c with sessions := c.sessions.insert server s' }.misled server p r) ∨
        c.pump server = (.ok (), { c with sessions := c.sessions.insert server s' }) ∧
          s'.Holds limit bs ∧ s'.isReady = true := by
  obtain ⟨s', hstep | ⟨hstep, hholds', hready⟩⟩ := hholds.step hframe hp.isReply
  · have hreceive : c.receive server = (.ok (some (.unsolicited p)),
        { c with sessions := c.sessions.insert server s' }) := by
      simp [receive, hs, hholds.isLive, hstep]
    have hdispatch := dispatch_garbled (c := { c with sessions := c.sessions.insert server s' }) hp hjob
    exact ⟨s', .inl (by rw [pump_event hreceive, hdispatch])⟩
  · have hreceive : c.receive server = (.ok none,
        { c with sessions := c.sessions.insert server s' }) := by
      simp [receive, hs, hholds.isLive, hstep]
    exact ⟨s', .inr ⟨pump_idle hreceive, hholds', hready⟩⟩

/-- Who waits while a garbled report comes in waits no more. -/
theorem Watch.run_garbled {w : Watch α} (hdrive : ∀ c, w.drive c = c.pump server)
    (hready : ∀ c, w.ready c = c.isReady server)
    (hsettled : ∀ sessions, w.settled { c with sessions } = none)
    (hs : c.sessions.get? server = some s) (hholds : s.Holds limit bs)
    (hframe : Packet.frame? limit bs = some p) (hp : p.Garbled e)
    (hjob : c.jobs.get? (subject server p) = some r) (arrivals : List Arrival) :
    ∃ sessions, w.run arrivals c =
      ⟨some (.error e), { c with sessions }.misled server p r, arrivals⟩ := by
  -- Each round that does not bring the report yet brings some of it from the stream.
  induction hload : c.totalLoad using Nat.strongRecOn generalizing c s with
  | _ load ih =>
    subst hload
    obtain ⟨s', hpump | ⟨hpump, hholds', hready'⟩⟩ := pump_garbled hs hholds hframe hp hjob
    · exact ⟨_, run_fault (hsettled c.sessions) (by rw [hdrive, hpump])⟩
    · have hmore : ({ c with sessions := c.sessions.insert server s' } : Client).isReady server =
          true := by
        simpa [isReady] using hready'
      obtain ⟨sessions, hrun⟩ := ih _ (totalLoad_of_pump hpump hmore)
        (c := { c with sessions := c.sessions.insert server s' }) hsettled
        Table.get?_insert_self hholds' hjob rfl
      refine ⟨sessions, ?_⟩
      rw [run_round (hsettled c.sessions) (by rw [hdrive, hpump]), hsettled, ite_self, hready,
        if_pos hmore, hrun]

/-- The goal of a call that is not over was not reached, and no end of its wait was in sight. -/
def Goal.Unmet (goal : Goal) (c : Client) : Prop :=
  match goal with
  | .reply id server => (replyTo id server).settled c = none
  | .result job => (endOf job).settled c = none

/-- Whether a goal was reached does not depend on what servers have sent since. -/
theorem Goal.Unmet.sessions {goal : Goal} (h : goal.Unmet c) (sessions : Table Address Session) :
    goal.Unmet { c with sessions } := by
  revert h
  cases goal with
  | reply id server =>
    simp only [Unmet, replyTo]
    cases c.tasks.get? id with
    | none => simp
    | some pending => cases pending.task.state.isAnswered <;> simp
  | result job =>
    simp only [Unmet, endOf, takeResult]
    cases c.finished.get? job <;> simp

theorem Goal.fails_of_garbled {goal : Goal} (hunmet : goal.Unmet c)
    (hs : c.sessions.get? goal.server = some s) (hholds : s.Holds limit bs)
    (hframe : Packet.frame? limit bs = some p) (hp : p.Garbled e)
    (hjob : c.jobs.get? (subject goal.server p) = some r) (arrivals : List Arrival) :
    ∃ sessions, goal.Fails arrivals c e ({ c with sessions }.misled goal.server p r) arrivals := by
  cases goal with
  | reply id server =>
    exact Watch.run_garbled (fun _ => rfl) (fun _ => rfl) hunmet.sessions hs hholds hframe hp hjob
      arrivals
  | result job =>
    exact Watch.run_garbled (fun _ => rfl) (fun _ => rfl) hunmet.sessions hs hholds hframe hp hjob
      arrivals

theorem unmet_of_exchangeStanding {env : Surroundings} {request : Packet} {x : Exchange}
    {st : Standing} (h : c.exchangeStanding? env server request x = some st) :
    st.goal.Unmet st.client := by
  unfold exchangeStanding? at h
  split at h
  · contradiction
  · next id c₁ hstart =>
    obtain ⟨c₂, -, hend⟩ := Watch.run_cases (w := replyTo id server) (fun c => evolves_pump c server)
      env.arrivals c₁
    split at h
    · next c' rest hrun =>
      cases h
      rw [hrun] at hend
      obtain ⟨_, hr, -⟩ | ⟨⟨_, he⟩, -⟩ | ⟨-, rfl, hwaits⟩ := hend
      · contradiction
      · contradiction
      · simpa [Goal.Unmet, replyTo] using hwaits
    · contradiction

/-- A standing call whose server has sent whole packets so far and has a job of which `p` tells, with
`r` known of it. No result is there for the call to collect. -/
structure Standing.Exposed (st : Standing) (p : Packet) (r : JobResult) : Prop where
  uncollected : ∀ job, st.goal = .result job → st.client.finished.get? job = none
  session : ∃ s limit, st.client.sessions.get? st.goal.server = some s ∧ s.Holds limit [] ∧
    p.payload.length ≤ limit.toNat
  tracked : st.client.jobs.get? (subject st.goal.server p) = some r

theorem Standing.Exposed.unmet {call : Call α} {env : Surroundings} {st : Standing}
    (h : st.Exposed p r) (hstanding : call.standing? c env = some st) :
    st.goal.Unmet st.client := by
  rcases Call.standing?_cases hstanding with ⟨server, request, x, hexchange⟩ |
    ⟨job, rest, hgoal, hrun⟩
  · exact unmet_of_exchangeStanding hexchange
  · obtain ⟨c', -, hend⟩ := Watch.run_cases (w := endOf job) (fun c => evolves_pump c job.server)
      env.arrivals c
    rw [hrun] at hend
    have hnone := h.uncollected job hgoal
    rw [hgoal]
    obtain ⟨_, hr, -⟩ | ⟨⟨_, he⟩, -⟩ | ⟨-, rfl, hwaits | hsettled⟩ := hend
    · contradiction
    · contradiction
    · simp only [endOf] at hwaits
      simp [Goal.Unmet, endOf, takeResult, hnone, hwaits]
    · exact hsettled

/-- A garbled report at the front of what arrives next is the end of a standing call. -/
theorem Standing.Exposed.fails {st : Standing} (h : st.Exposed p r)
    (hunmet : st.goal.Unmet st.client) (hp : p.Garbled e) (behind : Bytes)
    (arrivals : List Arrival) :
    ∃ sessions, st.goal.Fails arrivals
      (st.client.deliver ⟨st.goal.server, p.encode ++ behind, .none⟩).1 e
      ({ st.client with sessions }.misled st.goal.server p r) arrivals := by
  obtain ⟨s, limit, hs, hholds, hlimit⟩ := h.session
  have hdeliver : (st.client.deliver ⟨st.goal.server, p.encode ++ behind, .none⟩).1 =
      { st.client with
        sessions := st.client.sessions.insert st.goal.server
          (s.deliver ⟨st.goal.server, p.encode ++ behind, .none⟩).1 } := by
    simp [deliver, hs]
  rw [hdeliver]
  exact Goal.fails_of_garbled (hunmet.sessions _) Table.get?_insert_self (hholds.deliver _ _)
    (Packet.frame?_encode hlimit behind) hp h.tracked arrivals

/-- A garbled report ends the call that is waiting when it comes, and no other.

A call that is over before the report comes has the answer that it would have without the report. A
call that is not over is answered with the error of the report, whatever comes behind it. No job but
the one reported on is touched, but the exchange of the call is given up: its reply will be passed
over, so a job that it names will not be tracked. -/
theorem garbled_report_ends_standing_call (call : Call α) (c : Client) (env : Surroundings)
    (hp : p.Garbled e) :
    (call.standing? c env = none → ∀ more,
      call.place c { env with arrivals := env.arrivals ++ more } =
        (call.place c env).followedBy more) ∧
    ∀ st r, call.standing? c env = some st → st.Exposed p r → ∀ behind after, ∃ c',
      call.place c { env with
          arrivals := env.arrivals ++ ⟨st.goal.server, p.encode ++ behind, .none⟩ :: after } =
        ⟨.error e, c', after⟩ ∧
      (∃ sessions,
        c' = st.goal.abandon ({ st.client with sessions }.misled st.goal.server p r)) ∧
      (∀ job, job ≠ subject st.goal.server p → c'.jobs.get? job = st.client.jobs.get? job) ∧
      ∀ id server, st.goal = .reply id server → ∀ q,
        c'.dispatch server (.reply id q) = (.ok (), c') := by
  refine ⟨call.place_of_over, fun st r hstanding hexposed behind after => ?_⟩
  obtain ⟨sessions, hfails⟩ :=
    hexposed.fails (hexposed.unmet hstanding) hp behind after
  refine ⟨_, call.place_of_fails hstanding hfails, ⟨sessions, rfl⟩, fun job hne => ?_, ?_⟩
  · rw [Goal.jobs_abandon]
    exact Table.get?_insert_of_ne (Ne.symm hne)
  · rintro id server hgoal q
    simp [hgoal, Goal.abandon, dispatch, handleReply]

namespace Errand

/-- A job with nothing in it. -/
def job : Job := { function := "", data := [], uniqueId := "" }

def created (handle : Bytes) : Packet := .response .jobCreated handle

/-- Servers that accept every connection, one of which sends these chunks. -/
def hearing (chunks : List Bytes) : Surroundings where
  accepts _ := true
  arrivals := chunks.map fun bytes => ⟨.default, bytes, .none⟩

/-- The client that has submitted the job. -/
def asking (c : Client) : Client :=
  (c.start (hearing []) .default (.request .submitJob [0, 0]) (.submission false none)).2

/-- The client that has read the reply to its submission. -/
def told (c : Client) (handle : Bytes) : Client :=
  (((asking c).deliver ⟨.default, (created handle).encode, .none⟩).1.receive .default).2

/-- The client that has handled the reply to its submission. -/
def answered (c : Client) (handle : Bytes) : Client :=
  ((told c handle).dispatch .default (.reply c.issued (created handle))).2

/-- A client that can submit the job and reads nothing but this reply. -/
structure Runs (c : Client) (handle : Bytes) : Prop where
  running : c.ensureRunning = .ok ()
  server : c.pickServer 0 = .ok .default
  begun : c.start (hearing []) .default (.request .submitJob [0, 0]) (.submission false none) =
    (.ok c.issued, asking c)
  unmet : (replyTo c.issued .default).settled (asking c) = none
  idle : (asking c).receive .default = (.ok none, asking c)
  unready : (asking c).isReady .default = false
  read : ((asking c).deliver ⟨.default, (created handle).encode, .none⟩).1.receive .default =
    (.ok (some (.reply c.issued (created handle))), told c handle)
  handled : (told c handle).dispatch .default (.reply c.issued (created handle)) =
    (.ok (), answered c handle)
  done : (answered c handle).receive .default = (.ok none, answered c handle)
  settled : (replyTo c.issued .default).settled (answered c handle) =
    some (.ok (), answered c handle)
  taken : ((answered c handle).takeExchange c.issued).1 = some (.submission false (some handle))

variable {handle : Bytes}

/-- Without the reply the submission is not over. -/
theorem Runs.standing (h : Runs c handle) : (Call.submit job).standing? c (hearing []) =
    some ⟨.reply c.issued .default, asking c⟩ := by
  have hrequest : job.toPacket = .ok (.request .submitJob [0, 0]) := rfl
  have hserver : c.pickServer (hearing []).chance = .ok .default := h.server
  have hdrive : (replyTo c.issued .default).drive (asking c) = (.ok (), asking c) := pump_idle h.idle
  have hready : (replyTo c.issued .default).ready (asking c) = false := h.unready
  have hrun : (replyTo c.issued .default).run (hearing []).arrivals (asking c) =
      ⟨none, asking c, []⟩ := by
    rw [Watch.run_round h.unmet hdrive, h.unmet, ite_self, hready]
    rfl
  simp only [Call.standing?, h.running, hrequest, hserver, exchangeStanding?]
  rw [show job.background = false from rfl, h.begun]
  simp only [hrun]

/-- With the reply it is answered with the handle. -/
theorem Runs.submit (h : Runs c handle) : c.submit (hearing [(created handle).encode]) job =
    ⟨.ok ⟨handle, .default⟩, ((answered c handle).takeExchange c.issued).2, []⟩ := by
  have hrequest : job.toPacket = .ok (.request .submitJob [0, 0]) := rfl
  have hserver : c.pickServer (hearing [(created handle).encode]).chance = .ok .default := h.server
  have hstart : c.start (hearing [(created handle).encode]) .default (.request .submitJob [0, 0])
      (.submission false none) = (.ok c.issued, asking c) := h.begun
  have hidle : (replyTo c.issued .default).drive (asking c) = (.ok (), asking c) := pump_idle h.idle
  have hready : (replyTo c.issued .default).ready (asking c) = false := h.unready
  have hunmet : (replyTo c.issued .default).settled
      ((asking c).deliver ⟨.default, (created handle).encode, .none⟩).1 = none := by
    have hopen : (Goal.reply c.issued .default).Unmet (asking c) := h.unmet
    obtain ⟨sessions, hdeliver⟩ := deliver_keeps (asking c) ⟨.default, (created handle).encode, .none⟩
    rw [hdeliver]
    exact hopen.sessions sessions
  have hdrive : (replyTo c.issued .default).drive
      ((asking c).deliver ⟨.default, (created handle).encode, .none⟩).1 =
        (.ok (), answered c handle) := by
    change pump _ .default = _
    rw [pump_event h.read, h.handled]
    exact pump_idle h.done
  have hwaits : (replyTo c.issued .default).waits (answered c handle) = false := by
    change ((replyTo c.issued .default).settled (answered c handle)).isNone = false
    rw [h.settled]
    rfl
  have hrun : (replyTo c.issued .default).run (hearing [(created handle).encode]).arrivals
      (asking c) = ⟨some (.ok ()), answered c handle, []⟩ := by
    rw [Watch.run_round h.unmet hidle, h.unmet, ite_self, hready]
    change (replyTo c.issued .default).run [] _ = _
    rw [Watch.run_round hunmet hdrive, hwaits, if_neg Bool.false_ne_true, h.settled]
  simp only [Client.submit, exchange, h.running, hrequest, hserver]
  rw [show job.background = false from rfl, hstart]
  simp only [hrun, h.taken]

/-- The client that knows of one job, and what it did to know of it. -/
def occupied : Client :=
  ((answered ((withSettings {}).addServer .default).2 [0x42]).takeExchange 0).2

def preparations : List Operation :=
  [.addServer .default, .submit (hearing [(created [0x42]).encode]) job]

theorem runs_fresh : Runs ((withSettings {}).addServer .default).2 [0x42] := by
  constructor <;> cbv

theorem runs_occupied : Runs occupied [0x41] := by
  constructor <;> cbv

theorem performAll_preparations : (withSettings {}).performAll preparations = occupied := by
  simp only [performAll, preparations, List.foldl_cons, List.foldl_nil, perform]
  rw [runs_fresh.submit]
  rfl

/-- A report on that job with a numerator that is no number. -/
def report : Packet := .response .workStatus [0x42, 0, 0x78, 0, 0x31]

theorem report_garbled : report.Garbled (.notDecimal "numerator" "x") := by
  constructor <;> cbv

theorem exposed :
    Standing.Exposed ⟨.reply occupied.issued .default, asking occupied⟩ report (.pending [0x42]) := by
  have hheld : ((asking occupied).sessions.get? .default).bind (fun s => s.connection?.map fun c =>
      (c.outbound, c.stream.uptakes, c.maxPayload, c.sawEnd, c.stream.fate, c.pending)) =
        some (.empty, [], Header.defaultMaxPayload, false, .flowing, []) := by
    cbv
  obtain ⟨s, hs, hconnection⟩ := Option.bind_eq_some_iff.1 hheld
  obtain ⟨connection, hc, hholds⟩ := Option.map_eq_some_iff.1 hconnection
  simp only [Prod.mk.injEq] at hholds
  obtain ⟨houtbound, huptakes, hlimit, hopen, hfate, hpending⟩ := hholds
  refine ⟨?_, ⟨s, Header.defaultMaxPayload, hs, ?_, ?_⟩, ?_⟩
  · rintro job ⟨⟩
  · exact ⟨connection, s.awaiting, Session.connection?_eq_some_iff.1 hc, ⟨houtbound, huptakes⟩, hlimit,
      hopen, hfate, hpending⟩
  · decide
  · cbv

end Errand

open Errand

/-- A submission is refused for a report on another job. -/
theorem garbled_report_ends_submission : ∃ c',
    (Call.submit job).place occupied (hearing [report.encode ++ (created [0x41]).encode]) =
      ⟨.error (.notDecimal "numerator" "x"), c', []⟩ ∧
    ∀ q, c'.dispatch .default (.reply occupied.issued q) = (.ok (), c') := by
  obtain ⟨c', hplace, -, -, hreply⟩ := (garbled_report_ends_standing_call (.submit job) occupied
    (hearing []) report_garbled).2 _ _ runs_occupied.standing exposed (created [0x41]).encode []
  exact ⟨c', hplace, hreply _ _ rfl⟩

/-- The same replies make a job known when the garbled report is not among them, and nothing when it
is. -/
theorem garbled_report_loses_submission : ∃ undisturbed disturbed,
    ((withSettings {}).performAll preparations).jobs.contains (subject .default report) = true ∧
    ((withSettings {}).performAll preparations).submit (hearing [(created [0x41]).encode]) job =
      ⟨.ok ⟨[0x41], .default⟩, undisturbed, []⟩ ∧
    undisturbed.jobs.contains ⟨[0x41], .default⟩ = true ∧
    ((withSettings {}).performAll preparations).submit
        (hearing [report.encode ++ (created [0x41]).encode]) job =
      ⟨.error (.notDecimal "numerator" "x"), disturbed, []⟩ ∧
    disturbed.jobs.contains ⟨[0x41], .default⟩ = false ∧
    ∀ q, disturbed.dispatch .default (.reply occupied.issued q) = (.ok (), disturbed) := by
  obtain ⟨sessions, hfails⟩ := exposed.fails runs_occupied.unmet report_garbled
    (created [0x41]).encode []
  have hdisturbed := Call.place_of_fails (.submit job) runs_occupied.standing hfails
  rw [performAll_preparations]
  refine ⟨_, _, ?_, runs_occupied.submit, ?_, hdisturbed, ?_, fun q => ?_⟩
  · cbv
  · cbv
  · rw [Table.contains, Goal.jobs_abandon]
    cbv
  · simp [Goal.abandon, dispatch, handleReply]

end Client

end Gearman
