import Gearman.Proofs.Client.Growth
import Gearman.Proofs.Client.Replies

/-!
The result of a job that has ended is delivered to whoever waits for it. The server may do what it likes
once the final report is through. The exceptions are a fault along with the end of that report, which the
client meets before it looks for the result; a reply along with the report that gives a job this handle
again; and a result of an earlier job with the same handle, which is delivered in place of the job's own.
-/

namespace Gearman

/-- Whether a packet from the server of a job ends the job. -/
def Packet.ends (p : Packet) (job : JobHandle) : Bool :=
  p.isReport && p.kind.isFinal && p.handleAndRest.1 = job.handle

/-- Whether a packet from the server of a job can give a job its handle. -/
def Packet.names (p : Packet) (job : JobHandle) : Bool :=
  p.kind = .jobCreated && p.payload = job.handle

/-- A final report can always be read. -/
theorem Packet.isReadable_of_ends {p : Packet} {job : JobHandle} (h : p.ends job = true) :
    p.isReport = true ∧ p.kind.isFinal = true ∧ p.isReadable = true := by
  simp only [ends, Bool.and_eq_true] at h
  obtain ⟨⟨hreport, hfinal⟩, -⟩ := h
  refine ⟨hreport, hfinal, ?_⟩
  unfold isReadable
  split
  · next hkind =>
    rw [hkind] at hfinal
    contradiction
  · rw [JobResult.apply_final _ hfinal]
    rfl

/-- A report names no job that is new. -/
theorem Packet.names_of_isReport {p : Packet} (job : JobHandle) (h : p.isReport = true) :
    p.names job = false := by
  cases hkind : p.kind <;> simp_all [names, isReport, Kind.isUpdate, Kind.isFinal]

namespace Client

variable {settings : ClientSettings} {past log new : History} {c c' : Client} {env : Surroundings}
  {server : Address} {job : JobHandle} {id : TaskId} {k : Kind} {x : Exchange}
  {p created last : Packet} {ps early middle behind : List Packet} {arrivals : List Arrival}
  {held : Option JobResult}

namespace Happening

variable {event : Session.Event} {x : Option Exchange}

theorem report?_packet : (packet job.server event x).report? job =
    if event.packet.isReport = true ∧ event.packet.handleAndRest.1 = job.handle then some event.packet
    else none := by
  simp [report?]

theorem open_of_ends (h : event.packet.ends job = false) :
    ∀ p ∈ (packet job.server event x).report? job, p.kind.isFinal = false := by
  intro p hp
  rw [report?_packet] at hp
  split at hp
  · next hreport =>
    obtain rfl := Option.some.inj hp
    simpa [Packet.ends, hreport] using h
  · contradiction

theorem creates_of_names (h : event.packet.names job = false) :
    (packet job.server event x).creates job = false := by
  unfold creates
  split
  · next heq =>
    cases heq
    simp only [Session.Event.packet, Packet.names, Bool.and_eq_false_iff] at h
    simp only [Bool.and_assoc, Bool.and_eq_false_iff]
    exact .inr (h.imp_right .inl)
  · rfl

end Happening

/-- The handling of a packet is one happening, which is about that packet. -/
theorem Handles.happening (h : Handles c server p new c') :
    ∃ event x, new = [.packet server event x] ∧ event.packet = p := by
  cases h with
  | reply => exact ⟨_, _, rfl, rfl⟩
  | report => exact ⟨_, _, rfl, rfl⟩

theorem Orderly.entry {e : Happening} (h : Orderly settings past server log c ps)
    (h' : Orderly settings past server (log ++ [e]) c' early) :
    c'.entry job = (c.entry job).next job e := by
  rw [entry_eq_replay h'.chain, entry_eq_replay h.chain, ← List.append_assoc]
  simp [replay]

/-- A packet that does not end a job takes away nothing that is known of it. -/
theorem Orderly.entry_of_open (h : Orderly settings past job.server log c (p :: ps))
    (hhandles : Handles c job.server p new c')
    (h' : Orderly settings past job.server (log ++ new) c' ps) (hp : p.ends job = false) :
    (c'.entry job).finished = (c.entry job).finished ∧
      ((c.entry job).tracked.isSome = true → (c'.entry job).tracked.isSome = true) := by
  obtain ⟨event, x, rfl, rfl⟩ := hhandles.happening
  rw [h.entry h']
  exact Entry.next_of_open (Happening.open_of_ends hp) rfl rfl

/-- In `log`, which comes after `past`, the job ends by the report `last`, and `reports` are those on the
job since it was created. -/
def EndsBy (past log : History) (job : JobHandle) (last : Packet) (reports : List Packet) : Prop :=
  ∃ before since, log = before ++ .packet job.server (.unsolicited last) none :: since ∧
    Completes (past ++ before) (.packet job.server (.unsolicited last) none) job reports

theorem EndsBy.append {reports : List Packet} (h : EndsBy past log job last reports) (new : History) :
    EndsBy past (log ++ new) job last reports := by
  obtain ⟨before, since, rfl, hcompletes⟩ := h
  exact ⟨before, since ++ new, by simp, hcompletes⟩

/-- The final report on a tracked job ends the job. -/
theorem Orderly.ended (h : Orderly settings past job.server log c (p :: ps))
    (htracked : (c.entry job).tracked.isSome = true) (hhandles : Handles c job.server p new c')
    (h' : Orderly settings past job.server (log ++ new) c' ps) (hp : p.ends job = true) :
    ∃ reports, EndsBy past (log ++ new) job p reports ∧
      c'.entry job = ⟨none, some (.tally job.handle reports)⟩ := by
  obtain ⟨hreport, hfinal, -⟩ := Packet.isReadable_of_ends hp
  obtain ⟨r, hr⟩ := Option.isSome_iff_exists.1 htracked
  obtain ⟨before, hbefore, rfl⟩ :=
    tracked_replay_iff.1 ((congrArg Entry.tracked (entry_eq_replay h.chain job)).symm.trans hr)
  cases hhandles with
  | reply _ hreply =>
    rw [Session.isReply_of_isReport hreport] at hreply
    contradiction
  | report =>
    have hnews : (Happening.packet job.server (.unsolicited p) none).report? job = some p := by
      simp only [Packet.ends, Bool.and_eq_true, decide_eq_true_eq] at hp
      simp [Happening.report?_packet, Session.Event.packet, hreport, hp.2]
    refine ⟨before ++ [p], ⟨log, [], rfl, before, p, hbefore, hnews, hfinal, rfl⟩, ?_⟩
    rw [h.entry h', Entry.next_report rfl hnews, hr]
    simp [hfinal, JobResult.tally]

/-- A tracked job whose final report is still to come, while `held` is there of an earlier job with its
handle, or has come while no packet to come gives its handle to another job. -/
def Finishes (past : History) (job : JobHandle) (held : Option JobResult) (last : Packet)
    (behind : List Packet) (log : History) (c : Client) (ps : List Packet) : Prop :=
  (∃ early, ps = early ++ last :: behind ∧ (c.entry job).tracked.isSome = true ∧
    (c.entry job).finished = held ∧ ∀ p ∈ early, p.ends job = false) ∨
  ∃ reports, EndsBy past log job last reports ∧
    c.entry job = ⟨none, some (.tally job.handle reports)⟩ ∧ ∀ p ∈ ps, p.names job = false

theorem Finishes.next (h : Finishes past job held last behind log c (p :: ps))
    (horderly : Orderly settings past job.server log c (p :: ps))
    (hhandles : Handles c job.server p new c')
    (horderly' : Orderly settings past job.server (log ++ new) c' ps) (hlast : last.ends job = true)
    (hbehind : ∀ p ∈ behind, p.names job = false) :
    Finishes past job held last behind (log ++ new) c' ps := by
  obtain ⟨_ | ⟨first, early⟩, hps, htracked, hheld, hopen⟩ | ⟨reports, hends, hentry, hunnamed⟩ := h
  · obtain ⟨rfl, rfl⟩ := List.cons_eq_cons.1 hps
    obtain ⟨reports, hends, hentry⟩ := horderly.ended htracked hhandles horderly' hlast
    exact .inr ⟨reports, hends, hentry, hbehind⟩
  · obtain ⟨rfl, rfl⟩ := List.cons_eq_cons.1 hps
    obtain ⟨hfinished, hkept⟩ :=
      horderly.entry_of_open hhandles horderly' (hopen _ List.mem_cons_self)
    exact .inl ⟨early, rfl, hkept htracked, hfinished.trans hheld,
      fun p hp => hopen p (List.mem_cons_of_mem _ hp)⟩
  · obtain ⟨event, x, rfl, rfl⟩ := hhandles.happening
    have hnew := Happening.creates_of_names (x := x) (hunnamed _ List.mem_cons_self)
    have huntracked : (c.entry job).tracked = none := congrArg Entry.tracked hentry
    obtain ⟨hnone, hkept⟩ := Entry.next_of_untracked huntracked hnew
    refine .inr ⟨reports, hends.append _, ?_, fun p hp => hunnamed p (List.mem_cons_of_mem _ hp)⟩
    rw [horderly.entry horderly']
    exact congrArg₂ Entry.mk hnone (hkept.trans (congrArg Entry.finished hentry))

/-- A job comes to its end while packets in order come in. -/
theorem course_finishes (hlast : last.ends job = true) (hbehind : ∀ p ∈ behind, p.names job = false) :
    Course job.server fun log c ps => Orderly settings past job.server log c ps ∧
      Finishes past job held last behind log c ps :=
  course_of_orderly (fun _ _ h => h) fun horderly hfinishes hhandles horderly' =>
    hfinishes.next horderly hhandles horderly' hlast hbehind

/-- Who waits for a job sees its result when it has come to its end, and before that what is held of an
earlier job. -/
theorem Finishes.settled {answer : Except Error JobResult}
    (h : Finishes past job held last behind log c ps) (hanswer : (endOf job).settled c = some (answer, c')) :
    ∃ r, answer = .ok r ∧
      ((∃ reports, EndsBy past log job last reports ∧ r = .tally job.handle reports) ∨ held = some r) := by
  simp only [endOf] at hanswer
  obtain ⟨early, -, htracked, hheld, -⟩ | ⟨reports, hends, hentry, -⟩ := h
  · have hfinished : c.finished.get? job = held := hheld
    have hcontains : c.jobs.contains job = true := htracked
    cases held with
    | none => simp [takeResult, hfinished, hcontains] at hanswer
    | some r =>
      simp only [takeResult, hfinished] at hanswer
      cases hanswer
      exact ⟨r, rfl, .inr rfl⟩
  · have hfinished : c.finished.get? job = some (.tally job.handle reports) :=
      congrArg Entry.finished hentry
    simp only [takeResult, hfinished] at hanswer
    cases hanswer
    exact ⟨_, rfl, .inl ⟨reports, hends, rfl⟩⟩

/-- When all packets are handled, the wait is over. -/
theorem Finishes.over (h : Finishes past job held last behind log c []) :
    (endOf job).waits c = false ∧ ∃ answer, (endOf job).settled c = some answer := by
  obtain ⟨early, hps, -⟩ | ⟨reports, -, hentry, -⟩ := h
  · simp at hps
  · have hnone : c.jobs.get? job = none := congrArg Entry.tracked hentry
    have hsome : c.finished.get? job = some (.tally job.handle reports) := congrArg Entry.finished hentry
    simp [endOf, takeResult, hsome, Table.contains, hnone]

/-- Who waits for a job that comes to its end gets its result, or the one that is held already. -/
theorem wait_of_finishes (env : Surroundings) (hlast : last.ends job = true)
    (hbehind : ∀ p ∈ behind, p.names job = false) (horderly : Orderly settings past job.server log c ps)
    (h : Finishes past job held last behind log c ps) (hbrings : c.Brings job.server arrivals ps)
    (later : List Arrival) :
    ∃ r c' rest, c.waitForJob { env with arrivals := arrivals ++ later } job = ⟨.ok r, c', rest⟩ ∧
      ((∃ reports, EndsBy past (log ++ endHistory job (arrivals ++ later) c) job last reports ∧
        r = .tally job.handle reports) ∨ held = some r) := by
  obtain ⟨c₁, outcome, c₂, rest, left, hsettled, hrun, ⟨-, hfinishes⟩, -⟩ :=
    (course_finishes hlast hbehind).run (fun _ => rfl) (fun _ => rfl) (fun log c hc => hc.2.over) hbrings
      ⟨horderly, h⟩ later
  obtain ⟨r, rfl, hr⟩ := hfinishes.settled hsettled
  refine ⟨r, c₂, rest ++ later, ?_, hr⟩
  simp only [waitForJob, hrun]

/-- In `log`, which comes after `past`, the attached submission `id` reads the reply `created`, and `held`
is there then of an earlier job with the handle of `job`. -/
def Meets (settings : ClientSettings) (past log : History) (id : TaskId) (created : Packet)
    (job : JobHandle) (held : Option JobResult) : Prop :=
  ∃ front told, front ++ [.packet job.server (.reply id created) (some (.submission false none))] <+: log ∧
    Chain Step (withSettings settings) (past ++ front) told ∧ told.finished.get? job = held

theorem Meets.append (h : Meets settings past log id created job held) (new : History) :
    Meets settings past (log ++ new) id created job held := by
  obtain ⟨front, told, hfront, hchain, hheld⟩ := h
  exact ⟨front, told, hfront.trans (List.prefix_append _ _), hchain, hheld⟩

/-- A submission that expects the packet `created` as its reply, or the job that it has named then. -/
def Promises (settings : ClientSettings) (past : History) (job : JobHandle) (id : TaskId) (k : Kind)
    (created : Packet) (middle : List Packet) (last : Packet) (behind : List Packet) (log : History)
    (c : Client) (ps : List Packet) : Prop :=
  (∃ before, ps = before ++ created :: (middle ++ last :: behind) ∧
    Expects c job.server id k (.submission false none) before) ∨
  Replied c job.server id (.submission false (some job.handle)) ∧
    ∃ held, Meets settings past log id created job held ∧ Finishes past job held last behind log c ps

/-- The reply to an attached submission starts to track the job. -/
theorem Expects.entry (h : Expects c job.server id k (.submission false none) [])
    (horderly : Orderly settings past job.server log c (p :: ps))
    (hp : Session.isReply p ⟨id, k⟩ = true) (hjob : p.payload = job.handle)
    (hhandles : Handles c job.server p new c')
    (horderly' : Orderly settings past job.server (log ++ new) c' ps) :
    (c'.entry job).tracked.isSome = true ∧ (c'.entry job).finished = (c.entry job).finished := by
  obtain ⟨pending, -, -, -, hwaiting⟩ := h.held
  obtain ⟨rfl, -⟩ := h.reply hp hhandles
  rw [Session.isReply, Bool.and_eq_true] at hp
  have hkind := Exchange.kind_of_isAttached rfl hwaiting.fits hp.2
  rw [horderly.entry horderly', Entry.next_created]
  · exact ⟨rfl, rfl⟩
  · simp [Happening.creates, hkind, hjob, Exchange.isAttached]
  · simp [Happening.report?_packet, Session.Event.packet, Packet.isReport, hkind, Kind.isUpdate,
      Kind.isFinal]

theorem course_promises (hcreated : Session.isReply created ⟨id, k⟩ = true)
    (hjob : created.payload = job.handle) (hmiddle : ∀ p ∈ middle, p.ends job = false)
    (hlast : last.ends job = true) (hbehind : ∀ p ∈ behind, p.names job = false) :
    Course job.server fun log c ps => Orderly settings past job.server log c ps ∧
      Promises settings past job id k created middle last behind log c ps := by
  refine course_of_orderly (Q := Promises settings past job id k created middle last behind) ?_ ?_
  · rintro log c ps sessions hqueue (⟨before, hps, hheld, horder⟩ | ⟨⟨hheld, hnone⟩, hmeets⟩)
    · exact .inl ⟨before, hps, hheld, by rwa [hqueue]⟩
    · exact .inr ⟨⟨hheld, hqueue.trans hnone⟩, hmeets⟩
  · rintro log c p ps new c' horderly
      (⟨_ | ⟨first, before⟩, hps, hexpects⟩ | ⟨hreplied, held, hmeets, hfinishes⟩) hhandles horderly'
    · obtain ⟨rfl, rfl⟩ := List.cons_eq_cons.1 hps
      obtain ⟨hnew, hreplied⟩ := hexpects.reply hcreated hhandles
      obtain ⟨htracked, hfinished⟩ := hexpects.entry horderly hcreated hjob hhandles horderly'
      rw [Exchange.respond, hjob] at hreplied
      exact .inr ⟨hreplied, _, ⟨log, c, hnew ▸ List.prefix_refl _, horderly.chain, rfl⟩,
        .inl ⟨middle, rfl, htracked, hfinished, hmiddle⟩⟩
    · obtain ⟨rfl, rfl⟩ := List.cons_eq_cons.1 hps
      exact .inl ⟨before, rfl, hexpects.next horderly.sound hhandles⟩
    · exact .inr ⟨hreplied.next hhandles, held, hmeets.append new,
        hfinishes.next horderly hhandles horderly' hlast hbehind⟩

/-- Who waits for the reply sees nothing before it, and the job is tracked or over then. -/
theorem Promises.settled {r : Except Error Unit}
    (h : Promises settings past job id k created middle last behind log c ps)
    (hr : (replyTo id job.server).settled c = some (r, c')) : r = .ok () ∧ c' = c ∧
      Replied c job.server id (.submission false (some job.handle)) ∧
      ∃ held, Meets settings past log id created job held ∧
        Finishes past job held last behind log c ps := by
  obtain ⟨before, -, hexpects⟩ | ⟨hreplied, hmeets⟩ := h
  · rw [hexpects.unsettled] at hr
    contradiction
  · rw [hreplied.settled.2] at hr
    cases hr
    exact ⟨rfl, rfl, hreplied, hmeets⟩

/-- When all packets are handled, the submission has read its reply. -/
theorem Promises.over (h : Promises settings past job id k created middle last behind log c []) :
    (replyTo id job.server).waits c = false ∧
      ∃ answer, (replyTo id job.server).settled c = some answer := by
  obtain ⟨before, hps, -⟩ | ⟨hreplied, -⟩ := h
  · simp at hps
  · exact ⟨hreplied.settled.1, _, hreplied.settled.2⟩

/-- A job that is tracked comes to its end by the report `last`, which is through with the pieces `now`.
What comes along with it gives no job its handle. -/
structure HearsEnd (c : Client) (env : Surroundings) (job : JobHandle) (now later : List Arrival)
    (early : List Packet) (last : Packet) (behind : List Packet) : Prop where
  tracked : c.jobs.contains job = true
  hears : c.Hears env job.server now later (early ++ last :: behind)
  order : ∃ rest, Session.afterAll? (c.queue job.server) (early ++ last :: behind) = some rest
  isOpen : ∀ p ∈ early, p.ends job = false
  ends : last.ends job = true
  unnamed : ∀ p ∈ behind, p.names job = false

/-- The reply `created` to the submission of `j` names `job`, which comes to its end by the report `last`,
and both are through with the pieces `now`. -/
structure HearsJob (c : Client) (env : Surroundings) (j : Job) (job : JobHandle) (now later : List Arrival)
    (before : List Packet) (created : Packet) (middle : List Packet) (last : Packet)
    (behind : List Packet) : Prop where
  attached : j.background = false
  request : ∃ request, (Call.submit j).question? c env =
      some (job.server, request, .submission false none) ∧
    request.payload.length ≤ c.settings.connection.maxPayloadSize.toNat ∧
    Session.afterAll? (c.queue job.server ++ [⟨c.issued, request.kind⟩]) before =
      some [⟨c.issued, request.kind⟩] ∧
    Session.isReply created ⟨c.issued, request.kind⟩ = true
  hears : c.Hears env job.server now later (before ++ created :: (middle ++ last :: behind))
  handle : created.payload = job.handle
  isOpen : ∀ p ∈ middle, p.ends job = false
  ends : last.ends job = true
  reports : ∀ p ∈ middle ++ last :: behind, p.isReport = true ∧ p.isReadable = true

/-- What comes along with the report gives no job its handle, since it is reports. -/
theorem HearsJob.unnamed {j : Job} {now later : List Arrival} {before : List Packet}
    (h : c.HearsJob env j job now later before created middle last behind) :
    ∀ p ∈ behind, p.names job = false := fun p hp =>
  p.names_of_isReport job (h.reports p (List.mem_append_right _ (List.mem_cons_of_mem _ hp))).1

/-- An attached submission whose job comes to its end returns the handle and leaves the job tracked, or
its result where the one who waits for it finds it. -/
theorem submit_of_hears {j : Job} {now later : List Arrival} {before : List Packet}
    (hc : Chain Step (withSettings settings) past c)
    (h : c.HearsJob env j job now later before created middle last behind) :
    ∃ c' arrivals ps held, c.submit env j = ⟨.ok job, c', arrivals ++ later⟩ ∧
      Orderly settings past job.server (c.submitHistory env j) c' ps ∧
      Meets settings past (c.submitHistory env j) c.issued created job held ∧
      Finishes past job held last behind (c.submitHistory env j) c' ps ∧
      c'.Brings job.server arrivals ps := by
  obtain ⟨request, hquestion, hlimit, hbefore, hcreated⟩ := h.request
  obtain ⟨hrunning, hpacket, hserver, -⟩ := Call.question?_submit hquestion
  obtain ⟨hrequest, hx⟩ := Call.fits_of_question? hquestion
  have hreadable := Call.isReadable_of_answer? hquestion hcreated rfl
  obtain ⟨c₁, hstart, hchain, hbrings, hexpects⟩ :=
    start_of_hears hc h.hears hrequest hlimit hx hbefore
  have horderly : Orderly settings past job.server [] c₁ (before ++ created :: (middle ++ last :: behind)) :=
    ⟨hc.trans hchain, [], by
      rw [hexpects.afterAll? hcreated hreadable, Session.afterAll?_of_reports h.reports]⟩
  obtain ⟨c₂, outcome, c₃, rest, left, hsettled, hrun, ⟨horderly', hpromises⟩, hbrings'⟩ :=
    (course_promises hcreated h.handle h.isOpen h.ends h.unnamed).run (fun _ => rfl) (fun _ => rfl)
      (fun log c hc => hc.2.over) hbrings ⟨horderly, .inl ⟨before, rfl, hexpects⟩⟩ later
  have hlog : c.submitHistory env j =
      (replyTo c.issued job.server).history (·.pumpHistory job.server) (now ++ later) c₁ := by
    simp only [submitHistory, hrunning, hpacket, hserver, h.attached, hstart, h.hears.arrivals]
    rfl
  rw [List.nil_append, ← hlog] at horderly' hpromises
  obtain ⟨rfl, rfl, hreplied, held, hmeets, hfinishes⟩ := hpromises.settled hsettled
  obtain ⟨done, hdone, -, hresponder⟩ := hreplied.held
  have hreleased : Orderly settings past job.server (c.submitHistory env j)
      { c₃ with tasks := c₃.tasks.erase c.issued } left :=
    ⟨by simpa using horderly'.chain.tail (.released c₃ c.issued), horderly'.order⟩
  refine ⟨_, rest, left, held, ?_, hreleased, hmeets, hfinishes, hbrings'.of_sessions rfl⟩
  simp only [submit, hrunning, hpacket, hserver, exchange, h.attached, hstart, h.hears.arrivals, hrun,
    takeExchange, hdone, Option.bind_some, hresponder]

/-- The result of a job is delivered to whoever waits for its end once the final report is through, whatever
comes after that: to one who waits for a job that is tracked, and to one who has just submitted it. Only a
result of an earlier job with its handle, there when the wait begins or when the reply names the job, can
be delivered in its place. -/
theorem finished_job_is_delivered (settings : ClientSettings)
    (hc : Chain Step (withSettings settings) past c) :
    (∀ env job now later early last behind, c.HearsEnd env job now later early last behind →
      ∃ r c' rest, c.waitForJob env job = ⟨.ok r, c', rest⟩ ∧
        ((∃ reports, EndsBy past (endHistory job env.arrivals c) job last reports ∧
          r = .tally job.handle reports) ∨ c.finished.get? job = some r)) ∧
    ∀ env j job now later before created middle last behind,
      c.HearsJob env j job now later before created middle last behind →
      ∃ r c' rest, c.execute env j = ⟨.ok r, c', rest⟩ ∧
        ((∃ reports, EndsBy past (c.executeHistory env j) job last reports ∧
          r = .tally job.handle reports) ∨
          Meets settings past (c.executeHistory env j) c.issued created job (some r)) := by
  constructor
  · intro env job now later early last behind h
    obtain ⟨r, hr⟩ := Table.contains_iff.1 h.tracked
    have hbrings := h.hears.brings (tidy_of_chain hc) ((sound_of_chain hc).job_live job r hr)
    have horderly : Orderly settings past job.server [] c (early ++ last :: behind) :=
      ⟨by simpa using hc, h.order⟩
    have hwait := wait_of_finishes env h.ends h.unnamed horderly
      (.inl ⟨early, rfl, h.tracked, rfl, h.isOpen⟩) hbrings later
    rwa [← h.hears.arrivals] at hwait
  · intro env j job now later before created middle last behind h
    obtain ⟨c₁, arrivals, ps, held, hsubmit, horderly, hmeets, hfinishes, hbrings⟩ :=
      submit_of_hears hc h
    obtain ⟨r, c₂, rest, hwait, hr⟩ :=
      wait_of_finishes env h.ends h.unnamed horderly hfinishes hbrings later
    have hlog : c.executeHistory env j =
        c.submitHistory env j ++ endHistory job (arrivals ++ later) c₁ := by
      simp only [executeHistory, hsubmit]
    refine ⟨r, c₂, rest, ?_, ?_⟩
    · simp only [execute, h.attached, Bool.false_eq_true, if_false, hsubmit, hwait]
    · rw [hlog]
      refine hr.imp_right ?_
      rintro rfl
      exact hmeets.append _

namespace Errand

/-- Two reports on a job, cut somewhere, and the end of the stream behind them. -/
def farewell (handle : Bytes) : List Arrival :=
  [⟨.default, (complete handle 0x6e).encode.take 9, .none⟩,
    ⟨.default, (complete handle 0x6e).encode.drop 9 ++ stray.encode, .none⟩, ⟨.default, [], .close⟩]

theorem occupied_hears : occupied.HearsEnd (sending (farewell [0x42])) ⟨[0x42], .default⟩
    ((farewell [0x42]).take 2) [⟨.default, [], .close⟩] [] (complete [0x42] 0x6e) [stray] where
  tracked := by cbv
  hears := by
    have hlimit : occupied.settings.connection.maxPayloadSize = 67108864 := by cbv
    refine ⟨rfl, ⟨[], ?_, ?_⟩, by decide⟩
    · exact ⟨(occupied.sessions.get? .default).getD ⟨.default, {}, .unopened⟩, by cbv, by cbv⟩
    · rw [hlimit]
      exact Packet.frames_encode [complete [0x42] 0x6e, stray] (by decide)
  order := ⟨[], by cbv⟩
  isOpen := by simp
  ends := by decide
  unnamed := by decide

theorem novice_hears_job : novice.HearsJob
    (sending (⟨.default, (Errand.created [0x48]).encode, .none⟩ :: farewell [0x48])) Errand.job
    ⟨[0x48], .default⟩
    (⟨.default, (Errand.created [0x48]).encode, .none⟩ :: (farewell [0x48]).take 2)
    [⟨.default, [], .close⟩] [] (Errand.created [0x48]) [] (complete [0x48] 0x6e) [stray] where
  attached := rfl
  request := ⟨.request .submitJob [0, 0], rfl, by decide, rfl, rfl⟩
  hears := novice_hears (⟨.default, (Errand.created [0x48]).encode, .none⟩ :: (farewell [0x48]).take 2)
    [⟨.default, [], .close⟩] [Errand.created [0x48], complete [0x48] 0x6e, stray]
    (by decide) (by decide) (by decide)
  handle := rfl
  isOpen := by simp
  ends := by decide
  reports := by decide

end Errand

open Errand

/-- The end of a job reaches who waits for a job that was submitted before, and who has just submitted it. -/
theorem finished_job_is_delivered_complete :
    (∃ past, Chain Step (withSettings {}) past occupied ∧ ∃ reports c' rest,
      occupied.waitForJob (sending (farewell [0x42])) ⟨[0x42], .default⟩ =
          ⟨.ok (.tally [0x42] reports), c', rest⟩ ∧
        EndsBy past (endHistory ⟨[0x42], .default⟩ (farewell [0x42]) occupied) ⟨[0x42], .default⟩
          (complete [0x42] 0x6e) reports) ∧
    ∃ r c' rest, novice.execute
        (sending (⟨.default, (Errand.created [0x48]).encode, .none⟩ :: farewell [0x48])) Errand.job =
          ⟨.ok r, c', rest⟩ := by
  obtain ⟨past, hpast⟩ := evolves_occupied
  obtain ⟨r, c', rest, hexecute, -⟩ :=
    (finished_job_is_delivered {} (.single (.added _ .default))).2 _ _ _ _ _ _ _ _ _ _ novice_hears_job
  obtain ⟨r', c'', rest', hwait, ⟨reports, hends, rfl⟩ | hheld⟩ :=
    (finished_job_is_delivered {} hpast).1 _ _ _ _ _ _ _ occupied_hears
  · exact ⟨⟨past, hpast, reports, c'', rest', hwait, hends⟩, r, c', rest, hexecute⟩
  · have hnone : occupied.finished.get? ⟨[0x42], .default⟩ = none := by cbv
    rw [hnone] at hheld
    contradiction

namespace Errand

/-- What arrives when the server ends the stream along with the final report. -/
def parting : List Arrival := [⟨.default, (complete [0x42] 0x6e).encode, .close⟩]

/-- The client that has waited for the end of the job meanwhile. -/
def bereft : Client :=
  ((endOf ⟨[0x42], .default⟩).rehearse .default 9 9 parting occupied).elim occupied (·.1.client)

end Errand

/-- A server that ends the stream along with the final report on a tracked job has its end reported, and not
the end of the job. The result is there, and whoever waits once more gets it. -/
theorem close_along_with_report_ends_wait : Evolves Step (withSettings {}) occupied ∧
    occupied.jobs.contains ⟨[0x42], .default⟩ = true ∧
    occupied.waitForJob (sending parting) ⟨[0x42], .default⟩ =
      ⟨.error (.severed "127.0.0.1:4730"), bereft, []⟩ ∧
    bereft.finished.get? ⟨[0x42], .default⟩ =
      some { handle := [0x42], succeeded := true, results := [0x6e] } := by
  have hwait : (endOf ⟨[0x42], .default⟩).rehearse .default 9 9 parting occupied =
      some (⟨some (.error (.severed "127.0.0.1:4730")), bereft, []⟩,
        [.packet .default (.unsolicited (complete [0x42] 0x6e)) none, .forgotten .default]) := by
    cbv
  have hrun := (Watch.run_of_rehearsal (fun _ => rfl) hwait).1
  have harrivals : (sending parting).arrivals = parting := rfl
  refine ⟨evolves_occupied, by cbv, ?_, by cbv⟩
  simp only [waitForJob, harrivals, hrun]

end Client

end Gearman
