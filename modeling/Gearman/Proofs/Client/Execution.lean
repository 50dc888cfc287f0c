import Gearman.Proofs.Client.Disturbance
import Gearman.Proofs.Client.Exchanges
import Gearman.Proofs.Client.Rehearsal
import Gearman.Proofs.Client.Routing

/-!
Which result an execution returns. It is the sum of the reports on the job that was submitted, from the
reply that has named the job to the first final report. The exception is a result of an earlier job with
the same handle that nobody has collected: a server that numbers its jobs anew gives such a handle again,
and the old result is returned before the new job is over.
-/

namespace Gearman.Client

variable {c c' : Client} {env : Surroundings} {server : Address} {j : Job} {job : JobHandle}
  {log : History} {r : JobResult} {rest : List Arrival}

/-- What happens while a submission waits for the handle of its job. -/
def submitHistory (c : Client) (env : Surroundings) (j : Job) : History :=
  match c.ensureRunning, j.toPacket, c.pickServer env.chance with
  | .ok (), .ok request, .ok server =>
    match c.start env server request (.submission j.background none) with
    | (.ok id, c) => replyHistory id server env.arrivals c
    | (.error _, _) => []
  | _, _, _ => []

/-- What happens while an execution waits, first for the handle of its job and then for its end. -/
def executeHistory (c : Client) (env : Surroundings) (j : Job) : History :=
  match c.submit env j with
  | ⟨.ok job, c', rest⟩ => c.submitHistory env j ++ endHistory job rest c'
  | ⟨.error _, _, _⟩ => c.submitHistory env j

/-- A submission that ends well has its turn, and returns the handle in the reply. -/
theorem turn_of_submit (h : Sound c) (hok : c.submit env j = ⟨.ok job, c', rest⟩) :
    ∃ c₁ before p since told heard, c.submitHistory env j =
        before ++ .packet job.server (.reply c.issued p) (some (.submission j.background none)) ::
          since ∧
      Turn c job.server (.submission j.background none) before p told heard since c₁ ∧
      p.payload = job.handle ∧ c' = { c₁ with tasks := c₁.tasks.erase c.issued } := by
  unfold submit at hok
  split at hok
  · simp at hok
  · simp at hok
  · simp at hok
  · next request server hrunning hrequest hserver =>
    have hx := fits_toPacket hrequest none
    split at hok
    · simp at hok
    · next background handle c₂ rest hexchange =>
      cases hok
      obtain ⟨c₁, c₂, before, p, since, told, heard, hstart, hlog, hturn, hanswer, rfl⟩ :=
        turn_of_exchange h hx hexchange
      refine ⟨c₂, before, p, since, told, heard, ?_, hturn, ?_, rfl⟩
      · simp only [submitHistory, hrunning, hrequest, hserver, hstart, hlog]
      · simp only [Exchange.respond, Option.some.injEq, Exchange.submission.injEq] at hanswer
        exact hanswer.2.symm
    · simp at hok

theorem chain_submit (h : Sound c) (hok : c.submit env j = ⟨.ok job, c', rest⟩) :
    Chain Step c (c.submitHistory env j) c' := by
  obtain ⟨c₁, before, p, since, told, heard, hlog, hturn, -, rfl⟩ := turn_of_submit h hok
  rw [hlog, ← List.append_nil (_ ++ _)]
  exact hturn.chain.tail (.released c₁ c.issued)

/-- Who waits for a job and gets a result has found it among the finished ones. -/
theorem waitForJob_eq_ok (hok : c.waitForJob env job = ⟨.ok r, c', rest⟩) :
    ∃ c₁, Chain Drive c (endHistory job env.arrivals c) c₁ ∧ c₁.finished.get? job = some r ∧
      c' = (c₁.takeResult job).2 := by
  have hrun : (endOf job).run env.arrivals c = ⟨some (.ok r), c', rest⟩ := by
    unfold waitForJob at hok
    split at hok
    · next hrun =>
      cases hok
      exact hrun
    · cases hok
  obtain ⟨c₁, hchain, hend⟩ := Watch.chain_run (w := endOf job) (fun c => chain_pump c job.server)
    env.arrivals c
  rw [hrun] at hend
  refine ⟨c₁, hchain, ?_⟩
  obtain ⟨r', hr, hsettled⟩ | ⟨⟨e, he⟩, -⟩ | ⟨hnone, -⟩ := hend
  · obtain rfl : Except.ok r = r' := Option.some.inj hr
    simp only [endOf] at hsettled
    cases hfinished : c₁.finished.get? job with
    | none =>
      simp only [takeResult, hfinished] at hsettled
      split at hsettled
      · contradiction
      · simp at hsettled
    | some found =>
      simp only [takeResult, hfinished] at hsettled ⊢
      cases hsettled
      exact ⟨rfl, rfl⟩
  · cases he
  · cases hnone

/-- A result that is there is not waited for. -/
theorem endHistory_of_finished {arrivals : List Arrival} (h : c.finished.get? job = some r) :
    endHistory job arrivals c = [] := by
  have hsettled : (endOf job).settled c = some (.ok r, (c.takeResult job).2) := by
    simp only [endOf, takeResult, h]
  rw [endHistory, Watch.history]
  simp only [hsettled]

/-- A server that has nothing to answer creates no job. -/
theorem creates_of_unanswering (hnone : c.queue job.server = []) (h : Chain Drive c log c') :
    ∀ e ∈ log, e.creates job = false := by
  intro e he
  unfold Happening.creates
  split
  · next server id p x =>
    have hother : server ≠ job.server := by
      rintro rfl
      exact unanswering hnone h _ _ _ he
    simp [hother]
  · rfl

/-- Servers release no result but by the end of the client. -/
theorem releases_of_drive (h : Chain Drive c log c')
    (hkept : ∀ e ∈ log, e.forgets job.server = false) : ∀ e ∈ log, e.releases job = false := by
  induction h with
  | refl => simp
  | tail h hstep ih =>
    intro e he
    rcases List.mem_append.1 he with he | he
    · exact ih (fun e he => hkept e (List.mem_append_left _ he)) e he
    · have hkept := hkept e (List.mem_append_right _ he)
      cases hstep with
      | deserted =>
        obtain rfl := List.mem_singleton.1 he
        contradiction
      | expelled =>
        rcases List.mem_cons.1 he with rfl | he
        · rfl
        · rw [List.mem_singleton.1 he]
          rfl
      | arrival => contradiction
      | idle => contradiction
      | _ =>
        rw [List.mem_singleton.1 he]
        rfl

/-- The client that has handled the handle of a job knows nothing of the job but its handle, and a result
of an earlier job may still be there. -/
theorem Turn.entry {p : Packet} {before since : History} {told heard : Client}
    (h : Turn c server (.submission false none) before p told heard since c') (hsound : Sound c)
    (hjob : (⟨p.payload, server⟩ : JobHandle) = job) :
    p.kind = .jobCreated ∧ (heard.handleReply server c.issued p).2.entry job =
      ⟨some (.pending job.handle), told.finished.get? job⟩ := by
  obtain ⟨pending, rfl, hreads⟩ := h.reads
  obtain ⟨k, hwaiting, hreply⟩ := hreads.waiting
  rw [Session.isReply, Bool.and_eq_true] at hreply
  have hkind := Exchange.kind_of_isAttached rfl hwaiting.fits hreply.2
  refine ⟨hkind, ?_⟩
  rw [entry_reply (hsound.chain h.waited) hreads.receive, hreads.exchange, entry_receive hreads.receive,
    Entry.next_created]
  · rfl
  · simp [Happening.creates, hkind, ← hjob, Exchange.isAttached]
  · simp [Happening.report?, Session.Event.packet, Packet.isReport, hkind, Kind.isUpdate,
      Kind.isFinal]

/-- A result that is there when the wait for a job is over was made of the reports on the job since its
submission was answered, or it was there before that, and the wait did not take place. -/
theorem Turn.result {settings : ClientSettings} {past before since : History} {p : Packet}
    {told heard c₁ : Client} (hc : Chain Step (withSettings settings) past c)
    (h : Turn c server (.submission false none) before p told heard since c₁)
    (hjob : (⟨p.payload, server⟩ : JobHandle) = job)
    (hwait : Chain Drive { c₁ with tasks := c₁.tasks.erase c.issued } log c')
    (hnone : ∀ r, c₁.finished.get? job = some r → log = [])
    (hr : c'.finished.get? job = some r) :
    (∃ reports, Concluded (since ++ log) job reports ∧ r = .tally job.handle reports) ∨
      (∃ earlier, Completed (past ++ before) job earlier ∧ r = .tally job.handle earlier) ∧
        ∀ e ∈ since ++ log, ∀ q ∈ e.report? job, q.kind.isFinal = false := by
  have hsound : Sound c := sound_of_chain hc
  obtain ⟨hkind, hentry⟩ := h.entry hsound hjob
  obtain rfl : server = job.server := by rw [← hjob]
  have hwaited := h.waited
  have hkept := h.kept
  have hunasked := h.unasked
  have hunforgotten : ∀ e ∈ since, e.forgets job.server = false := fun e he =>
    h.unforgotten e (List.mem_append_right _ he)
  have hanswered : Sound (heard.handleReply job.server c.issued p).2 := h.sound hsound
  generalize (heard.handleReply job.server c.issued p).2 = answered at *
  -- Nothing creates the job again until the wait is over.
  have hnew : ∀ e ∈ since ++ log, e.creates job = false := by
    have hreleased : ({ c₁ with tasks := c₁.tasks.erase c.issued } : Client).queue job.server = [] := by
      have hsuffix := queue_chain hkept job.server
      rwa [hunasked, List.suffix_nil] at hsuffix
    exact fun e he => (List.mem_append.1 he).elim (creates_of_unanswering hunasked hkept e)
      (creates_of_unanswering hreleased hwait e)
  have hall : Chain Step answered (since ++ log) c' :=
    (hkept.mono .drive).trans ((Chain.single (Step.released c₁ c.issued)).trans (hwait.mono .drive))
  have hfinal : ((since ++ log).foldl (Entry.next job) (answered.entry job)).finished = some r := by
    rw [← entry_chain hanswered hall job]
    exact hr
  rw [hentry] at hfinal
  rcases Entry.finished_foldl rfl hnew hfinal with hown | ⟨hold, hopen⟩
  · exact .inl hown
  · refine .inr ⟨?_, ?_⟩
    · rw [← finished_replay_iff, ← entry_eq_replay (hc.trans hwaited)]
      exact hold
    · have hthere : (c₁.entry job).finished.isSome = true := by
        rw [entry_chain hanswered (hkept.mono .drive) job, hentry]
        refine Entry.isSome_finished_foldl (releases_of_drive hkept hunforgotten) ?_
        exact Option.isSome_iff_exists.2 ⟨r, hold⟩
      obtain ⟨r₁, hr₁⟩ := Option.isSome_iff_exists.1 hthere
      rw [hnone r₁ hr₁, List.append_nil] at hopen ⊢
      exact hopen hunforgotten

/-- In this history the exchange `id`, an attached submission, learns that its job is `job`. That comes
after `before` and ahead of `since`. -/
def Assigned (log : History) (id : TaskId) (job : JobHandle) (before since : History) : Prop :=
  ∃ p, log = before ++ .packet job.server (.reply id p) (some (.submission false none)) :: since ∧
    p.kind = .jobCreated ∧ p.payload = job.handle

/-- An execution returns the result of its own job: the sum of the reports on it, from the reply that has
named it to the first final report. Or a result of an earlier job with that handle was still there and was
returned when the submission was over, without a final report on the new job. -/
theorem execute_returns_own_result (settings : ClientSettings) {past : History}
    (hc : Chain Step (withSettings settings) past c)
    (hok : c.execute env j = ⟨.ok r, c', rest⟩) :
    ∃ job before since, Assigned (c.executeHistory env j) c.issued job before since ∧
      Chain Step c (c.executeHistory env j ++ [.collected job]) c' ∧
      ((∃ reports, Concluded since job reports ∧ r = .tally job.handle reports) ∨
        (∃ earlier, Completed (past ++ before) job earlier ∧ r = .tally job.handle earlier) ∧
          ∀ e ∈ since, ∀ p ∈ e.report? job, p.kind.isFinal = false) := by
  have hsound : Sound c := sound_of_chain hc
  unfold execute at hok
  split at hok
  · cases hok
  · next hattached =>
    split at hok
    · cases hok
    · next job c₁ rest₁ hsubmit =>
      obtain ⟨c₂, before, p, since, told, heard, hlog, hturn, hhandle, rfl⟩ :=
        turn_of_submit hsound hsubmit
      rw [Bool.not_eq_true] at hattached
      rw [hattached] at hlog hturn
      have hjob : (⟨p.payload, job.server⟩ : JobHandle) = job := by rw [hhandle]
      obtain ⟨c₃, hwait, hr, rfl⟩ := waitForJob_eq_ok hok
      have hhistory : c.executeHistory env j = before ++
          .packet job.server (.reply c.issued p) (some (.submission false none)) ::
            (since ++ endHistory job rest₁ { c₂ with tasks := c₂.tasks.erase c.issued }) := by
        simp only [executeHistory, hsubmit, hlog, List.append_assoc, List.cons_append]
      have hchain := hturn.chain.trans ((Chain.single (Step.released c₂ c.issued)).trans
        ((hwait.mono .drive).trans (.single (.collected hr))))
      refine ⟨job, before, _, ⟨p, hhistory, (hturn.entry hsound hjob).1, hhandle⟩, ?_,
        hturn.result hc hjob hwait (fun r' hr' => endHistory_of_finished hr') hr⟩
      rw [hhistory]
      simpa using hchain

/-- A submission whose wait was rehearsed. -/
theorem submit_of_rehearsal {request : Packet} {id : TaskId} {n : Nat} {c₁ c₂ : Client}
    {background : Bool} {handle : Bytes} (hrunning : c.ensureRunning = .ok ())
    (hrequest : j.toPacket = .ok request) (hserver : c.pickServer env.chance = .ok server)
    (hstart : c.start env server request (.submission j.background none) = (.ok id, c₁))
    (hwait : (replyTo id server).rehearse server n n env.arrivals c₁ =
      some (⟨some (.ok ()), c₂, rest⟩, log))
    (hanswer : c₂.exchange? id = some (.submission background (some handle))) :
    c.submit env j = ⟨.ok ⟨handle, server⟩, (c₂.takeExchange id).2, rest⟩ ∧
      c.submitHistory env j = log := by
  obtain ⟨hrun, hlog⟩ := Watch.run_of_rehearsal (fun _ => rfl) hwait
  rw [exchange?] at hanswer
  constructor
  · simp only [submit, exchange, hrunning, hrequest, hserver, hstart, hrun, takeExchange, hanswer]
  · simp only [submitHistory, hrunning, hrequest, hserver, hstart]
    exact hlog

/-- An execution whose wait for the end of the job was rehearsed. -/
theorem execute_of_rehearsal {n : Nat} {c₁ c₂ : Client} {unread : List Arrival}
    (hattached : j.background = false) (hsubmit : c.submit env j = ⟨.ok job, c₁, unread⟩)
    (hwait : (endOf job).rehearse job.server n n unread c₁ = some (⟨some (.ok r), c₂, rest⟩, log)) :
    c.execute env j = ⟨.ok r, c₂, rest⟩ ∧
      c.executeHistory env j = c.submitHistory env j ++ log := by
  obtain ⟨hrun, hlog⟩ := Watch.run_of_rehearsal (fun _ => rfl) hwait
  constructor
  · simp only [execute, hattached, Bool.false_eq_true, if_false, hsubmit, waitForJob, hrun]
  · simp only [executeHistory, hsubmit, endHistory, hlog]

namespace Errand

/-- The final report on a job, with one byte of data. -/
def complete (handle : Bytes) (data : UInt8) : Packet := .response .workComplete (handle ++ [0, data])

/-- The client that has submitted the job and waited for its handle. -/
def heard (c : Client) (chunks : List Bytes) : Client :=
  ((replyTo c.issued .default).rehearse .default 9 9 (hearing chunks).arrivals (asking c)).elim c
    (·.1.client)

/-- The client that has submitted the job and fetched its handle. -/
def submitted (c : Client) (chunks : List Bytes) : Client :=
  ((heard c chunks).takeExchange c.issued).2

/-- A client that can submit the job, and that does nothing else before it has read its handle. -/
structure Submits (c : Client) (chunks : List Bytes) (handle : Bytes) (unread : List Bytes)
    (log : History) : Prop where
  running : c.ensureRunning = .ok ()
  server : c.pickServer 0 = .ok .default
  begun : c.start (hearing []) .default (.request .submitJob [0, 0]) (.submission false none) =
    (.ok c.issued, asking c)
  waited : (replyTo c.issued .default).rehearse .default 9 9 (hearing chunks).arrivals (asking c) =
    some (⟨some (.ok ()), heard c chunks, (hearing unread).arrivals⟩, log)
  answered : (heard c chunks).exchange? c.issued = some (.submission false (some handle))

theorem Submits.submit {chunks unread : List Bytes} {handle : Bytes}
    (h : Submits c chunks handle unread log) :
    c.submit (hearing chunks) Errand.job =
        ⟨.ok ⟨handle, .default⟩, submitted c chunks, (hearing unread).arrivals⟩ ∧
      c.submitHistory (hearing chunks) Errand.job = log :=
  submit_of_rehearsal h.running rfl h.server h.begun h.waited h.answered

/-- The client that has submitted the job and waited for its end. -/
def executed (c : Client) (chunks unread : List Bytes) (handle : Bytes) : Client :=
  ((endOf ⟨handle, .default⟩).rehearse .default 9 9 (hearing unread).arrivals
    (submitted c chunks)).elim c (·.1.client)

/-- The client that has submitted the job, and that comes to its end then. -/
structure Executes (c : Client) (chunks : List Bytes) (handle : Bytes) (unread : List Bytes)
    (log : History) (r : JobResult) (left : List Bytes) (more : History) : Prop
    extends Submits c chunks handle unread log where
  ended : (endOf ⟨handle, .default⟩).rehearse .default 9 9 (hearing unread).arrivals
    (submitted c chunks) =
      some (⟨some (.ok r), executed c chunks unread handle, (hearing left).arrivals⟩, more)

theorem Executes.execute {chunks unread left : List Bytes} {handle : Bytes} {more : History}
    (h : Executes c chunks handle unread log r left more) :
    c.execute (hearing chunks) Errand.job =
        ⟨.ok r, executed c chunks unread handle, (hearing left).arrivals⟩ ∧
      c.executeHistory (hearing chunks) Errand.job = log ++ more := by
  obtain ⟨hsubmit, hlog⟩ := h.toSubmits.submit
  rw [← hlog]
  exact execute_of_rehearsal rfl hsubmit h.ended

def novice : Client := ((withSettings {}).addServer .default).2

theorem executes_novice : Executes novice
    [(created [0x48]).encode, (complete [0x48] 0x6e).encode] [0x48] [(complete [0x48] 0x6e).encode]
    [.packet .default (.reply 0 (created [0x48])) (some (.submission false none))]
    { handle := [0x48], succeeded := true, results := [0x6e] } []
    [.packet .default (.unsolicited (complete [0x48] 0x6e)) none] := by
  constructor
  · constructor <;> cbv
  · cbv

end Errand

open Errand

/-- An execution on a fresh client returns what is reported on its job. -/
theorem execute_returns_own_result_complete : ∃ past c', Chain Step (withSettings {}) past novice ∧
    novice.execute (hearing [(created [0x48]).encode, (complete [0x48] 0x6e).encode]) Errand.job =
      ⟨.ok { handle := [0x48], succeeded := true, results := [0x6e] }, c', []⟩ ∧
    ∃ job before since reports,
      Assigned (novice.executeHistory
        (hearing [(created [0x48]).encode, (complete [0x48] 0x6e).encode]) Errand.job) 0 job before
          since ∧
      Concluded since job reports ∧
      ({ handle := [0x48], succeeded := true, results := [0x6e] } : JobResult) =
        .tally job.handle reports := by
  have hpast : Chain Step (withSettings {}) [] novice := .single (.added _ .default)
  obtain ⟨hexecute, hlog⟩ := executes_novice.execute
  obtain ⟨job, before, since, hassigned, -, ⟨reports, hown⟩ | ⟨-, hopen⟩⟩ :=
    execute_returns_own_result {} hpast hexecute
  · exact ⟨[], _, hpast, hexecute, job, before, since, reports, hassigned, hown⟩
  · -- The report that came is a final one.
    obtain ⟨handle, server⟩ := job
    obtain ⟨p, hhistory, -, rfl⟩ := hassigned
    rw [hlog] at hhistory
    rcases before with _ | ⟨first, before⟩
    · simp only [List.nil_append, List.cons_append, List.cons.injEq, Happening.packet.injEq,
        Session.Event.reply.injEq] at hhistory
      obtain ⟨⟨rfl, ⟨-, rfl⟩, -⟩, rfl⟩ := hhistory
      have := hopen _ (List.mem_singleton.2 rfl) (complete [0x48] 0x6e) rfl
      contradiction
    · simp [List.cons_eq_append_iff] at hhistory

namespace Errand

/-- The client has the job done, and loses the connection before anyone has asked for the result. -/
def restarting : List Operation :=
  [.addServer .default,
    .submit (hearing [(created [0x48]).encode ++ (complete [0x48] 0x6f).encode]) Errand.job,
    .arrival ⟨.default, [], .close⟩, .drainUpdates]

def abandoned : Client :=
  ((submitted novice [(created [0x48]).encode ++ (complete [0x48] 0x6f).encode]).deliver
    ⟨.default, [], .close⟩).1

def restarted : Client :=
  { (rehearsePump 9 abandoned .default).elim abandoned (·.1.2) with updates := [] }

theorem submits_novice :
    Submits novice [(created [0x48]).encode ++ (complete [0x48] 0x6f).encode] [0x48] []
      [.packet .default (.reply 0 (created [0x48])) (some (.submission false none)),
        .packet .default (.unsolicited (complete [0x48] 0x6f)) none] := by
  constructor <;> cbv

/-- The reports on the job are lost along with the connection. -/
theorem drainUpdates_abandoned : abandoned.drainUpdates = ([], restarted) := by
  have hpump : rehearsePump 9 abandoned .default =
      some ((.error (.severed "127.0.0.1:4730"),
        (rehearsePump 9 abandoned .default).elim abandoned (·.1.2)), [.forgotten .default]) := by
    cbv
  have hservers : abandoned.liveServers = [.default] := by cbv
  have hopen : abandoned.isTerminated = false := by cbv
  have hnone : ((rehearsePump 9 abandoned .default).elim abandoned (·.1.2)).updates = [] := by cbv
  simp only [drainUpdates, hopen, Bool.false_eq_true, if_false, hservers, pumpAll, List.foldl_cons,
    List.foldl_nil, (pump_of_rehearsal hpump).1, restarted, hnone, List.map_nil]

theorem performAll_restarting : (withSettings {}).performAll restarting = restarted := by
  simp only [performAll, restarting, List.foldl_cons, List.foldl_nil, perform]
  rw [show ((withSettings {}).addServer .default).2 = novice from rfl, submits_novice.submit.1]
  exact congrArg Prod.snd drainUpdates_abandoned

theorem executes_restarted : Executes restarted
    [(created [0x48]).encode, (complete [0x48] 0x6e).encode] [0x48] [(complete [0x48] 0x6e).encode]
    [.packet .default (.reply 1 (created [0x48])) (some (.submission false none))]
    { handle := [0x48], succeeded := true, results := [0x6f] } [(complete [0x48] 0x6e).encode] [] := by
  constructor
  · constructor <;> cbv
  · cbv

end Errand

/-- A server that was started anew gives a second job the handle of the first one, whose result nobody has
collected. The execution of the second job returns the result of the first. -/
theorem uncollected_result_is_returned : ∃ c',
    (withSettings {}).performAll restarting = restarted ∧
    restarted.execute (hearing [(created [0x48]).encode, (complete [0x48] 0x6e).encode]) Errand.job =
      ⟨.ok { handle := [0x48], succeeded := true, results := [0x6f] }, c',
        (hearing [(complete [0x48] 0x6e).encode]).arrivals⟩ ∧
    ∀ job before since reports,
      Assigned (restarted.executeHistory
        (hearing [(created [0x48]).encode, (complete [0x48] 0x6e).encode]) Errand.job) 1 job before
          since → ¬ Concluded since job reports := by
  obtain ⟨hexecute, hlog⟩ := executes_restarted.execute
  refine ⟨_, performAll_restarting, hexecute, ?_⟩
  rintro job before since reports ⟨p, hhistory, -⟩ ⟨first, last, after, hreports, -⟩
  rw [hlog, List.append_nil] at hhistory
  -- The reply that names the job is all that happens.
  obtain rfl : since = [] := by
    have := congrArg List.length hhistory
    simp only [List.length_append, List.length_cons, List.length_nil] at this
    exact List.length_eq_zero_iff.1 (by omega)
  simp at hreports

end Gearman.Client
