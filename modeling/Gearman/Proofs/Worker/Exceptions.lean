import Gearman.Proofs.Client.Disturbance
import Gearman.Proofs.Worker.Delivery

/-!
For the client that waits for a job, the first exception that the function sends is the end of the job.

The function goes on, and so do its reports: what comes after the exception reaches the client and is
passed over, the results of the function among it.
-/

namespace Gearman

namespace Client

/-- Handles packets from a server that answer no request, one after the other. -/
def hear (c : Client) (server : Address) (ps : List Packet) : Client :=
  ps.foldl (fun c p => (c.handleUnsolicited server p).2) c

/-- A client takes the packet for a report on this job. -/
def ReportsOn (job : JobHandle) (p : Packet) : Prop := p.isReport = true ∧ subject job.server p = job

variable {c : Client} {job : JobHandle} {ps : List Packet}

theorem hear_cons (c : Client) {server : Address} {p : Packet} (hp : p.isReport = true)
    (ps : List Packet) : c.hear server (p :: ps) = (c.handleUpdate server p).2.hear server ps := by
  have hhandled : c.handleUnsolicited server p = c.handleUpdate server p := if_pos hp
  rw [hear, List.foldl_cons, hhandled, hear]

/-- Reports on a job that is not tracked are passed over. -/
theorem hear_of_untracked (hps : ∀ p ∈ ps, ReportsOn job p)
    (hjob : c.jobs.get? job = none) : c.hear job.server ps = c := by
  induction ps with
  | nil => rfl
  | cons p rest ih =>
    obtain ⟨hp, hsubject⟩ := hps p List.mem_cons_self
    rw [hear_cons c hp, handleUpdate_none (by rwa [hsubject]),
      ih fun q hq => hps q (List.mem_cons_of_mem _ hq)]

/-- A job that is tracked is finished with what the reports on it add up to, up to the last one. -/
theorem hear_of_absorb {r r' : JobResult} (hps : ∀ p ∈ ps, ReportsOn job p)
    (hjob : c.jobs.get? job = some r) (habsorb : r.absorb ps = .ok (true, r')) :
    (c.hear job.server ps).jobs.get? job = none ∧
      (c.hear job.server ps).finished.get? job = some r' := by
  induction ps generalizing c r with
  | nil => simp [JobResult.absorb] at habsorb
  | cons p rest ih =>
    obtain ⟨hp, hsubject⟩ := hps p List.mem_cons_self
    have hrest := fun q hq => hps q (List.mem_cons_of_mem p hq)
    have hheld : c.jobs.get? (subject job.server p) = some r := by rwa [hsubject]
    rw [hear_cons c hp]
    simp only [JobResult.absorb] at habsorb
    split at habsorb
    · contradiction
    · next result happly =>
      cases habsorb
      rw [handleUpdate_final hheld (JobResult.isFinal_of_apply happly).symm, hsubject, happly,
        hear_of_untracked hrest (by simp)]
      simp
    · next result happly =>
      rw [handleUpdate_open hheld (JobResult.isFinal_of_apply happly).symm, hsubject, happly]
      exact ih hrest (by simp) habsorb

end Client

/-- What a report adds to the exceptions of its job. -/
def Report.exceptions : Report → Bytes
  | .exception bs => bs
  | _ => []

theorem Report.exceptions_of_isProgress {r : Report} (h : r.isProgress = true) : r.exceptions = [] := by
  cases r <;> first | rfl | contradiction

/-- Reports on the job of a context, as a server passes them on. -/
def Context.passedOn (c : Context) (reports : List Report) : List Packet :=
  reports.map fun r => .response r.kind (c.payload r)

namespace JobResult

/-- A client that hears of an exception has heard enough. -/
theorem absorb_exception {c : Context} (hnul : 0 ∉ c.handle) {before : List Report}
    (hbefore : ∀ r ∈ before, r.isProgress = true) (bs : Bytes) (rest : List Packet) :
    (pending c.handle).absorb (c.passedOn (before ++ [.exception bs]) ++ rest) =
      .ok (true, { told c.handle before with exceptions := bs }) := by
  rw [Context.passedOn, List.map_append, List.append_assoc]
  refine (absorb_told hnul [] hbefore _).trans ?_
  rw [List.map_singleton, List.singleton_append]
  simp only [absorb, apply, Packet.response, Context.payload, Report.kind, Report.fields,
    Packet.handleAndRest_joinFields hnul]
  simp [told, withException]

/-- A client is told how each job ends: by the first exception, or else by the closing packets. -/
theorem exists_absorb {c : Context} {o : Outcome} (hnul : 0 ∉ c.handle) (limit : UInt32)
    (function : String) (reports : List Report)
    (hfits : ∀ results, o.results? = some results →
      c.handle.length + 1 + results.length ≤ limit.toNat) :
    ∃ result, (pending c.handle).absorb
        (c.passedOn reports ++ (o.closing limit c.handle function).map Packet.passedOn) =
          .ok (true, result) ∧
      ((∀ r ∈ reports, r.isProgress = true) → result = concluded c.handle reports function o) ∧
      ∀ before bs after, reports = before ++ .exception bs :: after →
        (∀ r ∈ before, r.isProgress = true) →
        result = { told c.handle before with exceptions := bs } := by
  generalize hclosing : (o.closing limit c.handle function).map Packet.passedOn = closing
  have hprogress (h : ∀ r ∈ reports, r.isProgress = true) :
      (pending c.handle).absorb (c.passedOn reports ++ closing) =
        .ok (true, concluded c.handle reports function o) := by
    refine (absorb_told hnul [] h closing).trans ?_
    rw [← hclosing]
    exact absorb_closing hnul reports hfits
  have hexception (before : List Report) (bs : Bytes) (after : List Report)
      (hreports : reports = before ++ .exception bs :: after)
      (hbefore : ∀ r ∈ before, r.isProgress = true) :
      (pending c.handle).absorb (c.passedOn reports ++ closing) =
        .ok (true, { told c.handle before with exceptions := bs }) := by
    have hsplit : c.passedOn reports = c.passedOn (before ++ [.exception bs]) ++ c.passedOn after := by
      rw [hreports, List.append_cons]
      exact List.map_append
    rw [hsplit, List.append_assoc]
    exact absorb_exception hnul hbefore bs _
  -- Either there is a first exception or there is none; what both cases say then follows.
  have hends : ∃ result, (pending c.handle).absorb (c.passedOn reports ++ closing) =
      .ok (true, result) := by
    cases hfind : reports.find? (!·.isProgress) with
    | none => exact ⟨_, hprogress (by simpa using hfind)⟩
    | some report =>
      obtain ⟨hreport, before, after, hsplit, hbefore⟩ := List.find?_eq_some_iff_append.1 hfind
      cases report with
      | exception bs => exact ⟨_, hexception before bs after hsplit (by simpa using hbefore)⟩
      | _ => contradiction
  obtain ⟨result, hresult⟩ := hends
  refine ⟨result, hresult, fun h => ?_, fun before bs after hreports hbefore => ?_⟩
  · have heq := hresult.symm.trans (hprogress h)
    simpa using heq
  · have heq := hresult.symm.trans (hexception before bs after hreports hbefore)
    simpa using heq

end JobResult

/-- Whatever follows its handle, a packet names the job. -/
theorem Packet.handle_joinFields {magic : Magic} {kind : Kind} {handle : Bytes} (hnul : 0 ∉ handle)
    {rest : List Bytes} (hrest : rest ≠ []) :
    (handleAndRest ⟨magic, kind, Bytes.joinFields (handle :: rest)⟩).1 = handle := by
  rw [Bytes.joinFields_cons handle hrest]
  simp [handleAndRest, Bytes.cut?_append hnul]

namespace Client

variable {handle : Bytes}

theorem reportsOn_report {c : Context} (hnul : 0 ∉ c.handle) (server : Address) (r : Report) :
    ReportsOn ⟨c.handle, server⟩ (.response r.kind (c.payload r)) := by
  have hfields : r.fields ≠ [] := by cases r <;> simp [Report.fields]
  exact ⟨by cases r <;> rfl,
    congrArg (JobHandle.mk · server) (Packet.handle_joinFields hnul hfields)⟩

theorem reportsOn_note {kind : Kind} (hkind : kind.isUpdate = true) (hnul : 0 ∉ handle)
    (server : Address) (body : Bytes) :
    ReportsOn ⟨handle, server⟩ (Packet.note kind handle body).passedOn :=
  ⟨hkind, congrArg (JobHandle.mk · server) (Packet.handle_joinFields hnul (by simp))⟩

/-- Everything that is said of a job that succeeds is a report on it. -/
theorem reportsOn_passedOn {c : Context} {limit : UInt32} {function : String} {r : JobResult}
    {reports : List Report} {p : Packet} (hnul : 0 ∉ c.handle) (server : Address)
    (hr : r.succeeded = true)
    (hresults : c.handle.length + 1 + r.results.length ≤ limit.toNat)
    (hp : p ∈ c.passedOn reports ++
      ((Outcome.returned r).closing limit c.handle function).map Packet.passedOn) :
    ReportsOn ⟨c.handle, server⟩ p := by
  rcases List.mem_append.1 hp with hreport | hclosing
  · obtain ⟨report, -, rfl⟩ := List.mem_map.1 hreport
    exact reportsOn_report hnul server report
  · obtain ⟨q, hq, rfl⟩ := List.mem_map.1 hclosing
    simp only [Outcome.closing, Outcome.results?, hr, if_true, hresults, List.mem_append,
      List.mem_singleton] at hq
    rcases hq with hwarning | rfl
    · split at hwarning
      · contradiction
      · rw [List.mem_singleton.1 hwarning]
        exact reportsOn_note rfl hnul server _
    · exact reportsOn_note rfl hnul server _

end Client

namespace Worker

open Packet (within)

/-- An execution that is not cut off, and of which nothing is too long, tells the server all that the
function reports and then how the job ended. -/
theorem Sound.written_of_execute {limit : UInt32} {s : Scene} {j : AssignedJob} {m' : Member}
    (hw : Sound limit s.worker) (htimes : s.Times j) (hnul : 0 ∉ j.handle)
    (hfinished : j.forwarded.2 = true)
    (hreports : ∀ r ∈ j.reports, (j.context.payload r).length ≤ limit.toNat)
    (hclosing : ∀ p ∈ j.outcome.closing limit j.handle j.function, p.payload.length ≤ limit.toNat)
    (hopen : (s.execute j).worker.members.get? j.server = some m') :
    ∃ m, s.worker.members.get? j.server = some m ∧ m'.session.sent = m.session.sent ++
      ((j.reports.map fun r => .request r.kind (j.context.payload r)) ++
        j.outcome.closing limit j.handle j.function) := by
  obtain ⟨hpackets, -⟩ := Performance.play_eq (c := j.context) hnul
    fun r hr => Nat.lt_of_le_of_lt (hreports r hr) limit.toNat_lt_size
  obtain ⟨-, hall⟩ := Moment.forwarded_prefix j.definition.timeout 0 j.moments.1
  have hforwarded : j.forwarded.1 =
      j.reports.map fun r => Packet.request r.kind (j.context.payload r) :=
    (hall hfinished).trans hpackets
  have hfits : ∀ p ∈ j.forwarded.1, p.payload.length ≤ limit.toNat := by
    rw [hforwarded]
    intro p hp
    obtain ⟨r, hr, rfl⟩ := List.mem_map.1 hp
    exact hreports r hr
  obtain ⟨m, hm, hwritten⟩ := (Scene.sends_execute hw htimes hnul).self m' hopen
  rw [Packet.within_eq_self hfits, Packet.within_eq_self hclosing, hforwarded] at hwritten
  exact ⟨m, hm, hwritten⟩

/-- Results that can be sent are the last thing that a server is told of their job. -/
theorem getLast?_closing {limit : UInt32} {handle : Bytes} {function : String} {r : JobResult}
    (hr : r.succeeded = true) (hfits : handle.length + 1 + r.results.length ≤ limit.toNat) :
    ((Outcome.returned r).closing limit handle function).getLast? =
      some (.note .workComplete handle r.results) := by
  simp [Outcome.closing, Outcome.results?, hr, hfits]

/-- The function of a job ends with results only if it is not cut off. -/
theorem finished_of_outcome {j : AssignedJob} {r : JobResult} (h : j.outcome = .returned r) :
    j.forwarded.2 = true := by
  unfold AssignedJob.outcome at h
  split at h
  · next hfinished => exact hfinished
  · contradiction

/-- A job ends for the client when it hears of an exception, or else with the results of the function.

The worker reports the results last, whether or not there was an exception. The client tracks the job
and is passed on all that is said of it. As long as the function has sent no exception the job succeeds
with the data that the function has sent and with its results. After an exception the job has failed:
neither the results of the function nor anything else that it sends later is added, further exceptions
included. If the clock cannot tell the deadline, the work breaks down and nothing is reported. -/
theorem first_exception_ends_job {settings : WorkerSettings} {s : Scene} {j : AssignedJob}
    {r : JobResult} {m' : Member} {c : Client} {server : Address}
    (hreached : Reached settings s.worker) (hnul : 0 ∉ j.handle)
    (houtcome : j.outcome = .returned r) (hr : r.succeeded = true)
    (hreports : ∀ report ∈ j.reports,
      (j.context.payload report).length ≤ settings.connection.maxPayloadSize.toNat)
    (hresults : j.handle.length + 1 + r.results.length ≤ settings.connection.maxPayloadSize.toNat)
    (hclosing : ∀ p ∈ j.outcome.closing settings.connection.maxPayloadSize j.handle j.function,
      p.payload.length ≤ settings.connection.maxPayloadSize.toNat)
    (hopen : (s.execute j).worker.members.get? j.server = some m')
    (htracked : c.jobs.get? ⟨j.handle, server⟩ = some (.pending j.handle)) :
    (s.Times j → ∃ m ps result, s.worker.members.get? j.server = some m ∧
      m'.session.sent = m.session.sent ++ ps ∧
      ps.getLast? = some (.note .workComplete j.handle r.results) ∧
      (c.hear server (ps.map Packet.passedOn)).jobs.get? ⟨j.handle, server⟩ = none ∧
      (c.hear server (ps.map Packet.passedOn)).finished.get? ⟨j.handle, server⟩ = some result ∧
      ((∀ report ∈ j.reports, report.isProgress = true) → result.succeeded = true ∧
        result.results = j.reports.flatMap Report.results ++ r.results ∧
        result.exceptions = j.reports.flatMap Report.exceptions) ∧
      ∀ before bs after, j.reports = before ++ .exception bs :: after →
        (∀ report ∈ before, report.isProgress = true) →
        result = { JobResult.told j.handle before with exceptions := bs }) ∧
    (¬s.Times j → s.execute j = { s with panicked := true }) := by
  refine ⟨fun htimes => ?_, Scene.execute_of_not_times⟩
  obtain ⟨m, hm, hwritten⟩ := hreached.sound.written_of_execute htimes hnul
    (finished_of_outcome houtcome) hreports hclosing hopen
  generalize hps : (j.reports.map fun r => Packet.request r.kind (j.context.payload r)) ++
    j.outcome.closing settings.connection.maxPayloadSize j.handle j.function = ps at hwritten
  have hlast : ps.getLast? = some (.note .workComplete j.handle r.results) := by
    rw [← hps, houtcome, List.getLast?_append, getLast?_closing hr hresults]
    rfl
  have hpassed : ps.map Packet.passedOn = j.context.passedOn j.reports ++
      (j.outcome.closing settings.connection.maxPayloadSize j.handle j.function).map
        Packet.passedOn := by
    rw [← hps, List.map_append, List.map_map]
    rfl
  have hsucceeds : (Outcome.returned r).results? = some r.results := if_pos hr
  obtain ⟨result, habsorb, hprogress, hexception⟩ := JobResult.exists_absorb (c := j.context) hnul
    settings.connection.maxPayloadSize j.function j.reports
    fun results h => Option.some.inj (hsucceeds.symm.trans h) ▸ hresults
  rw [houtcome] at hpassed
  have hheard : ∀ p ∈ ps.map Packet.passedOn, Client.ReportsOn ⟨j.handle, server⟩ p := by
    rw [hpassed]
    exact fun p hp => Client.reportsOn_passedOn (c := j.context) hnul server hr hresults hp
  obtain ⟨hended, hfinished⟩ := Client.hear_of_absorb hheard htracked (hpassed ▸ habsorb)
  refine ⟨m, ps, result, hm, hwritten, hlast, hended, hfinished, fun h => ?_, hexception⟩
  have hnone : j.reports.flatMap Report.exceptions = [] :=
    List.flatMap_eq_nil_iff.2 fun report hreport => Report.exceptions_of_isProgress (h report hreport)
  rw [hprogress h, hnone]
  simp [JobResult.concluded, hsucceeds]

/-- A function that sends data before and after an exception and then succeeds. -/
def excepting : Performance :=
  ⟨[.report (.data [1]), .report (.exception [0x6F]), .report (.data [2])], .returned (.success [3])⟩

/-- The job of a worker that offers this function. -/
def exceptingJob : AssignedJob := ⟨.default, [0x48], "", none, [], nameless excepting⟩

/-- A client that has submitted a job and has learnt its handle. -/
def expecting : Client :=
  (Client.withSettings {}).performAll
    [.addServer .default, .submit (Client.Errand.hearing [(Client.Errand.created [0x48]).encode])
      Client.Errand.job]

theorem expecting_tracks : expecting.jobs.get? ⟨[0x48], .default⟩ = some (.pending [0x48]) := by
  have hruns : Client.Errand.Runs ((Client.withSettings {}).addServer .default).2 [0x48] := by
    constructor <;> cbv
  simp only [expecting, Client.performAll, List.foldl_cons, List.foldl_nil, Client.perform]
  rw [hruns.submit]
  cbv

theorem exceptingJob_outcome : exceptingJob.outcome = .returned (.success [3]) := by
  cbv

/-- The function has succeeded; the client is told that the job has failed, and knows of the data that
was sent before the exception and of no other. -/
theorem first_exception_ends_job_success : ∃ s : Scene, ∃ m m' : Member, ∃ ps,
    Reached { workerId := "" } s.worker ∧ exceptingJob.outcome = .returned (.success [3]) ∧
    (s.execute exceptingJob).worker.members.get? exceptingJob.server = some m' ∧
    s.worker.members.get? exceptingJob.server = some m ∧ m'.session.sent = m.session.sent ++ ps ∧
    (expecting.hear .default (ps.map Packet.passedOn)).finished.get? ⟨[0x48], .default⟩ =
      some { handle := [0x48], results := [1], exceptions := [0x6F] } := by
  have hreached := (reached_assigned excepting).tail (.taken (queue_assigned excepting))
  have hclosing : exceptingJob.outcome.closing Header.defaultMaxPayload exceptingJob.handle
      exceptingJob.function = [.note .workComplete [0x48] [3]] := by cbv
  have hopen : ((executing excepting).execute exceptingJob
    |>.worker.members.get? .default).isSome = true := by cbv
  obtain ⟨m', hm'⟩ := Option.isSome_iff_exists.1 hopen
  obtain ⟨hends, -⟩ := first_exception_ends_job
    (s := executing excepting) (j := exceptingJob) (c := expecting) hreached
    (by decide) exceptingJob_outcome rfl (by decide) (by decide)
    (fun p hp => by
      rw [hclosing] at hp
      revert p
      decide) hm' expecting_tracks
  obtain ⟨m, ps, result, hm, hsent, -, -, hfinished, -, hexception⟩ :=
    hends (Scene.times_of_timeout_none rfl)
  obtain rfl := hexception [.data [1]] [0x6F] [.data [2]] rfl (by decide)
  exact ⟨executing excepting, m, m', ps, hreached, exceptingJob_outcome, hm', hm, hsent, hfinished⟩

/-- The results of a function that sends an exception do not reach the client, although the function
succeeds and nothing of what it sends is too long: the exception ends the job as failed. -/
theorem results_after_exception_are_passed_over : ∃ s : Scene, ∃ m m' : Member, ∃ ps result,
    Reached { workerId := "" } s.worker ∧
    Client.Evolves Client.Step (Client.withSettings {}) expecting ∧
    exceptingJob.outcome = .returned (.success [3]) ∧
    s.worker.members.get? exceptingJob.server = some m ∧
    (s.execute exceptingJob).worker.members.get? exceptingJob.server = some m' ∧
    m'.session.sent = m.session.sent ++ ps ∧
    (∀ p ∈ ps, p.payload.length ≤ Header.defaultMaxPayload.toNat) ∧
    expecting.jobs.get? ⟨exceptingJob.handle, .default⟩ = some (.pending exceptingJob.handle) ∧
    (expecting.hear .default (ps.map Packet.passedOn)).finished.get? ⟨exceptingJob.handle, .default⟩ =
      some result ∧
    result.succeeded = false ∧ ¬[3] <:+ result.results := by
  let ps : List Packet := [.note .workData [0x48] [1], .note .workException [0x48] [0x6F],
    .note .workData [0x48] [2], .note .workComplete [0x48] [3]]
  have hreached := (reached_assigned excepting).tail (.taken (queue_assigned excepting))
  let greeting : List Packet :=
    [.request .setClientId [], .request .canDo [], .request .grabJob []]
  have hbefore : ((executing excepting).worker.members.get? .default).map (·.session.sent) =
      some greeting := by cbv
  have hafter : ((executing excepting).execute exceptingJob |>.worker.members.get? .default).map
      (·.session.sent) = some (greeting ++ ps) := by cbv
  obtain ⟨m, hm, hsent⟩ := Option.map_eq_some_iff.1 hbefore
  obtain ⟨m', hm', hsent'⟩ := Option.map_eq_some_iff.1 hafter
  have hheard : ∀ p ∈ ps.map Packet.passedOn, Client.ReportsOn ⟨[0x48], .default⟩ p := by
    simp only [ps, List.map_cons, List.map_nil, List.forall_mem_cons]
    exact ⟨⟨rfl, rfl⟩, ⟨rfl, rfl⟩, ⟨rfl, rfl⟩, ⟨rfl, rfl⟩, by simp⟩
  have habsorb : (JobResult.pending [0x48]).absorb (ps.map Packet.passedOn) =
      .ok (true, { handle := [0x48], results := [1], exceptions := [0x6F] }) := rfl
  obtain ⟨-, hfinished⟩ := Client.hear_of_absorb hheard expecting_tracks habsorb
  exact ⟨executing excepting, m, m', ps, _, hreached, Client.evolves_performAll _ _,
    exceptingJob_outcome, hm, hm', by rw [hsent, hsent'], by decide,
    expecting_tracks, hfinished, rfl, by decide⟩

end Worker

end Gearman
