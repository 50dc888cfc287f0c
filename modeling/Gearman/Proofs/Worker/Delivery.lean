import Gearman.Proofs.Job.Counters
import Gearman.Proofs.Worker.Reported

/-!
What a worker reports about a job is what a client learns of it, if the server passes it on.
-/

namespace Gearman

namespace JobResult

/-- Adds reports to a result one after the other, up to the last one of the job; the first part says
whether that was among them. -/
def absorb (result : JobResult) : List Packet → Except Error (Bool × JobResult)
  | [] => .ok (false, result)
  | p :: rest =>
    match result.apply p with
    | (.error e, _) => .error e
    | (.ok true, result) => .ok (true, result)
    | (.ok false, result) => result.absorb rest

end JobResult

/-- The response by which a server passes on what a worker has said. -/
def Packet.passedOn (p : Packet) : Packet := .response p.kind p.payload

namespace Report

/-- Whether a job may go on after the report, as clients see it. -/
def isProgress : Report → Bool
  | .exception _ => false
  | _ => true

/-- What a report adds to the results of its job. -/
def results : Report → Bytes
  | .data bs => bs
  | _ => []

/-- What a report adds to the warnings of its job. -/
def warnings : Report → Bytes
  | .warning bs => bs
  | _ => []

/-- How far the job has got, if the report says so. -/
def status? : Report → Option (UInt64 × UInt64)
  | .status numerator denominator => some (numerator, denominator)
  | _ => none

end Report

/-- The payload of a report on the job of a context. -/
def Context.payload (c : Context) (r : Report) : Bytes := Bytes.joinFields (c.handle :: r.fields)

/-- The reports that a performance sets out to send. -/
def Performance.reports (p : Performance) : List Report :=
  p.acts.filterMap fun
    | .report r => some r
    | .sleep _ => none

namespace JobResult

/-- A result that has learnt of some reports. -/
def told (handle : Bytes) (reports : List Report) : JobResult where
  handle
  results := reports.flatMap Report.results
  warnings := reports.flatMap Report.warnings
  numerator := ((reports.filterMap Report.status?).getLastD (0, 0)).1
  denominator := ((reports.filterMap Report.status?).getLastD (0, 0)).2

variable {c : Context} {r : Report}

/-- A client reads a report as the function meant it. -/
theorem apply_told (hnul : 0 ∉ c.handle) (hr : r.isProgress = true) (reports : List Report) :
    (told c.handle reports).apply (.response r.kind (c.payload r)) =
      (.ok false, told c.handle (reports ++ [r])) := by
  cases r with
  | data bs | warning bs =>
    simp only [apply, Context.payload, Report.fields, Packet.handleAndRest_joinFields hnul,
      Packet.response, Report.kind]
    simp [told, withWarning, Report.results, Report.warnings, Report.status?]
  | exception bs => contradiction
  | status numerator denominator =>
    have hfields : Packet.fields
        (.response .workStatus (c.payload (.status numerator denominator))) 3 =
        .ok [c.handle, writeCounter numerator, writeCounter denominator] :=
      Packet.fields_joinFields c.handle [writeCounter numerator, writeCounter denominator]
        (by simp [Packet.maxFields]) (by simp [hnul, nul_not_mem_writeCounter])
    change (told c.handle reports).applyStatus
      (.response .workStatus (c.payload (.status numerator denominator))) = _
    simp only [applyStatus, hfields]
    simp [readCounter_writeCounter, told, Report.results, Report.warnings, Report.status?]

/-- Reports that a server passes on add up. -/
theorem absorb_told (hnul : 0 ∉ c.handle) (reports : List Report) {more : List Report}
    (hmore : ∀ r ∈ more, r.isProgress = true) (rest : List Packet) :
    (told c.handle reports).absorb ((more.map fun r => .response r.kind (c.payload r)) ++ rest) =
      (told c.handle (reports ++ more)).absorb rest := by
  induction more generalizing reports with
  | nil => simp
  | cons r more ih =>
    simp only [List.map_cons, List.cons_append, absorb,
      apply_told hnul (hmore r List.mem_cons_self)]
    rw [ih _ fun r' hr' => hmore r' (List.mem_cons_of_mem _ hr'), List.append_assoc,
      List.singleton_append]

/-- What a client knows of a job that has ended, when it had learnt of some reports before. -/
def concluded (handle : Bytes) (reports : List Report) (function : String) (o : Outcome) :
    JobResult where
  handle
  succeeded := o.results?.isSome
  results := reports.flatMap Report.results ++ o.results?.getD []
  warnings := reports.flatMap Report.warnings ++ o.warnings
  exceptions := if o.results?.isSome then [] else o.message function
  numerator := ((reports.filterMap Report.status?).getLastD (0, 0)).1
  denominator := ((reports.filterMap Report.status?).getLastD (0, 0)).2

/-- A client learns from the closing packets how a job ended. -/
theorem absorb_closing {limit : UInt32} {handle : Bytes} {function : String} {o : Outcome}
    (hnul : 0 ∉ handle) (reports : List Report)
    (hfits : ∀ results, o.results? = some results →
      handle.length + 1 + results.length ≤ limit.toNat) :
    (told handle reports).absorb ((o.closing limit handle function).map Packet.passedOn) =
      .ok (true, concluded handle reports function o) := by
  cases hr : o.results? with
  | none =>
    rw [Outcome.closing_of_none hr]
    simp only [Outcome.failure, List.map_cons, absorb, apply, Packet.passedOn, Packet.note,
      Packet.request, Packet.response, Packet.handleAndRest_joinFields hnul]
    simp [concluded, hr, Outcome.warnings_of_none hr, told, withException]
  | some results =>
    have hcomplete : ∀ result : JobResult,
        result.absorb [(Packet.note .workComplete handle results).passedOn] =
          .ok (true, { result with succeeded := true, results := result.results ++ results }) := by
      intro result
      simp only [absorb, apply, Packet.passedOn, Packet.note, Packet.request, Packet.response,
        Packet.handleAndRest_joinFields hnul]
    simp only [Outcome.closing, hr, hfits results hr, if_true]
    split
    · next hempty =>
      rw [List.nil_append, List.map_singleton, hcomplete]
      simp [concluded, hr, told, List.isEmpty_iff.1 hempty]
    · rw [List.map_append, List.map_singleton, List.singleton_append, absorb]
      simp only [apply, Packet.passedOn, Packet.note, Packet.request, Packet.response,
        Packet.handleAndRest_joinFields hnul]
      refine (hcomplete _).trans ?_
      simp [concluded, hr, told, withWarning]

end JobResult

namespace Performance

variable {c : Context} {p : Performance}

theorem packet_eq {r : Report} (hnul : 0 ∉ c.handle) (hlength : (c.payload r).length < UInt32.size) :
    c.packet r = .ok (.request r.kind (c.payload r)) := by
  refine Packet.ofFields_eq_ok.2 ⟨hlength, ?_, rfl⟩
  cases r <;> simp [Report.fields, hnul, nul_not_mem_writeCounter]

/-- A performance whose reports all make packets is played to its end. -/
theorem play_eq (hnul : 0 ∉ c.handle)
    (hlength : ∀ r ∈ p.reports, (c.payload r).length < UInt32.size) :
    packets (p.play c).1 = (p.reports.map fun r => .request r.kind (c.payload r)) ∧
      (p.play c).2 = p.finish := by
  unfold play reports at *
  generalize p.acts = acts at *
  induction acts with
  | nil => exact ⟨rfl, rfl⟩
  | cons act rest ih =>
    cases act with
    | sleep ms => exact ih hlength
    | report r =>
      have hpacket := packet_eq hnul (hlength r (by simp))
      obtain ⟨hpackets, hfinish⟩ := ih fun r' hr' => hlength r' (by
        simp only [List.filterMap_cons]
        exact List.mem_cons_of_mem _ hr')
      simp only [play.go, hpacket]
      exact ⟨congrArg _ hpackets, hfinish⟩

end Performance

/-- The reports that the function of a job sets out to send. -/
def AssignedJob.reports (j : AssignedJob) : List Report :=
  (j.definition.body 0 j.context).reports

namespace Worker

open Packet (within)

/-- A client that is passed on what a worker says of a job ends up with all data, warnings and the last
status that the function has sent in time, and then with what the function has returned or with the
message of its failure. If the clock cannot tell the deadline, the work breaks down and there is nothing to
pass on. -/
theorem reports_reach_client {settings : WorkerSettings} {s : Scene} {j : AssignedJob} {m' : Member}
    (hreached : Reached settings s.worker) (hnul : 0 ∉ j.handle)
    (hprogress : ∀ r ∈ j.reports, r.isProgress = true)
    (hreports : ∀ r ∈ j.reports,
      (j.context.payload r).length ≤ settings.connection.maxPayloadSize.toNat)
    (hresults : ∀ results, j.outcome.results? = some results →
      j.handle.length + 1 + results.length ≤ settings.connection.maxPayloadSize.toNat)
    (hclosing : ∀ p ∈ j.outcome.closing settings.connection.maxPayloadSize j.handle j.function,
      p.payload.length ≤ settings.connection.maxPayloadSize.toNat)
    (hopen : (s.execute j).worker.members.get? j.server = some m') :
    (s.Times j → ∃ m ps sent, s.worker.members.get? j.server = some m ∧
      m'.session.sent = m.session.sent ++ ps ∧ sent <+: j.reports ∧
      (j.forwarded.2 = true → sent = j.reports) ∧
      (JobResult.pending j.handle).absorb (ps.map Packet.passedOn) =
        .ok (true, .concluded j.handle sent j.function j.outcome)) ∧
    (¬s.Times j → s.execute j = { s with panicked := true }) := by
  refine ⟨fun htimes => ?_, Scene.execute_of_not_times⟩
  have hlimit := settings.connection.maxPayloadSize.toNat_lt_size
  obtain ⟨hpackets, -⟩ := Performance.play_eq (c := j.context) hnul
    fun r hr => Nat.lt_of_le_of_lt (hreports r hr) hlimit
  obtain ⟨hfront, hall⟩ := Moment.forwarded_prefix j.definition.timeout 0 j.moments.1
  rw [AssignedJob.moments, hpackets] at hfront hall
  obtain ⟨sent, hsent, hforwarded⟩ := List.prefix_map_iff.1 hfront
  obtain ⟨m, hm, hwritten⟩ := (Scene.sends_execute hreached.sound htimes hnul).self m' hopen
  have hfits : within settings.connection.maxPayloadSize j.forwarded.1 =
      sent.map fun r => .request r.kind (j.context.payload r) := by
    rw [AssignedJob.forwarded, AssignedJob.moments, hforwarded]
    refine Packet.within_eq_self fun p hp => ?_
    obtain ⟨r, hr, rfl⟩ := List.mem_map.1 hp
    exact hreports r (hsent.mem hr)
  rw [hfits, Packet.within_eq_self hclosing] at hwritten
  refine ⟨m, _, sent, hm, hwritten, hsent, fun hfinished => ?_, ?_⟩
  · refine hsent.eq_of_length ?_
    simpa using congrArg List.length (hforwarded.symm.trans (hall hfinished))
  · have hpassed : (sent.map fun r => Packet.request r.kind (j.context.payload r)).map
        Packet.passedOn = sent.map fun r => .response r.kind (j.context.payload r) :=
      List.map_map ..
    have htold := JobResult.absorb_told (c := j.context) hnul []
      fun r hr => hprogress r (hsent.mem hr)
    rw [List.map_append, hpassed]
    exact (htold _).trans (JobResult.absorb_closing hnul sent hresults)

/-- Data with a zero byte, a status, and a success with a warning. -/
theorem reports_reach_client_success : ∃ s j, ∃ m m' : Member, ∃ ps,
    Reached { workerId := "" } s.worker ∧ (Scene.execute s j).worker.members.get? j.server = some m' ∧
    s.worker.members.get? j.server = some m ∧ m'.session.sent = m.session.sent ++ ps ∧
    (JobResult.pending [0x48]).absorb (ps.map Packet.passedOn) = .ok (true,
      { handle := [0x48], succeeded := true, results := [1, 0, 2], warnings := [0, 5],
        numerator := 3, denominator := 4 }) := by
  let p : Performance :=
    ⟨[.report (.data [1, 0]), .report (.status 3 4), .report (.warning [0])],
      .returned ((JobResult.success [2]).withWarning [5])⟩
  let j : AssignedJob := ⟨.default, [0x48], "", none, [], nameless p⟩
  have hreached := (reached_assigned p).tail (.taken (queue_assigned p))
  have houtcome : j.outcome = .returned ((JobResult.success [2]).withWarning [5]) := by cbv
  have hresults : ∀ results, j.outcome.results? = some results → results = [2] := by
    intro results hresults
    rw [houtcome] at hresults
    exact (Option.some.inj hresults).symm
  have hclosing : j.outcome.closing Header.defaultMaxPayload j.handle j.function =
      [.note .workWarning [0x48] [5], .note .workComplete [0x48] [2]] := by cbv
  have hopen : ((executing p).execute j |>.worker.members.get? .default).isSome = true := by cbv
  obtain ⟨m', hm'⟩ := Option.isSome_iff_exists.1 hopen
  obtain ⟨hclient, -⟩ := reports_reach_client (s := executing p) (j := j) hreached (by decide)
    (by decide) (by decide)
    (fun results h => hresults results h ▸ by decide)
    (fun q hq => by
      rw [hclosing] at hq
      revert q
      decide) hm'
  obtain ⟨m, ps, sent, hm, hsent, -, hall, hclient⟩ := hclient (Scene.times_of_timeout_none rfl)
  obtain rfl : sent = _ := hall (by cbv)
  have hconcluded : JobResult.concluded j.handle j.reports j.function j.outcome =
      { handle := [0x48], succeeded := true, results := [1, 0, 2], warnings := [0, 5],
        numerator := 3, denominator := 4 } := by cbv
  exact ⟨executing p, j, m, m', ps, hreached, hm', hm, hsent, hconcluded ▸ hclient⟩

end Worker

end Gearman
