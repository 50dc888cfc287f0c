import Mathlib
import Gearman.Proofs.Worker.Execution

/-!
Every executed job is reported to the server that assigned it, as long as the session is open.

There are two exceptions. The results of a success that are too long for the length field of a packet
are passed over, and the server is not even told that the job failed. And a timeout so long that the
clock cannot tell the deadline is the end of the worker.
-/

namespace Gearman

namespace Outcome

variable {limit : UInt32} {handle : Bytes} {function : String} {o : Outcome}

/-- The packets `ps` tell a server how a job ended: a warning at most, an exception at most, and last
the verdict. -/
def Closes (limit : UInt32) (handle : Bytes) (o : Outcome) (ps : List Packet) : Prop :=
  ∃ warning exception : Option Packet, ∃ last, ps = warning.toList ++ exception.toList ++ [last] ∧
    (∀ p ∈ warning, p.kind = .workWarning) ∧ (∀ p ∈ exception, p.kind = .workException) ∧
    Verdict limit handle o last

open Packet (within note)

theorem within_singleton (limit : UInt32) (p : Packet) :
    ∃ p? : Option Packet, within limit [p] = p?.toList ∧ ∀ q ∈ p?, q.kind = p.kind := by
  by_cases hfits : p.payload.length ≤ limit.toNat
  · exact ⟨some p, by simp [Packet.within_of_le hfits], by simp⟩
  · exact ⟨none, by simp [Packet.within_of_lt (Nat.lt_of_not_le hfits)], by simp⟩

/-- The verdict that a job failed is never too long: its handle came from the server. -/
theorem within_failure (hlength : handle.length ≤ limit.toNat) (message : Bytes) :
    ∃ exception : Option Packet,
      within limit (failure handle message) = exception.toList ++ [.request .workFail handle] ∧
      ∀ p ∈ exception, p.kind = .workException := by
  obtain ⟨exception, hexception, hkind⟩ := within_singleton limit
    (note .workException handle message)
  refine ⟨exception, ?_, hkind⟩
  have hfail : within limit [.request .workFail handle] = [.request .workFail handle] :=
    Packet.within_of_le hlength
  rw [failure, Packet.within_cons, hexception, hfail]

theorem closes_closing (hlength : handle.length ≤ limit.toNat)
    (hresults : ∀ results, o.results? = some results →
      handle.length + 1 + results.length < UInt32.size) :
    o.Closes limit handle (within limit (o.closing limit handle function)) := by
  have hwarning : ∃ warning : Option Packet,
      within limit (if o.warnings.isEmpty then [] else [note .workWarning handle o.warnings]) =
        warning.toList ∧ ∀ p ∈ warning, p.kind = .workWarning := by
    split
    · exact ⟨none, rfl, by simp⟩
    · exact within_singleton limit _
  obtain ⟨warning, hwarning, hwarned⟩ := hwarning
  obtain ⟨exception, hfailure, hexception⟩ := within_failure hlength (o.message function)
  unfold closing
  rw [Packet.within_append, hwarning]
  cases hr : o.results? with
  | none =>
    refine ⟨warning, exception, _, ?_, hwarned, hexception, .fail (by simp [hr])⟩
    dsimp only
    rw [hfailure, List.append_assoc]
  | some results =>
    dsimp only
    split
    · next hfits =>
      refine ⟨warning, none, _, ?_, hwarned, by simp, .complete hr hfits⟩
      rw [Packet.within_of_le (by rwa [Packet.length_note])]
      simp
    · next hlong =>
      rw [if_pos (hresults results hr), hfailure]
      refine ⟨warning, exception, _, (List.append_assoc ..).symm, hwarned, hexception, .fail ?_⟩
      intro results' hr'
      rw [hr] at hr'
      cases hr'
      exact Nat.lt_of_not_le hlong

end Outcome

namespace Worker

open Packet (within note)

/-- The session over which a job was assigned is told all that the function sends in time and that is
not refused for its size, then how the job ended, and nothing else. Other sessions are told nothing.
A success has to have results of which a packet can be made, and the clock has to tell the deadline: if
it cannot, the work breaks down and nobody is told anything. -/
theorem executed_job_is_reported {settings : WorkerSettings} {w : Worker} {j : AssignedJob}
    {rest : List AssignedJob} {s : Scene} {m' : Member} (hreached : Reached settings w)
    (hqueue : w.queue = j :: rest) (hs : s.worker = { w with queue := rest })
    (hresults : ∀ results, j.outcome.results? = some results →
      j.handle.length + 1 + results.length < UInt32.size)
    (hopen : (s.execute j).worker.members.get? j.server = some m') :
    (s.Times j →
      (∃ m ps, w.members.get? j.server = some m ∧
        m'.session.sent =
          m.session.sent ++ within settings.connection.maxPayloadSize j.forwarded.1 ++ ps ∧
        j.outcome.Closes settings.connection.maxPayloadSize j.handle ps) ∧
      j.forwarded.1 <+: Performance.packets j.moments.1 ∧
      (j.forwarded.2 = true → j.forwarded.1 = Performance.packets j.moments.1) ∧
      ∀ other n', j.server ≠ other → (s.execute j).worker.members.get? other = some n' →
        ∃ n, w.members.get? other = some n ∧ n'.session.sent = n.session.sent) ∧
    (¬s.Times j → s.execute j = { s with panicked := true }) := by
  refine ⟨fun htimes => ?_, Scene.execute_of_not_times⟩
  have hw := hreached.sound
  obtain ⟨⟨hnul, hlength⟩, -⟩ := hw.job j (by rw [hqueue]; exact List.mem_cons_self)
  have hscene := hw.evolves (.single (.taken hqueue))
  rw [← hs] at hscene
  have hsends := Scene.sends_execute hscene htimes hnul
  rw [hs] at hsends
  obtain ⟨hfront, hall⟩ := Moment.forwarded_prefix j.definition.timeout 0 j.moments.1
  obtain ⟨m, hm, hsent⟩ := hsends.self m' hopen
  rw [← List.append_assoc] at hsent
  exact ⟨⟨m, _, hm, hsent, Outcome.closes_closing hlength hresults⟩, hfront, hall, hsends.other⟩

/-- A function without a name that does the same for all jobs. -/
def nameless (p : Performance) : Definition := .ofFunction "" none fun _ => p

/-- A worker that offers such a function to one server and has been assigned one job. -/
def assigned (p : Performance) : Worker :=
  let w := (((withSettings { workerId := "" }).register (nameless p)).2.addServer .default true).2
  let w := (w.deliver ⟨.default, (Packet.response .jobAssign [0x48, 0, 0]).encode, .none⟩).1
  let (event, w) := w.receive .default
  event.elim w fun e => (w.dispatch .default e).2

theorem reached_assigned (p : Performance) : Reached { workerId := "" } (assigned p) := by
  have hoffered := evolves_perform (withSettings { workerId := "" }) (.register (nameless p))
  have hdelivered := (hoffered.tail (.joined _ .default true)).tail
    (.arrived _ ⟨.default, (Packet.response .jobAssign [0x48, 0, 0]).encode, .none⟩)
  simp only [assigned]
  generalize hreceive : Worker.receive _ _ = received
  obtain ⟨event, w⟩ := received
  cases event with
  | none => exact hdelivered.tail (.idle hreceive)
  | some event => exact hdelivered.tail (.handled hreceive)

theorem queue_assigned (p : Performance) :
    (assigned p).queue = [⟨.default, [0x48], "", none, [], nameless p⟩] := by
  cbv

/-- The assigned worker executes its job in this scene. -/
def executing (p : Performance) : Scene := { worker := { assigned p with queue := [] } }

/-- A function that sends data and then succeeds with a warning. -/
theorem executed_job_is_reported_success : ∃ w j, ∃ m m' : Member, ∃ ps, Reached { workerId := "" } w ∧
    w.queue = [j] ∧ w.members.get? j.server = some m ∧
    m'.session.sent = m.session.sent ++ [note .workData [0x48] [1]] ++ ps ∧
    j.outcome = .returned ((JobResult.success [3]).withWarning [2]) ∧
    j.outcome.Closes Header.defaultMaxPayload j.handle ps := by
  let p : Performance :=
    ⟨[.report (.data [1])], .returned ((JobResult.success [3]).withWarning [2])⟩
  let j : AssignedJob := ⟨.default, [0x48], "", none, [], nameless p⟩
  have houtcome : j.outcome = .returned ((JobResult.success [3]).withWarning [2]) := by cbv
  have hforwarded : within Header.defaultMaxPayload j.forwarded.1 = [note .workData [0x48] [1]] := by
    cbv
  have hopen : ((executing p).execute j |>.worker.members.get? .default).isSome = true := by cbv
  obtain ⟨m', hm'⟩ := Option.isSome_iff_exists.1 hopen
  have htimes : (executing p).Times j := Scene.times_of_timeout_none rfl
  obtain ⟨hreported, -⟩ := executed_job_is_reported (reached_assigned p)
    (queue_assigned p) (s := executing p) rfl (fun results hresults => by
      rw [houtcome] at hresults
      cases hresults
      decide) hm'
  obtain ⟨⟨m, ps, hm, hsent, hcloses⟩, -⟩ := hreported htimes
  exact ⟨assigned p, j, m, m', ps, reached_assigned p, queue_assigned p, hm,
    hforwarded ▸ hsent, houtcome, hcloses⟩

/-- Results that make no packet are passed over when nothing else is to be said. -/
theorem execute_unsendable {s : Scene} {j : AssignedJob} {r : JobResult} (htimes : s.Times j)
    (hmoments : j.moments = ([], .returned r)) (hr : r.succeeded = true) (hwarnings : r.warnings = [])
    (hlong : UInt32.size ≤ j.handle.length + 1 + r.results.length) :
    (s.execute j).worker = s.worker := by
  have hrefused : ∃ e, Packet.ofFields .request .workComplete [j.handle, r.results] = .error e := by
    cases hfields : Packet.ofFields .request .workComplete [j.handle, r.results] with
    | error e => exact ⟨e, rfl⟩
    | ok p =>
      obtain ⟨hlength, -⟩ := Packet.ofFields_eq_ok.1 hfields
      rw [← Packet.length_note .workComplete] at hlong
      exact absurd hlength (Nat.not_lt_of_le hlong)
  obtain ⟨e, he⟩ := hrefused
  obtain ⟨deadline, hdeadline⟩ := htimes.exists_deadline
  rw [AssignedJob.moments] at hmoments
  simp only [Scene.execute, hdeadline, hmoments, Scene.play, Finish.outcome, if_true, reportEnd, hr,
    reportSuccess, hwarnings, List.isEmpty_nil, report, he]

/-- Of results with as many bytes as no packet can hold a server hears nothing: no packet is sent
although the session stays open. -/
theorem unsendable_results_are_passed_over : ∃ w j rest m m' r, Reached { workerId := "" } w ∧
    w.queue = j :: rest ∧ j.outcome = .returned r ∧ r.succeeded = true ∧
    w.members.get? j.server = some m ∧
    (Scene.execute { worker := { w with queue := rest } } j).worker.members.get? j.server = some m' ∧
    m'.session.sent = m.session.sent := by
  let r : JobResult := .success (List.replicate UInt32.size 0)
  let w := assigned ⟨[], .returned r⟩
  let j : AssignedJob := ⟨.default, [0x48], "", none, [], nameless ⟨[], .returned r⟩⟩
  have hqueue : w.queue = [j] := queue_assigned _
  have hjob := (reached_assigned ⟨[], .returned r⟩).sound.job j
    (by rw [queue_assigned]; exact List.mem_cons_self)
  obtain ⟨m, hm⟩ := hasServer_iff.1 hjob.2
  have hexecute : (Scene.execute { worker := { w with queue := [] } } j).worker =
      { w with queue := [] } := by
    refine execute_unsendable (r := r) (Scene.times_of_timeout_none rfl) rfl rfl rfl ?_
    simp only [r, JobResult.success, List.length_replicate]
    omega
  refine ⟨w, j, [], m, m, r, reached_assigned _, hqueue, rfl, rfl, hm, ?_, rfl⟩
  simpa only [hexecute] using hm

end Worker

end Gearman
