import Gearman.Proofs.Worker.Reports

/-!
Every job that is executed is reported: what the server is told while the function runs, and how it is
told of the end.
-/

namespace Gearman

/-- The packets that are forwarded before the function is cut off, and whether it gets to its end. -/
def Moment.forwarded (limit : Option Duration) (elapsed : Nat) : List Moment → List Packet × Bool
  | [] => ([], true)
  | .sent p :: rest =>
    let (ps, finished) := forwarded limit elapsed rest
    (p :: ps, finished)
  | .pause ms :: rest =>
    let elapsed := elapsed + ms * 1000000
    if limit.any (·.toNanos < elapsed) then ([], false) else forwarded limit elapsed rest

/-- Packets are forwarded in the order in which they were sent, and all of them in time. -/
theorem Moment.forwarded_prefix (limit : Option Duration) (elapsed : Nat) (moments : List Moment) :
    (forwarded limit elapsed moments).1 <+: Performance.packets moments ∧
      ((forwarded limit elapsed moments).2 = true →
        (forwarded limit elapsed moments).1 = Performance.packets moments) := by
  induction moments generalizing elapsed with
  | nil => exact ⟨List.prefix_refl _, fun _ => rfl⟩
  | cons moment rest ih =>
    cases moment with
    | sent p =>
      obtain ⟨hfront, hall⟩ := ih elapsed
      exact ⟨List.prefix_cons_inj p |>.2 hfront, fun h => congrArg (p :: ·) (hall h)⟩
    | pause ms =>
      simp only [forwarded]
      split
      · exact ⟨List.nil_prefix, by simp⟩
      · exact ih _

/-- What lies behind a deadline is what takes longer than the time that was given. -/
theorem Instant.any_deadline {start : Instant} {time : Option Duration} {deadline : Option Instant}
    (h : start.deadline? time = some deadline) (span : Nat) :
    deadline.any (·.nanos < start.nanos + span) = time.any (·.toNanos < span) := by
  cases time with
  | none =>
    cases h
    rfl
  | some timeout =>
    obtain ⟨moment, hmoment, rfl⟩ := Option.map_eq_some_iff.1 h
    rw [Option.any_some, Option.any_some, nanos_of_after? hmoment]
    exact decide_eq_decide.2 Nat.add_lt_add_iff_left

namespace AssignedJob

/-- What comes of the function when it is executed for a job. -/
def moments (j : AssignedJob) : List Moment × Finish :=
  (j.definition.body 0 j.context).play j.context

/-- The packets of the function that are forwarded, and whether it gets to its end. -/
def forwarded (j : AssignedJob) : List Packet × Bool :=
  Moment.forwarded j.definition.timeout 0 j.moments.1

def outcome (j : AssignedJob) : Outcome :=
  if j.forwarded.2 then j.moments.2.outcome else .failed (j.function ++ " timed out")

end AssignedJob

namespace Outcome

open Packet (note)

/-- The results of a success. -/
def results? : Outcome → Option Bytes
  | .returned r => if r.succeeded then some r.results else none
  | .failed _ => none

/-- The warnings that go with a success. -/
def warnings : Outcome → Bytes
  | .returned r => if r.succeeded then r.warnings else []
  | .failed _ => []

/-- What is said of an outcome that is no success, or of results that are too long. -/
def message (function : String) : Outcome → Bytes
  | .returned r =>
    if r.succeeded then Text.Utf8.encode (function ++ " result exceeds the maximum payload size")
    else if r.exceptions.isEmpty then Text.Utf8.encode (function ++ " returned a failed result")
    else r.exceptions
  | .failed message => Text.Utf8.encode message

/-- How a server is told of a failure. -/
def failure (handle message : Bytes) : List Packet :=
  [note .workException handle message, .request .workFail handle]

/-- How a server is told of the end of a job, those packets included that are refused for their size.
Results of which no packet can be made are passed over. -/
def closing (limit : UInt32) (handle : Bytes) (function : String) (o : Outcome) : List Packet :=
  (if o.warnings.isEmpty then [] else [note .workWarning handle o.warnings]) ++
    match o.results? with
    | none => failure handle (o.message function)
    | some results =>
      if handle.length + 1 + results.length ≤ limit.toNat then [note .workComplete handle results]
      else if handle.length + 1 + results.length < UInt32.size then
        failure handle (o.message function)
      else []

theorem warnings_of_none {o : Outcome} (h : o.results? = none) : o.warnings = [] := by
  cases o with
  | returned r =>
    simp only [results?, ite_eq_right_iff, reduceCtorEq, imp_false] at h
    simp [warnings, h]
  | failed message => rfl

/-- A function that does not succeed is reported as failed, with no warning. -/
theorem closing_of_none {limit : UInt32} {handle : Bytes} {function : String} {o : Outcome}
    (h : o.results? = none) :
    o.closing limit handle function = failure handle (o.message function) := by
  simp [closing, h, warnings_of_none h]

/-- The last packet about a job: its results, if the function has succeeded and they can be sent, and
that it failed in every other case. -/
inductive Verdict (limit : UInt32) (handle : Bytes) (o : Outcome) : Packet → Prop
  | complete {results : Bytes} (hresults : o.results? = some results)
    (hfits : handle.length + 1 + results.length ≤ limit.toNat) :
    Verdict limit handle o (note .workComplete handle results)
  | fail (hunsent : ∀ results, o.results? = some results →
      limit.toNat < handle.length + 1 + results.length) :
    Verdict limit handle o (.request .workFail handle)

end Outcome

namespace Worker

open Packet (within note)

variable {limit : UInt32} {w : Worker} {server : Address} {handle : Bytes}

theorem Sound.sends_reportFailure (hw : Sound limit w) (server : Address) (hnul : 0 ∉ handle)
    (message : Bytes) : Sends server (within limit (Outcome.failure handle message)) w
      (w.reportFailure server handle message) := by
  have hreported := hw.tells (tells_report w server .workException rfl handle message)
  have hnote := hw.sends_report server .workException hnul message
  rw [Outcome.failure, Packet.within_cons]
  exact hnote.trans (hreported.sends_sendTo server (.request .workFail handle))

theorem Sound.sends_reportSuccess (hw : Sound limit w) (server : Address) (hnul : 0 ∉ handle)
    (function : String) {r : JobResult} (hr : r.succeeded = true) :
    Sends server (within limit (Outcome.closing limit handle function (.returned r))) w
      (w.reportSuccess server handle function r) := by
  unfold reportSuccess
  generalize hwarn : (if r.warnings.isEmpty then w
    else (w.report server .workWarning handle r.warnings).2) = warned
  have hwarned : Sound limit warned ∧ Sends server
      (within limit (if r.warnings.isEmpty then [] else [note .workWarning handle r.warnings]))
      w warned := by
    rw [← hwarn]
    split
    · exact ⟨hw, .refl server w⟩
    · exact ⟨hw.tells (tells_report w server .workWarning rfl handle r.warnings),
        hw.sends_report server .workWarning hnul r.warnings⟩
  obtain ⟨hsound, hsends⟩ := hwarned
  have hcomplete := hsound.sends_report server .workComplete hnul r.results
  have hrefused := hsound.report_fst server .workComplete hnul r.results
  have hevolved := hsound.tells
    (tells_report warned server .workComplete rfl handle r.results)
  simp only [Outcome.closing, Outcome.warnings, Outcome.results?, Outcome.message, hr, if_true,
    Packet.within_append]
  refine hsends.trans ?_
  generalize hreport : warned.report server .workComplete handle r.results = answer at *
  obtain ⟨sent, w'⟩ := answer
  cases sent with
  | true =>
    refine hcomplete.of_hasServer fun hstays => ?_
    have hsent := hrefused hstays
    simp only [Bool.true_eq_false, false_iff, not_and] at hsent
    split
    · rfl
    · next hlong =>
      rw [if_neg (hsent (Nat.lt_of_not_le hlong)), Packet.within_nil,
        Packet.within_of_lt (by rw [Packet.length_note]; exact Nat.lt_of_not_le hlong)]
  | false =>
    have hfailed := hevolved.sends_reportFailure server hnul
      (Text.Utf8.encode (function ++ " result exceeds the maximum payload size"))
    refine (hcomplete.trans hfailed).of_hasServer fun hstays => ?_
    obtain ⟨m', hm'⟩ := hasServer_iff.1 hstays
    obtain ⟨m, hm, -⟩ := hfailed.self m' hm'
    obtain ⟨hlong, hsize⟩ := (hrefused (hasServer_iff.2 ⟨m, hm⟩)).1 rfl
    rw [if_neg (Nat.not_le_of_lt hlong), if_pos hsize,
      Packet.within_of_lt (by rw [Packet.length_note]; exact hlong), List.nil_append]

theorem Sound.sends_reportEnd (hw : Sound limit w) (server : Address) (hnul : 0 ∉ handle)
    (function : String) (o : Outcome) :
    Sends server (within limit (o.closing limit handle function)) w
      (w.reportEnd server handle function o) := by
  cases o with
  | failed message => exact hw.sends_reportFailure server hnul _
  | returned r =>
    cases hr : r.succeeded with
    | true =>
      simp only [reportEnd, hr, if_true]
      exact hw.sends_reportSuccess server hnul function hr
    | false =>
      rw [Outcome.closing_of_none (by simp [Outcome.results?, hr])]
      simp only [reportEnd, Outcome.message, hr, Bool.false_eq_true, if_false]
      split
      · exact hw.sends_reportFailure server hnul _
      · exact hw.sends_reportFailure server hnul _

end Worker

namespace Scene

open Worker Packet

variable {limit : UInt32} {s : Scene}

theorem sends_sleep (hw : Worker.Sound limit s.worker) (server : Address) :
    Sends server [] s.worker s.sleep.worker := by
  unfold sleep
  generalize s.cues.takeWhile (·.during) = cues
  induction cues generalizing s with
  | nil => exact .refl server s.worker
  | cons _ rest ih =>
    have hadvance : Sends server [] s.worker s.advance.worker := by
      unfold advance
      split
      · exact .refl server s.worker
      · exact hw.sends_deliver server _
    exact hadvance.trans (ih (hw.tells (tells_advance s)))

/-- What a function sends is forwarded until it is cut off. It was started when `elapsed` nanoseconds
less had gone by. -/
theorem sends_play (hw : Worker.Sound limit s.worker) (server : Address) {start : Instant}
    {time : Option Duration} {deadline : Option Instant} {elapsed : Nat} {moments : List Moment}
    (hdeadline : start.deadline? time = some deadline) (hnow : s.now.nanos = start.nanos + elapsed)
    (hsent : ∀ p, .sent p ∈ moments → p.kind.isUpdate = true) :
    (s.play server deadline moments).2 = (Moment.forwarded time elapsed moments).2 ∧
      Sends server (within limit (Moment.forwarded time elapsed moments).1) s.worker
        (s.play server deadline moments).1.worker := by
  induction moments generalizing s elapsed with
  | nil => exact ⟨rfl, .refl server s.worker⟩
  | cons moment rest ih =>
    have hrest : ∀ p, .sent p ∈ rest → p.kind.isUpdate = true :=
      fun p hp => hsent p (List.mem_cons_of_mem _ hp)
    cases moment with
    | sent p =>
      have hp := Kind.isAnswered_of_isUpdate (hsent p List.mem_cons_self)
      obtain ⟨hfinished, hsends⟩ := ih
        (s := { s with worker := (s.worker.sendTo server p).2 }) (hw.sendTo server hp).1 hnow hrest
      refine ⟨hfinished, ?_⟩
      simp only [Moment.forwarded]
      rw [within_cons]
      exact (hw.sends_sendTo server p).trans hsends
    | pause ms =>
      have hslept := sends_sleep hw server
      have hwake : (s.now.afterMillis ms).nanos = start.nanos + (elapsed + ms * 1000000) := by
        rw [Instant.afterMillis, hnow, Nat.add_assoc]
      simp only [play, Moment.forwarded, hwake, Instant.any_deadline hdeadline]
      split
      · exact ⟨rfl, hslept⟩
      · obtain ⟨hfinished, hsends⟩ := ih
          (s := { s.sleep with now := s.now.afterMillis ms }) (hw.tells (tells_sleep s)) hwake hrest
        exact ⟨hfinished, hslept.trans hsends⟩

/-- Whether the clock can tell when the time of a job is up that is executed now. -/
def Times (s : Scene) (j : AssignedJob) : Prop :=
  ∀ timeout, j.definition.timeout = some timeout → s.now.nanos + timeout.toNanos < Instant.limit

theorem times_of_timeout_none {j : AssignedJob} (h : j.definition.timeout = none) : s.Times j := by
  intro timeout htimeout
  simp [h] at htimeout

theorem Times.exists_deadline {j : AssignedJob} (h : s.Times j) :
    ∃ deadline, s.now.deadline? j.definition.timeout = some deadline := by
  cases htimeout : j.definition.timeout with
  | none => exact ⟨none, rfl⟩
  | some timeout =>
    have hafter : s.now.after? timeout = some ⟨s.now.nanos + timeout.toNanos⟩ :=
      if_pos (h timeout htimeout)
    exact ⟨some ⟨s.now.nanos + timeout.toNanos⟩, congrArg (·.map some) hafter⟩

/-- Of a job whose deadline the clock cannot tell nobody hears, and the work breaks down. -/
theorem execute_of_not_times {j : AssignedJob} (h : ¬s.Times j) :
    s.execute j = { s with panicked := true } := by
  simp only [Times, not_forall] at h
  obtain ⟨timeout, htimeout, hlate⟩ := h
  have hdeadline : s.now.deadline? j.definition.timeout = none := by
    rw [htimeout, Instant.deadline?, Instant.after?, if_neg hlate]
    rfl
  simp only [execute, hdeadline]

/-- Everything that an execution tells a server, in order. -/
theorem sends_execute (hw : Worker.Sound limit s.worker) {j : AssignedJob} (htimes : s.Times j)
    (hnul : 0 ∉ j.handle) :
    Sends j.server (within limit j.forwarded.1 ++
      within limit (j.outcome.closing limit j.handle j.function)) s.worker (s.execute j).worker := by
  have hsent : ∀ p, .sent p ∈ j.moments.1 → p.kind.isUpdate = true :=
    fun _ => Performance.isUpdate_of_play
  obtain ⟨deadline, hdeadline⟩ := htimes.exists_deadline
  obtain ⟨hfinished, hsends⟩ := sends_play hw j.server hdeadline (Nat.add_zero _).symm hsent
  have hplayed := hw.tells (tells_play s j.server deadline _ hsent)
  have hend := hplayed.sends_reportEnd j.server hnul j.function j.outcome
  have hexecute : (s.execute j).worker =
      (s.play j.server deadline j.moments.1).1.worker.reportEnd j.server j.handle
        j.function j.outcome := by
    simp only [execute, hdeadline, AssignedJob.outcome, AssignedJob.forwarded, ← hfinished]
    rfl
  rw [hexecute]
  exact hsends.trans hend

end Scene

end Gearman
