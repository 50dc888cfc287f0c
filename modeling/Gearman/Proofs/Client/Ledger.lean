import Gearman.Proofs.Client.History
import Mathlib.Data.List.Induction

/-!
What a history tells about one job.

`Followed` and `Completed` read the history as a whole. `replay` goes through it happening by happening
and ends with the same two results.
-/

namespace Gearman

/-- What reports on a job add up to, whether or not each of them could be read. -/
def JobResult.tally (handle : Bytes) (reports : List Packet) : JobResult :=
  reports.foldl (fun r p => (r.apply p).2) (.pending handle)

namespace Client

namespace Happening

/-- Whether an attached submission learnt that its job has this handle. -/
def creates (job : JobHandle) : Happening → Bool
  | .packet server (.reply _ p) (some x) =>
    server = job.server && p.kind = .jobCreated && p.payload = job.handle && x.isAttached
  | _ => false

/-- The report on this job that was handled, if any. -/
def report? (job : JobHandle) : Happening → Option Packet
  | .packet server event _ =>
    if server = job.server ∧ event.packet.isReport = true ∧
        event.packet.handleAndRest.1 = job.handle then some event.packet
    else none
  | _ => none

/-- Whether all that hung on the session of a server was forgotten. -/
def forgets (server : Address) : Happening → Bool
  | .forgotten other => other = server
  | .ended => true
  | _ => false

/-- Whether this is the final report on a job. -/
def concludes (job : JobHandle) (e : Happening) : Bool :=
  (e.report? job).any (·.kind.isFinal)

/-- Whether a job that was tracked is not tracked any more. -/
def ends (job : JobHandle) (e : Happening) : Bool := e.concludes job || e.forgets job.server

/-- Whether the result of a finished job left the client. -/
def releases (job : JobHandle) : Happening → Bool
  | .collected other => other = job
  | .ended => true
  | _ => false

variable {e : Happening} {job : JobHandle}

/-- A report costs nobody what is known of a job. -/
theorem kept_of_report? {p : Packet} (h : e.report? job = some p) :
    e.forgets job.server = false ∧ e.releases job = false := by
  cases e with
  | packet => exact ⟨rfl, rfl⟩
  | _ => contradiction

theorem report?_of_releases (h : e.releases job = true) : e.report? job = none := by
  cases e with
  | packet => contradiction
  | _ => rfl

end Happening

/-- The reports on a job that is tracked: those since the latest reply that created it. None of them is
final, and its server was not forgotten since. -/
def Followed (log : History) (job : JobHandle) (reports : List Packet) : Prop :=
  ∃ past created since, log = past ++ created :: since ∧ created.creates job = true ∧
    (∀ e ∈ since, e.creates job = false ∧ e.forgets job.server = false) ∧
    reports = since.filterMap (·.report? job) ∧ ∀ p ∈ reports, p.kind.isFinal = false

/-- The happening `e` ends a job that was tracked. -/
def Completes (log : History) (e : Happening) (job : JobHandle) (reports : List Packet) : Prop :=
  ∃ before p, Followed log job before ∧ e.report? job = some p ∧ p.kind.isFinal = true ∧
    reports = before ++ [p]

/-- The reports on a job when it last ended, if its result was not released since. -/
def Completed (log : History) (job : JobHandle) (reports : List Packet) : Prop :=
  ∃ past last since, log = past ++ last :: since ∧ Completes past last job reports ∧
    (∀ e ∈ since, e.releases job = false) ∧
    ∀ mid e rest later, since = mid ++ e :: rest → ¬ Completes (past ++ last :: mid) e job later

variable {log : History} {e : Happening} {job : JobHandle} {reports : List Packet}

/-- A list with one more element that is cut at some element is cut at its last one or before. -/
theorem concat_eq_append_cons {α : Type} {l past since : List α} {a b : α}
    (h : l ++ [a] = past ++ b :: since) :
    l = past ∧ a = b ∧ since = [] ∨ ∃ before, since = before ++ [a] ∧ l = past ++ b :: before := by
  rcases List.eq_nil_or_concat since with rfl | ⟨before, last, rfl⟩
  · obtain ⟨rfl, hlast⟩ := List.append_inj' h rfl
    exact .inl ⟨rfl, List.head_eq_of_cons_eq hlast, rfl⟩
  · rw [List.concat_eq_append, ← List.cons_append, ← List.append_assoc] at h
    obtain ⟨rfl, hlast⟩ := List.append_inj' h rfl
    rw [List.concat_eq_append, List.head_eq_of_cons_eq hlast]
    exact .inr ⟨before, rfl, rfl⟩

theorem followed_concat : Followed (log ++ [e]) job reports ↔
    e.creates job = true ∧ reports = [] ∨
      e.creates job = false ∧ e.forgets job.server = false ∧ ∃ before, Followed log job before ∧
        reports = before ++ (e.report? job).toList ∧
        ∀ p ∈ e.report? job, p.kind.isFinal = false := by
  constructor
  · rintro ⟨past, created, since, hlog, hcreated, hsince, rfl, hopen⟩
    rcases concat_eq_append_cons hlog with ⟨rfl, rfl, rfl⟩ | ⟨before, rfl, rfl⟩
    · exact .inl ⟨hcreated, rfl⟩
    · obtain ⟨hnew, hkept⟩ := hsince e (by simp)
      rw [List.filterMap_append] at hopen ⊢
      refine .inr ⟨hnew, hkept, before.filterMap (·.report? job), ?_, ?_, ?_⟩
      · exact ⟨past, created, before, rfl, hcreated, fun e he => hsince e (by simp [he]), rfl,
          fun p hp => hopen p (List.mem_append_left _ hp)⟩
      · cases hreport : e.report? job <;> simp [hreport]
      · intro p hp
        exact hopen p (List.mem_append_right _ (by simpa using hp))
  · rintro (⟨hcreates, rfl⟩ | ⟨hnew, hkept, before, hbefore, rfl, hopen⟩)
    · exact ⟨log, e, [], rfl, hcreates, by simp, rfl, by simp⟩
    · obtain ⟨past, created, since, rfl, hcreated, hsince, rfl, hnone⟩ := hbefore
      refine ⟨past, created, since ++ [e], by simp, hcreated, ?_, ?_, ?_⟩
      · intro e' he'
        rw [List.mem_append, List.mem_singleton] at he'
        rcases he' with he' | rfl
        · exact hsince e' he'
        · exact ⟨hnew, hkept⟩
      · cases hreport : e.report? job <;> simp [hreport]
      · intro p hp
        rw [List.mem_append] at hp
        rcases hp with hp | hp
        · exact hnone p hp
        · exact hopen p (by simpa using hp)

theorem completed_concat : Completed (log ++ [e]) job reports ↔
    Completes log e job reports ∨ e.releases job = false ∧
      (∀ later, ¬ Completes log e job later) ∧ Completed log job reports := by
  constructor
  · rintro ⟨past, last, since, hlog, hlast, hkept, hlatest⟩
    rcases concat_eq_append_cons hlog with ⟨rfl, rfl, rfl⟩ | ⟨before, rfl, rfl⟩
    · exact .inl hlast
    · refine .inr ⟨hkept e (by simp), fun later => hlatest before e [] later rfl, ?_⟩
      refine ⟨past, last, before, rfl, hlast, fun e he => hkept e (by simp [he]), ?_⟩
      intro mid e' rest later hmid
      exact hlatest mid e' (rest ++ [e]) later (by simp [hmid])
  · rintro (hcompletes | ⟨hkept, hnone, past, last, since, rfl, hlast, hheld, hlatest⟩)
    · exact ⟨log, e, [], rfl, hcompletes, by simp, by simp⟩
    · refine ⟨past, last, since ++ [e], by simp, hlast, ?_, ?_⟩
      · intro e' he'
        rw [List.mem_append, List.mem_singleton] at he'
        rcases he' with he' | rfl
        · exact hheld e' he'
        · exact hkept
      · intro mid e' rest later hmid
        rcases concat_eq_append_cons hmid with ⟨rfl, rfl, rfl⟩ | ⟨before, rfl, rfl⟩
        · exact hnone later
        · exact hlatest mid e' before later rfl

/-- What is known of one job: its result so far while it is tracked, and a result that was not
collected. -/
structure Entry where
  tracked : Option JobResult
  finished : Option JobResult

/-- What a happening makes of the entry of a job. -/
def Entry.next (job : JobHandle) (entry : Entry) (e : Happening) : Entry where
  tracked :=
    if e.creates job then some (.pending job.handle)
    else if e.forgets job.server then none
    else
      match e.report? job with
      | none => entry.tracked
      | some p => if p.kind.isFinal then none else entry.tracked.map fun r => (r.apply p).2
  finished :=
    if e.releases job then none
    else
      match e.report? job, entry.tracked with
      | some p, some r => if p.kind.isFinal then some (r.apply p).2 else entry.finished
      | _, _ => entry.finished

namespace Entry

variable {entry : Entry} {server : Address} {event : Session.Event} {x : Option Exchange} {p : Packet}

@[simp]
theorem next_forgotten : entry.next job (.forgotten server) =
    { entry with tracked := if server = job.server then none else entry.tracked } := by
  simp [next, Happening.creates, Happening.forgets, Happening.releases, Happening.report?]

@[simp]
theorem next_ended : entry.next job .ended = ⟨none, none⟩ := rfl

@[simp]
theorem next_collected {other : JobHandle} : entry.next job (.collected other) =
    { entry with finished := if other = job then none else entry.finished } := by
  simp [next, Happening.creates, Happening.forgets, Happening.releases, Happening.report?]

@[simp]
theorem next_drained {updates : List JobUpdate} : entry.next job (.drained updates) = entry := rfl

/-- A packet that creates no job and reports on another one changes nothing. -/
theorem next_packet (hcreates : (Happening.packet server event x).creates job = false)
    (hreport : (Happening.packet server event x).report? job = none) :
    entry.next job (.packet server event x) = entry := by
  simp [next, hcreates, hreport, Happening.forgets, Happening.releases]

theorem next_created (hcreates : (Happening.packet server event x).creates job = true)
    (hreport : (Happening.packet server event x).report? job = none) :
    entry.next job (.packet server event x) = { entry with tracked := some (.pending job.handle) } := by
  simp [next, hcreates, hreport, Happening.releases]

/-- A report is taken into account while its job is tracked, and a final one ends the tracking. -/
theorem next_report (hcreates : (Happening.packet server event x).creates job = false)
    (hreport : (Happening.packet server event x).report? job = some p) :
    entry.next job (.packet server event x) =
      match entry.tracked with
      | none => entry
      | some r =>
        if p.kind.isFinal then ⟨none, some (r.apply p).2⟩
        else { entry with tracked := some (r.apply p).2 } := by
  obtain ⟨tracked, finished⟩ := entry
  cases tracked with
  | none => simp [next, hcreates, hreport, Happening.forgets, Happening.releases]
  | some r =>
    cases hfinal : p.kind.isFinal <;>
      simp [next, hcreates, hreport, hfinal, Happening.forgets, Happening.releases]

theorem isSome_next : (entry.next job e).tracked.isSome =
    (e.creates job || (entry.tracked.isSome && !e.ends job)) := by
  simp only [next, Happening.ends, Happening.concludes]
  cases e.creates job with
  | true => simp
  | false =>
    cases e.forgets job.server with
    | true => simp
    | false =>
      cases e.report? job with
      | none => simp
      | some p => cases hfinal : p.kind.isFinal <;> simp [hfinal]

/-- Of a job that is not tracked a result is held until it is released. -/
theorem next_of_untracked (hnone : entry.tracked = none) (hcreates : e.creates job = false) :
    (entry.next job e).tracked = none ∧
      (entry.next job e).finished = if e.releases job then none else entry.finished := by
  simp only [next, hcreates, hnone, Option.map_none]
  cases e.forgets job.server <;> cases e.report? job <;> simp

/-- What is known of a job stays known unless the job ends or is forgotten. -/
theorem next_of_open (hopen : ∀ p ∈ e.report? job, p.kind.isFinal = false)
    (hforgets : e.forgets job.server = false) (hreleases : e.releases job = false) :
    (entry.next job e).finished = entry.finished ∧
      (entry.tracked.isSome = true → (entry.next job e).tracked.isSome = true) := by
  simp only [next, hforgets, hreleases, Bool.false_eq_true, if_false]
  cases hreport : e.report? job with
  | none => cases e.creates job <;> simp
  | some p =>
    have hfinal := hopen p hreport
    cases e.creates job <;> cases entry.tracked <;> simp [hfinal]

end Entry

/-- What a history makes of the entry of a job. -/
def replay (job : JobHandle) (log : History) : Entry :=
  log.foldl (Entry.next job) ⟨none, none⟩

theorem tracked_replay_iff {r : JobResult} : (replay job log).tracked = some r ↔
    ∃ reports, Followed log job reports ∧ r = .tally job.handle reports := by
  induction log using List.reverseRecOn generalizing r with
  | nil => simp [replay, Followed]
  | append_singleton log e ih =>
    have hstep : replay job (log ++ [e]) = (replay job log).next job e := by simp [replay]
    simp only [hstep, Entry.next, followed_concat]
    cases hcreates : e.creates job with
    | true =>
      simp only [if_true, true_and, Bool.true_eq_false, false_and, or_false, exists_eq_left,
        Option.some.injEq]
      exact eq_comm
    | false =>
      cases hforgets : e.forgets job.server with
      | true => simp
      | false =>
        cases hreport : e.report? job with
        | none => simpa using ih
        | some p =>
          cases hfinal : p.kind.isFinal with
          | true => simp [hfinal]
          | false =>
            have htally : ∀ before, JobResult.tally job.handle (before ++ [p]) =
                ((JobResult.tally job.handle before).apply p).2 := by
              simp [JobResult.tally]
            constructor
            · intro h
              obtain ⟨old, hold, rfl⟩ := Option.map_eq_some_iff.1 (by simpa [hfinal] using h)
              obtain ⟨before, hbefore, rfl⟩ := ih.1 hold
              exact ⟨before ++ [p], by simp [hfinal, hbefore], (htally before).symm⟩
            · rintro ⟨reports, hreports, rfl⟩
              obtain ⟨before, hbefore, rfl⟩ : ∃ before, Followed log job before ∧
                  reports = before ++ [p] := by simpa [hfinal] using hreports
              simp [hfinal, ih.2 ⟨before, hbefore, rfl⟩, htally]

theorem finished_replay_iff {r : JobResult} : (replay job log).finished = some r ↔
    ∃ reports, Completed log job reports ∧ r = .tally job.handle reports := by
  induction log using List.reverseRecOn generalizing r with
  | nil => simp [replay, Completed]
  | append_singleton log e ih =>
    have hstep : replay job (log ++ [e]) = (replay job log).next job e := by simp [replay]
    have hopen : (∀ p r, e.report? job = some p → p.kind.isFinal = true →
        (replay job log).tracked ≠ some r) → ∀ reports, ¬ Completes log e job reports := by
      rintro hnone reports ⟨before, p, hbefore, hreport, hfinal, -⟩
      exact hnone p _ hreport hfinal (tracked_replay_iff.2 ⟨before, hbefore, rfl⟩)
    simp only [hstep, Entry.next, completed_concat]
    cases hreleases : e.releases job with
    | true =>
      have hnone := hopen (by simp [Happening.report?_of_releases hreleases])
      simp [hnone]
    | false =>
      cases hreport : e.report? job with
      | none =>
        have hnone := hopen (by simp [hreport])
        simpa [hnone] using ih
      | some p =>
        cases htracked : (replay job log).tracked with
        | none =>
          have hnone := hopen (by simp [htracked])
          simpa [hnone] using ih
        | some old =>
          cases hfinal : p.kind.isFinal with
          | false =>
            have hnone := hopen fun q r hq hqfinal => by
              rw [hreport, Option.some.injEq] at hq
              rw [← hq, hfinal] at hqfinal
              contradiction
            simpa [hnone, hfinal] using ih
          | true =>
            obtain ⟨before, hbefore, rfl⟩ := tracked_replay_iff.1 htracked
            have hcompletes : Completes log e job (before ++ [p]) :=
              ⟨before, p, hbefore, hreport, hfinal, rfl⟩
            constructor
            · intro h
              refine ⟨before ++ [p], .inl hcompletes, ?_⟩
              simpa [hfinal, JobResult.tally, eq_comm] using h
            · rintro ⟨reports, ⟨before', q, hbefore', hreport', -, rfl⟩ | ⟨-, hnone, -⟩, rfl⟩
              · have hsame := tracked_replay_iff.2 ⟨before', hbefore', rfl⟩
                rw [htracked, Option.some.injEq] at hsame
                obtain rfl : p = q := by simpa [hreport] using hreport'
                simp [hfinal, JobResult.tally] at hsame ⊢
                rw [hsame]
              · exact absurd hcompletes (hnone _)

/-- The reports on a job up to its first final one, in a history that begins with the job. -/
def Concluded (since : History) (job : JobHandle) (reports : List Packet) : Prop :=
  ∃ before last after, since.filterMap (·.report? job) = before ++ last :: after ∧
    (∀ p ∈ before, p.kind.isFinal = false) ∧ last.kind.isFinal = true ∧ reports = before ++ [last]

theorem Concluded.cons {since : History} (h : Concluded since job reports)
    (hopen : ∀ p ∈ e.report? job, p.kind.isFinal = false) :
    Concluded (e :: since) job ((e.report? job).toList ++ reports) := by
  obtain ⟨before, last, after, hsince, hbefore, hlast, rfl⟩ := h
  refine ⟨(e.report? job).toList ++ before, last, after, ?_, ?_, hlast, by simp⟩
  · rw [List.filterMap_cons, hsince]
    cases e.report? job <;> simp
  · intro p hp
    rcases List.mem_append.1 hp with hp | hp
    · exact hopen p (by simpa using hp)
    · exact hbefore p hp

namespace Entry

/-- A result that is held when a job is not tracked was held before. -/
theorem finished_of_untracked {entry : Entry} {r : JobResult} (hnone : entry.tracked = none)
    (hlog : ∀ e ∈ log, e.creates job = false)
    (h : (log.foldl (next job) entry).finished = some r) : entry.finished = some r := by
  induction log generalizing entry with
  | nil => exact h
  | cons e rest ih =>
    obtain ⟨htracked, hheld⟩ := next_of_untracked hnone (hlog e List.mem_cons_self)
    have hfinished := ih htracked (fun e he => hlog e (List.mem_cons_of_mem _ he)) h
    rw [hheld] at hfinished
    split at hfinished
    · contradiction
    · exact hfinished

/-- A result that is held stays until it is released, if another one does not take its place. -/
theorem isSome_finished_foldl {entry : Entry} (hlog : ∀ e ∈ log, e.releases job = false)
    (h : entry.finished.isSome = true) : (log.foldl (next job) entry).finished.isSome = true := by
  induction log generalizing entry with
  | nil => exact h
  | cons e rest ih =>
    refine ih (fun e he => hlog e (List.mem_cons_of_mem _ he)) ?_
    simp only [next, hlog e List.mem_cons_self, Bool.false_eq_true, if_false]
    split
    · split
      · rfl
      · exact h
    · exact h

/-- A result that is held after a history in which the job was not created anew is the sum of the reports
up to the first final one. Or it was held before, and no such report came while the job was tracked. -/
theorem finished_foldl {entry : Entry} {r₀ r : JobResult} (htracked : entry.tracked = some r₀)
    (hlog : ∀ e ∈ log, e.creates job = false)
    (h : (log.foldl (next job) entry).finished = some r) :
    (∃ reports, Concluded log job reports ∧ r = reports.foldl (fun r p => (r.apply p).2) r₀) ∨
      entry.finished = some r ∧ ((∀ e ∈ log, e.forgets job.server = false) →
        ∀ e ∈ log, ∀ p ∈ e.report? job, p.kind.isFinal = false) := by
  induction log generalizing entry r₀ with
  | nil => exact .inr ⟨h, by simp⟩
  | cons e rest ih =>
    have hcreates := hlog e List.mem_cons_self
    have hrest : ∀ e ∈ rest, e.creates job = false := fun e he => hlog e (List.mem_cons_of_mem _ he)
    rw [List.foldl_cons] at h
    cases hreport : e.report? job with
    | none =>
      have hheld : (entry.next job e).finished = some r → entry.finished = some r := by
        simp only [next, hreport]
        split
        · simp
        · exact id
      cases hforgets : e.forgets job.server with
      | true =>
        have hnone : (entry.next job e).tracked = none := by simp [next, hcreates, hforgets]
        refine .inr ⟨hheld (finished_of_untracked hnone hrest h), fun hkept => ?_⟩
        rw [hkept e List.mem_cons_self] at hforgets
        contradiction
      | false =>
        have hsome : (entry.next job e).tracked = some r₀ := by
          simp [next, hcreates, hforgets, hreport, htracked]
        rcases ih hsome hrest h with ⟨reports, hconcluded, hr⟩ | ⟨hfinished, hopen⟩
        · exact .inl ⟨reports, by simpa [hreport] using hconcluded.cons (e := e) (by simp [hreport]), hr⟩
        · refine .inr ⟨hheld hfinished, fun hkept e' he' => ?_⟩
          rcases List.mem_cons.1 he' with rfl | he'
          · simp [hreport]
          · exact hopen (fun e he => hkept e (List.mem_cons_of_mem _ he)) e' he'
    | some p =>
      obtain ⟨hforgets, hreleases⟩ := Happening.kept_of_report? hreport
      cases hfinal : p.kind.isFinal with
      | true =>
        have hnone : (entry.next job e).tracked = none := by
          simp [next, hcreates, hforgets, hreport, hfinal]
        have hfinished := finished_of_untracked hnone hrest h
        simp only [next, hreleases, hreport, htracked, hfinal, Bool.false_eq_true, if_false, if_true,
          Option.some.injEq] at hfinished
        refine .inl ⟨[p], ⟨[], p, rest.filterMap (·.report? job), ?_, by simp, hfinal, rfl⟩,
          hfinished.symm⟩
        simp [hreport]
      | false =>
        have hsome : (entry.next job e).tracked = some (r₀.apply p).2 := by
          simp [next, hcreates, hforgets, hreport, htracked, hfinal]
        rcases ih hsome hrest h with ⟨reports, hconcluded, hr⟩ | ⟨hfinished, hopen⟩
        · refine .inl ⟨p :: reports, ?_, hr⟩
          simpa [hreport] using hconcluded.cons (e := e) (by simp [hreport, hfinal])
        · simp only [next, hreleases, hreport, htracked, hfinal, Bool.false_eq_true,
            if_false] at hfinished
          refine .inr ⟨hfinished, fun hkept e' he' => ?_⟩
          rcases List.mem_cons.1 he' with rfl | he'
          · simp [hreport, hfinal]
          · exact hopen (fun e he => hkept e (List.mem_cons_of_mem _ he)) e' he'

end Entry

end Client

end Gearman
