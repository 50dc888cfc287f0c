import Gearman.Proofs.Client.Execution
import Gearman.Proofs.Client.Growth
import Gearman.Proofs.Client.Pool.Retired

/-!
How a client takes its leave. It takes no new work, waits until no job is tracked any more, and closes its
sessions. What it answers is whether that came about before the deadline and while there was a session to
wait for.

A job is not tracked any more when its final report has come, but also when the session of its server is
lost. So the answer says that all jobs have ended only as long as no session is lost with a job that has not.
-/

namespace Gearman

namespace Client

variable {c c' c'' : Client} {server : Address} {job : JobHandle} {log since : History} {e : Happening}

/-- The job was tracked before all of `log`, or from some point of it, and `since` is what happened from
then on. -/
inductive TrackedSince (job : JobHandle) (tracked : Bool) (log : History) : History → Prop
  | before (h : tracked = true) : TrackedSince job tracked log log
  | created {past since : History} {e : Happening} (hlog : log = past ++ e :: since)
    (h : e.creates job = true) : TrackedSince job tracked log since

theorem TrackedSince.suffix {tracked : Bool} (h : TrackedSince job tracked log since) :
    since <:+ log := by
  cases h with
  | before => exact List.suffix_refl _
  | created hlog => exact ⟨_, by rw [hlog, ← List.append_cons]⟩

theorem trackedSince_cons {tracked : Bool} :
    TrackedSince job tracked (e :: log) since ↔
      tracked = true ∧ since = e :: log ∨ e.creates job = true ∧ since = log ∨
        TrackedSince job false log since := by
  constructor
  · rintro (h | ⟨hlog, h⟩)
    · exact .inl ⟨h, rfl⟩
    · rcases List.cons_eq_append_iff.1 hlog with ⟨rfl, heq⟩ | ⟨past, rfl, rfl⟩
      · cases heq
        exact .inr (.inl ⟨h, rfl⟩)
      · exact .inr (.inr (.created rfl h))
  · rintro (⟨h, rfl⟩ | ⟨h, rfl⟩ | h)
    · exact .before h
    · exact .created (List.nil_append _).symm h
    · cases h with
      | before h => contradiction
      | created hlog h => exact .created (by rw [hlog, List.cons_append]) h

/-- A job is left untracked if something has put an end to it each time since it was tracked. -/
theorem Entry.isSome_foldl (log : History) (entry : Entry) :
    (log.foldl (next job) entry).tracked.isSome = false ↔
      ∀ since, TrackedSince job entry.tracked.isSome log since → ∃ e ∈ since, e.ends job = true := by
  induction log generalizing entry with
  | nil =>
    constructor
    · rintro h since (htracked | ⟨hlog, -⟩)
      · rw [List.foldl_nil, htracked] at h
        contradiction
      · simp at hlog
    · intro h
      cases htracked : entry.tracked.isSome with
      | false => exact htracked
      | true => simpa using h [] (.before htracked)
  | cons e rest ih =>
    rw [List.foldl_cons, ih, isSome_next]
    constructor
    · intro h since hsince
      rcases trackedSince_cons.1 hsince with ⟨htracked, rfl⟩ | ⟨hcreates, rfl⟩ | hlater
      · cases hends : e.ends job with
        | true => exact ⟨e, List.mem_cons_self, hends⟩
        | false =>
          obtain ⟨e', he', hends'⟩ := h rest (.before (by simp [htracked, hends]))
          exact ⟨e', List.mem_cons_of_mem _ he', hends'⟩
      · exact h _ (.before (by simp [hcreates]))
      · cases hlater with
        | before h => contradiction
        | created hlog hcreates => exact h _ (.created hlog hcreates)
    · rintro h since (htracked | ⟨hlog, hcreates⟩)
      · rw [Bool.or_eq_true, Bool.and_eq_true, Bool.not_eq_true'] at htracked
        rcases htracked with hcreates | ⟨htracked, hends⟩
        · exact h _ (trackedSince_cons.2 (.inr (.inl ⟨hcreates, rfl⟩)))
        · obtain ⟨e', he', hends'⟩ := h _ (trackedSince_cons.2 (.inl ⟨htracked, rfl⟩))
          rcases List.mem_cons.1 he' with rfl | he'
          · rw [hends] at hends'
            contradiction
          · exact ⟨e', he', hends'⟩
      · exact h _ (trackedSince_cons.2 (.inr (.inr (.created hlog hcreates))))

/-- What happens while a client that is shut down waits for the end of its jobs. -/
def shutdownHistory (c : Client) (arrivals : List Arrival) : History :=
  idleHistory arrivals { c with state := .shuttingDown }

/-- The wait for the end of all jobs is over when no job is tracked, or when no session is left. -/
theorem endOfJobs_settled {r : Except Error Bool} (h : endOfJobs.settled c = some (r, c')) :
    c' = c ∧ r = .ok c.jobs.isEmpty := by
  simp only [endOfJobs] at h
  split at h
  · next hempty =>
    cases h
    exact ⟨rfl, by rw [hempty]⟩
  · next hbusy =>
    split at h
    · cases h
      exact ⟨rfl, by rw [Bool.not_eq_true _ |>.mp hbusy]⟩
    · contradiction

theorem outcome_endOfJobs (arrivals : List Arrival) (c : Client) (err : Error) :
    (endOfJobs.run arrivals c).outcome ≠ some (.error err) := by
  fun_induction Watch.run endOfJobs arrivals c with
  | case1 arrivals c r c' hsettled =>
    rw [(endOfJobs_settled hsettled).2]
    simp
  | case2 arrivals c hsettled e c' hfault => cases hfault
  | case3 arrivals c hsettled c' hdriven r c'' hanswer =>
    split at hanswer
    · contradiction
    · rw [(endOfJobs_settled hanswer).2]
      simp
  | case4 arrivals c hsettled c' hdriven hanswer hready ih => exact ih
  | case5 => simp
  | case6 c hsettled c' hdriven hanswer hready a rest ih => exact ih

/-- Who waits for the end of all jobs knows at the end whether a job is tracked. -/
theorem endOfJobs_run (arrivals : List Arrival) (c : Client) :
    Chain Drive c (idleHistory arrivals c) (endOfJobs.run arrivals c).client ∧
      ((endOfJobs.run arrivals c).outcome =
          some (.ok (endOfJobs.run arrivals c).client.jobs.isEmpty) ∨
        (endOfJobs.run arrivals c).outcome = none ∧
          (endOfJobs.run arrivals c).client.jobs.isEmpty = false) := by
  obtain ⟨c₁, hchain, ⟨r, hr, hsettled⟩ | ⟨⟨err, herr⟩, -⟩ | ⟨hnone, hsame, hwaits⟩⟩ :=
    Watch.chain_run (w := endOfJobs) (fun c => chain_pumpAll c c.liveServers) arrivals c
  · obtain ⟨hsame, rfl⟩ := endOfJobs_settled hsettled
    rw [hsame]
    exact ⟨hchain, .inl hr⟩
  · exact absurd herr (outcome_endOfJobs _ _ err)
  · rw [hsame]
    refine ⟨hchain, .inr ⟨hnone, ?_⟩⟩
    have hunsettled : endOfJobs.settled c₁ = none := hwaits.elim Option.isNone_iff_eq_none.1 id
    simp only [endOfJobs] at hunsettled
    split at hunsettled
    · contradiction
    · next hbusy => exact Bool.eq_false_iff.2 hbusy

/-- A client that runs is driven for a while when it is shut down, and its answer is whether no job is
tracked then. -/
theorem shutdown_eq (hrunning : c.state = .running) (arrivals : List Arrival) :
    ∃ c₁, Chain Drive { c with state := .shuttingDown } (c.shutdownHistory arrivals) c₁ ∧
      (c.shutdown arrivals).1 = c₁.jobs.isEmpty ∧ (c.shutdown arrivals).2.1 = c₁.shutdownNow := by
  obtain ⟨hchain, hend⟩ := endOfJobs_run arrivals { c with state := .shuttingDown }
  refine ⟨_, hchain, ?_⟩
  unfold shutdown
  rw [if_pos hrunning]
  generalize endOfJobs.run arrivals { c with state := .shuttingDown } = waited at hend
  obtain ⟨outcome, c₁, rest⟩ := waited
  rcases hend with houtcome | ⟨houtcome, hbusy⟩
  · obtain rfl : outcome = some (.ok c₁.jobs.isEmpty) := houtcome
    exact ⟨rfl, rfl⟩
  · obtain rfl : outcome = none := houtcome
    exact ⟨hbusy.symm, rfl⟩

/-- Graceful shutdown. Every job that was tracked when the client was shut down, or came to be tracked while
it waited, has ended or was forgotten along with its server if the answer is `true`, and one of them has
not if it is `false`. As long as no server is forgotten that still owes a final report, the answer says
whether all final reports have come. In any case the client has ended, and each of its sessions is
closed. -/
theorem shutdown_tells_ends (settings : ClientSettings) {past : History}
    (hc : Chain Step (withSettings settings) past c) (hrunning : c.state = .running)
    (arrivals : List Arrival) :
    (c.shutdown arrivals).2.1.state = .terminated ∧ Bare (c.shutdown arrivals).2.1 ∧
      (∃ closed, (c.shutdown arrivals).2.1.retired = c.retired ++ closed ∧
        (∀ s ∈ closed, s.isClosed = true) ∧
        ∀ server, c.IsLiveAt server → ∃ s ∈ closed, s.address = server) ∧
      ((c.shutdown arrivals).1 = true ↔
        ∀ job since, TrackedSince job (c.jobs.contains job) (c.shutdownHistory arrivals) since →
          ∃ e ∈ since, e.concludes job = true ∨ e.forgets job.server = true) ∧
      ((∀ job since, TrackedSince job (c.jobs.contains job) (c.shutdownHistory arrivals) since →
          ∀ before e after, since = before ++ e :: after → e.forgets job.server = true →
            ∃ e' ∈ before, e'.concludes job = true) →
        ((c.shutdown arrivals).1 = true ↔
          ∀ job since, TrackedSince job (c.jobs.contains job) (c.shutdownHistory arrivals) since →
            ∃ e ∈ since, e.concludes job = true)) := by
  have hsound : Sound { c with state := .shuttingDown } := (sound_of_chain hc).closing
  obtain ⟨c₁, hchain, hanswer, hclient⟩ := shutdown_eq hrunning arrivals
  have hsound₁ : Sound c₁ := hsound.chain (hchain.mono .drive)
  have hterminated := state_shutdownNow c₁
  have hbare := hsound₁.shutdownNow.bare hterminated
  rw [hclient]
  refine ⟨hterminated, hbare, ?_, ?_⟩
  · obtain ⟨closed, hclosed⟩ := hsound.closes_chain (hchain.mono .drive)
    obtain ⟨closed', hclosed'⟩ := closes_shutdownNow hsound₁
    have hall := hclosed.trans hclosed'
    refine ⟨_, hall.retired, hall.isClosed, fun server hlive => ?_⟩
    refine (hall.live server hlive).resolve_left ?_
    rintro ⟨s, hs, -⟩
    rw [hbare.sessions] at hs
    contradiction
  have hverdict : (c.shutdown arrivals).1 = true ↔
      ∀ job since, TrackedSince job (c.jobs.contains job) (c.shutdownHistory arrivals) since →
        ∃ e ∈ since, e.ends job = true := by
    rw [hanswer, Table.isEmpty_iff]
    refine forall_congr' fun job => ?_
    have hentry := entry_chain hsound (hchain.mono .drive) job
    have htracked : c₁.jobs.get? job = none ↔
        ((c.shutdownHistory arrivals).foldl (Entry.next job) (c.entry job)).tracked.isSome = false := by
      rw [Option.isSome_eq_false_iff, Option.isNone_iff_eq_none]
      exact iff_of_eq (congrArg (·.tracked = none) hentry)
    rw [htracked, Entry.isSome_foldl]
    rfl
  refine ⟨by simpa only [Happening.ends, Bool.or_eq_true] using hverdict, fun hkept => ?_⟩
  rw [hverdict]
  refine forall_congr' fun job => forall_congr' fun since => forall_congr' fun hsince => ?_
  constructor
  · rintro ⟨e, he, hends⟩
    rw [Happening.ends, Bool.or_eq_true] at hends
    rcases hends with hconcludes | hforgets
    · exact ⟨e, he, hconcludes⟩
    · obtain ⟨before, after, rfl⟩ := List.append_of_mem he
      obtain ⟨e', he', hconcludes⟩ := hkept job _ hsince before e after rfl hforgets
      exact ⟨e', List.mem_append_left _ he', hconcludes⟩
  · rintro ⟨e, he, hconcludes⟩
    exact ⟨e, he, by simp [Happening.ends, hconcludes]⟩

namespace Errand

/-- The final report on the job that `occupied` knows of. -/
def final : Arrival := ⟨.default, (complete [0x42] 0x6e).encode, .none⟩

/-- The end of the stream without it. -/
def hangUp : Arrival := ⟨.default, [], .close⟩

/-- The client that has begun to wait for the end of its jobs. -/
def leaving : Client := { occupied with state := .shuttingDown }

/-- What happens while the only live server is pumped. -/
theorem drive_endOfJobs {c c' : Client} {r : Except Error Unit} (hlive : c.liveServers = [server])
    (hpump : c.pump server = (r, c')) (hlog : c.pumpHistory server = log) :
    endOfJobs.drive c = (.ok (), c') ∧ c.pumpAllHistory c.liveServers = log := by
  constructor
  · simp only [endOfJobs, hlive, pumpAll, List.foldl_cons, List.foldl_nil, hpump]
  · simp only [hlive, pumpAllHistory, hlog, List.append_nil]

/-- What arrives first decides, if no job is tracked any more once it was read. -/
theorem shutdown_occupied {a : Arrival} {c₁ : Client} {r : Except Error Unit} {n : Nat}
    (hbusy : endOfJobs.settled (leaving.deliver a).1 = none)
    (hlive : (leaving.deliver a).1.liveServers = [.default])
    (hpump : rehearsePump n (leaving.deliver a).1 .default = some ((r, c₁), log))
    (hdone : c₁.jobs.isEmpty = true) :
    (occupied.shutdown [a]).1 = true ∧ occupied.shutdownHistory [a] = log := by
  have hidle : leaving.receive .default = (.ok none, leaving) := by cbv
  obtain ⟨hdrive, htold⟩ := drive_endOfJobs (by cbv) (pump_idle hidle) (pumpHistory_idle hidle)
  have hwaiting : endOfJobs.settled leaving = none := by cbv
  have hunready : endOfJobs.ready leaving = false := by cbv
  obtain ⟨hpumped, hlog⟩ := pump_of_rehearsal hpump
  obtain ⟨hdrive', htold'⟩ := drive_endOfJobs hlive hpumped hlog
  have hsettled : endOfJobs.settled c₁ = some (.ok true, c₁) := by simp [endOfJobs, hdone]
  have hwaits : endOfJobs.waits c₁ = false := by
    change (endOfJobs.settled c₁).isNone = false
    rw [hsettled]
    rfl
  constructor
  · have hrun : endOfJobs.run [a] leaving = ⟨some (.ok true), c₁, []⟩ := by
      rw [Watch.run_round hwaiting hdrive, hwaiting, ite_self, hunready]
      change endOfJobs.run [] _ = _
      rw [Watch.run_round hbusy hdrive', hwaits, if_neg Bool.false_ne_true, hsettled]
    have hrunning : occupied.state = .running := by cbv
    have hleaving : { occupied with state := .shuttingDown } = leaving := rfl
    simp only [shutdown, hrunning, if_true, hleaving, hrun]
  · change endOfJobs.history _ [a] leaving = log
    rw [Watch.history_round hwaiting hdrive, hwaiting, ite_self, hunready, htold]
    change endOfJobs.history _ [] _ = log
    rw [Watch.history_round hbusy hdrive', hwaits, if_neg Bool.false_ne_true, hsettled, htold',
      List.append_nil]

theorem shutdown_final : (occupied.shutdown [final]).1 = true ∧
    occupied.shutdownHistory [final] =
      [.packet .default (.unsolicited (complete [0x42] 0x6e)) none] := by
  have hpump : (rehearsePump 9 (leaving.deliver final).1 .default).map
      (fun r => (r.1.2.jobs.isEmpty, r.2)) =
        some (true, [.packet .default (.unsolicited (complete [0x42] 0x6e)) none]) := by
    cbv
  obtain ⟨⟨⟨r, c₁⟩, log⟩, hpump, heq⟩ := Option.map_eq_some_iff.1 hpump
  obtain ⟨hdone, rfl⟩ := Prod.mk.inj heq
  exact shutdown_occupied (by cbv) (by cbv) hpump hdone

theorem shutdown_hangUp : (occupied.shutdown [hangUp]).1 = true ∧
    occupied.shutdownHistory [hangUp] = [.forgotten .default] := by
  have hpump : (rehearsePump 9 (leaving.deliver hangUp).1 .default).map
      (fun r => (r.1.2.jobs.isEmpty, r.2)) = some (true, [.forgotten .default]) := by
    cbv
  obtain ⟨⟨⟨r, c₁⟩, log⟩, hpump, heq⟩ := Option.map_eq_some_iff.1 hpump
  obtain ⟨hdone, rfl⟩ := Prod.mk.inj heq
  exact shutdown_occupied (by cbv) (by cbv) hpump hdone

end Errand

open Errand

/-- A client whose only job ends while it is shut down says so. -/
theorem shutdown_tells_ends_complete : ∃ past,
    Chain Step (withSettings {}) past occupied ∧ occupied.state = .running ∧
    (occupied.shutdown [final]).1 = true ∧
    ∀ job since, TrackedSince job (occupied.jobs.contains job) (occupied.shutdownHistory [final])
      since → ∃ e ∈ since, e.concludes job = true := by
  obtain ⟨past, hpast⟩ := evolves_occupied
  obtain ⟨hanswer, hlog⟩ := shutdown_final
  have hrunning : occupied.state = .running := by cbv
  refine ⟨past, hpast, hrunning, hanswer, ?_⟩
  refine ((shutdown_tells_ends {} hpast hrunning [final]).2.2.2.2 ?_).1 hanswer
  rintro job since hsince before e after rfl hforgets
  have hmem : e ∈ occupied.shutdownHistory [final] := hsince.suffix.subset (by simp)
  rw [hlog, List.mem_singleton] at hmem
  rw [hmem] at hforgets
  contradiction

/-- A client whose only job is lost with the connection of its server while it is shut down says that it has
ended, though no final report has come. -/
theorem shutdown_forgets_lost_job : Evolves Step (withSettings {}) occupied ∧
    occupied.state = .running ∧ occupied.jobs.contains ⟨[0x42], .default⟩ = true ∧
    (occupied.shutdown [hangUp]).1 = true ∧
    TrackedSince ⟨[0x42], .default⟩ (occupied.jobs.contains ⟨[0x42], .default⟩)
      (occupied.shutdownHistory [hangUp]) (occupied.shutdownHistory [hangUp]) ∧
    ¬ ∃ e ∈ occupied.shutdownHistory [hangUp], e.concludes ⟨[0x42], .default⟩ = true := by
  obtain ⟨hanswer, hlog⟩ := shutdown_hangUp
  have htracked : occupied.jobs.contains ⟨[0x42], .default⟩ = true := by cbv
  refine ⟨evolves_occupied, by cbv, htracked, hanswer, .before htracked, ?_⟩
  rw [hlog]
  simp [Happening.concludes, Happening.report?]

end Client

end Gearman
