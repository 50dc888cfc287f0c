import Gearman.Proofs.Client.Evolution
import Gearman.Proofs.Client.Ledger
import Gearman.Proofs.Client.Pool.Step

/-!
The results of a client are what its history tells about its jobs.
-/

namespace Gearman

/-- Only an attached submission waits for the handle of a job. -/
theorem Exchange.kind_of_isAttached {x : Exchange} {k request : Kind} (hx : x.isAttached = true)
    (hfits : x.fits request = true) (hk : k.answers request = true) : k = .jobCreated := by
  cases x with
  | submission background handle =>
    have hsubmission : request.isSubmission = true := by
      simp only [fits, Bool.and_eq_true] at hfits
      exact hfits.1
    simpa [Kind.answers, hsubmission] using hk
  | status answer => contradiction
  | echo data => contradiction

namespace Client

variable {c c' : Client} {server : Address} {job : JobHandle}

/-- What the client knows of a job. -/
def entry (c : Client) (job : JobHandle) : Entry := ⟨c.jobs.get? job, c.finished.get? job⟩

theorem entry_lost (hlost : Lost server c c') :
    c'.entry job = (c.entry job).next job (.forgotten server) := by
  simp only [entry, Entry.next_forgotten, hlost.finished, hlost.jobs, Table.get?_filter]
  by_cases heq : server = job.server
  · simp [heq]
  · cases c.jobs.get? job <;> simp [heq, Ne.symm heq]

theorem entry_shutdownNow (h : Sound c) :
    c.shutdownNow.entry job = (c.entry job).next job .ended := by
  have hbare : Bare c.shutdownNow := by
    by_cases hstate : c.state = .terminated
    · rw [shutdownNow_terminated hstate]
      exact h.bare hstate
    · exact bare_shutdownNow hstate
  simp [entry, hbare.jobs, hbare.finished]

/-- The request that a reply answers is one that its server had to answer. -/
theorem Sound.waiting_of_reply (h : Sound c) {id : TaskId} {p : Packet}
    (hr : c.receive server = (.ok (some (.reply id p)), c')) :
    ∃ kind, p.isResponse = true ∧ p.kind.answers kind = true ∧
      ∀ pending, c'.tasks.get? id = some pending → ∃ x, Waiting pending kind x := by
  obtain ⟨s, s', hs, hstep, rfl⟩ := receive_some hr
  obtain ⟨a, hawaiting, rfl, hreply⟩ := Session.awaiting_of_step_reply hstep
  rw [Session.isReply, Bool.and_eq_true] at hreply
  refine ⟨a.kind, hreply.1, hreply.2, fun pending hpending => ?_⟩
  have hmem : a ∈ c.queue server := by
    rw [queue_of_get? hs, hawaiting]
    exact List.mem_cons_self
  exact (h.queue_task server a hmem pending hpending).2

theorem entry_receive {event : Option Session.Event} (h : c.receive server = (.ok event, c')) :
    c'.entry job = c.entry job := by
  obtain ⟨sessions, rfl⟩ := receive_keeps h
  rfl

/-- A reply is no report on any job. It starts to track the one job that it creates, if any, and changes no
other. -/
theorem Sound.reply_cases (h : Sound c) {id : TaskId} {p : Packet}
    (hr : c.receive server = (.ok (some (.reply id p)), c')) :
    (∀ job, (Happening.packet server (.reply id p) (c'.exchange? id)).report? job = none) ∧
      ((∀ job, (Happening.packet server (.reply id p) (c'.exchange? id)).creates job = false) ∧
          (∃ tasks, (c'.handleReply server id p).2 = { c' with tasks }) ∨
        (∀ job, (Happening.packet server (.reply id p) (c'.exchange? id)).creates job =
            decide (⟨p.payload, server⟩ = job)) ∧
          ∃ tasks, (c'.handleReply server id p).2 =
            { c' with tasks }.track ⟨p.payload, server⟩ p) := by
  obtain ⟨kind, hresponse, hanswers, hwaiting⟩ := h.waiting_of_reply hr
  have hreport : ∀ job x, (Happening.packet server (.reply id p) x).report? job = none := by
    simp [Happening.report?, Session.Event.packet, Packet.isReport,
      Kind.isUpdate_of_answers hanswers]
  refine ⟨fun job => hreport job _, ?_⟩
  cases hpending : c'.tasks.get? id with
  | none =>
    have hexchange : c'.exchange? id = none := by simp [exchange?, hpending]
    rw [hexchange, handleReply_none hpending]
    exact .inl ⟨fun _ => rfl, c'.tasks, rfl⟩
  | some pending =>
    obtain ⟨x, hx⟩ := hwaiting pending hpending
    have hexchange : c'.exchange? id = some x := by simp [exchange?, hpending, hx.responder]
    obtain ⟨tasks, -, -, heq⟩ := handleReply_eq server hpending hx hresponse
    rw [heq, hexchange]
    cases hattached : x.isAttached with
    | false => exact .inl ⟨by simp [Happening.creates, hattached], tasks, rfl⟩
    | true =>
      have hkind := Exchange.kind_of_isAttached hattached hx.fits hanswers
      refine .inr ⟨fun job => ?_, tasks, rfl⟩
      obtain ⟨handle, other⟩ := job
      simp [Happening.creates, hkind, hattached, and_comm]

theorem entry_reply (h : Sound c) {id : TaskId} {p : Packet}
    (hr : c.receive server = (.ok (some (.reply id p)), c')) :
    (c'.handleReply server id p).2.entry job =
      (c'.entry job).next job (.packet server (.reply id p) (c'.exchange? id)) := by
  obtain ⟨hreport, ⟨hcreates, tasks, heq⟩ | ⟨hcreates, tasks, heq⟩⟩ := h.reply_cases hr
  · rw [heq, Entry.next_packet (hcreates job) (hreport job)]
    rfl
  · rw [heq]
    by_cases hjob : (⟨p.payload, server⟩ : JobHandle) = job
    · subst hjob
      rw [Entry.next_created (by simp [hcreates]) (hreport _)]
      simp [entry, track, note]
    · rw [Entry.next_packet (by simp [hcreates, hjob]) (hreport job)]
      simp [entry, track, note, hjob]

theorem entry_handleUpdate {p : Packet} (hp : p.isReport = true) :
    (c.handleUpdate server p).2.entry job =
      (c.entry job).next job (.packet server (.unsolicited p) none) := by
  have hreport : (Happening.packet server (.unsolicited p) none).report? job =
      if subject server p = job then some p else none := by
    obtain ⟨handle, other⟩ := job
    simp [Happening.report?, Session.Event.packet, hp, subject, and_comm]
  by_cases heq : subject server p = job
  · rw [if_pos heq] at hreport
    rw [Entry.next_report rfl hreport]
    subst heq
    cases hr : c.jobs.get? (subject server p) with
    | none => simp [handleUpdate_none hr, entry, hr]
    | some r =>
      cases hfinal : p.kind.isFinal with
      | true => simp [handleUpdate_final hr hfinal, entry, hr]
      | false => simp [handleUpdate_open hr hfinal, entry, hr]
  · rw [if_neg heq] at hreport
    rw [Entry.next_packet rfl hreport]
    cases hr : c.jobs.get? (subject server p) with
    | none => rw [handleUpdate_none hr]
    | some r =>
      cases hfinal : p.kind.isFinal with
      | true => simp [handleUpdate_final hr hfinal, entry, heq]
      | false => simp [handleUpdate_open hr hfinal, entry, heq]

theorem entry_drive {log : History} (h : Sound c) (hstep : Drive c log c') (job : JobHandle) :
    c'.entry job = log.foldl (Entry.next job) (c.entry job) := by
  cases hstep with
  | arrival a =>
    obtain ⟨sessions, heq⟩ := deliver_keeps c a
    rw [heq]
    rfl
  | idle hr => exact entry_receive hr
  | failed hr => exact entry_lost (lost_of_receive hr)
  | reply hr =>
    rw [← entry_receive hr]
    exact entry_reply h hr
  | report hr hp =>
    rw [← entry_receive hr]
    exact entry_handleUpdate hp
  | @expelled c₁ server p hr hp =>
    have hreport : (Happening.packet server (.unsolicited p) none).report? job = none := by
      simp [Happening.report?, Session.Event.packet, hp]
    rw [← entry_receive hr, List.foldl_cons, Entry.next_packet rfl hreport]
    exact entry_lost (lost_discard c₁ server)
  | deserted => exact entry_shutdownNow h

/-- A step makes of what is known of a job what its happenings tell. -/
theorem entry_step {log : History} (h : Sound c) (hstep : Step c log c') (job : JobHandle) :
    c'.entry job = log.foldl (Entry.next job) (c.entry job) := by
  cases hstep with
  | drive hdrive => exact entry_drive h hdrive job
  | added server =>
    obtain ⟨sessions, heq⟩ := addServer_keeps c server
    rw [heq]
    rfl
  | removed => exact entry_lost (lost_discard _ _)
  | opened env server =>
    obtain ⟨sessions, heq⟩ := session_keeps c env server
    rw [heq]
    rfl
  | asked hs hx htask hask =>
    obtain ⟨-, s', -, -, -, rfl⟩ := ask_ok hask (new_ok htask).2.2.2
    rfl
  | refused hs htask hask he =>
    rw [ask_refused hask (new_ok htask).2.2.2 he]
    rfl
  | severed hs htask hask he => exact entry_lost (ask_severed hs hask he)
  | released id => rfl
  | detached hopen =>
    unfold detach
    split <;> rfl
  | @collected collected r hr =>
    simp [takeResult, hr, releaseUpdates, entry, Table.get?_erase]
  | drained => rfl
  | closing => rfl
  | ended => exact entry_shutdownNow h

/-- A chain of steps makes of what is known of a job what its history tells. -/
theorem entry_chain {log : History} (h : Sound c) (hchain : Chain Step c log c') (job : JobHandle) :
    c'.entry job = log.foldl (Entry.next job) (c.entry job) := by
  induction hchain with
  | refl => rfl
  | tail hlog hstep ih =>
    have hc := hlog.invariant (fun hstep hc => Sound.step hc hstep) h
    rw [entry_step hc hstep, ih, List.foldl_append]

theorem entry_eq_replay {settings : ClientSettings} {log : History}
    (h : Chain Step (withSettings settings) log c) (job : JobHandle) :
    c.entry job = replay job log :=
  entry_chain (sound_withSettings settings) h job

/-- The handle of a background job is no reason to track it. -/
theorem jobs_of_background {id : TaskId} {p : Packet} {handle : Option Bytes} (h : Sound c)
    (hstep : Step c [.packet server (.reply id p) (some (.submission true handle))] c') :
    c'.jobs = c.jobs := by
  generalize hlog : [Happening.packet server (.reply id p) (some (.submission true handle))] = log
    at hstep
  cases hstep with
  | drive hdrive =>
    cases hdrive with
    | reply hr =>
      obtain ⟨rfl, ⟨rfl, rfl⟩, hexchange⟩ := by simpa using hlog
      obtain ⟨kind, hresponse, -, hwaiting⟩ := h.waiting_of_reply hr
      obtain ⟨sessions, rfl⟩ := receive_keeps hr
      obtain ⟨pending, hpending, hresponder⟩ := Option.bind_eq_some_iff.1 hexchange.symm
      obtain ⟨x, hx⟩ := hwaiting pending hpending
      obtain ⟨tasks, -, -, heq⟩ := handleReply_eq server hpending hx hresponse
      rw [hx.responder, Option.some.injEq] at hresponder
      rw [heq, hresponder]
      rfl
    | _ => simp at hlog
  | _ => simp at hlog

/-- Job routing: what is held of a job is the sum of the reports on it, as the history of the client
tells them, and it is held for as long as the history says. -/
theorem jobs_eq_tally (settings : ClientSettings) :
    (∀ operations,
      Evolves Step (withSettings settings) ((withSettings settings).performAll operations)) ∧
    ∀ log c, Chain Step (withSettings settings) log c →
      (∀ job r, c.jobs.get? job = some r ↔
        ∃ reports, Followed log job reports ∧ r = .tally job.handle reports) ∧
      (∀ job r, c.finished.get? job = some r ↔
        ∃ reports, Completed log job reports ∧ r = .tally job.handle reports) ∧
      ∀ server id p handle c',
        Step c [.packet server (.reply id p) (some (.submission true handle))] c' →
          c'.jobs = c.jobs := by
  refine ⟨evolves_performAll _, fun log c h => ⟨fun job r => ?_, fun job r => ?_, ?_⟩⟩
  · rw [← tracked_replay_iff, ← entry_eq_replay h]
    rfl
  · rw [← finished_replay_iff, ← entry_eq_replay h]
    rfl
  · intro server id p handle c' hstep
    have hsound := h.invariant (fun hstep hc => hc.step hstep) (sound_withSettings settings)
    exact jobs_of_background hsound hstep

end Client

end Gearman
