import Gearman.Proofs.Client.Execution
import Gearman.Proofs.Client.Order

/-!
News of jobs: the packets that create a job that the client tracks, or bring something new about it. Each one
waits for the client to be drained. It is returned then, unless the result of its job was collected before,
or the session of its server was lost.

A history tells which packets are news, and what became of them.
-/

namespace Gearman.Client

namespace Happening

/-- The packet that was handled, with the job that it would be about. -/
def update? : Happening → Option JobUpdate
  | .packet server (.reply _ p) _ => some ⟨⟨p.payload, server⟩, p⟩
  | .packet server (.unsolicited p) _ => some ⟨subject server p, p⟩
  | _ => none

/-- The news that a happening brings, if these jobs are tracked. -/
def news (tracked : JobHandle → Bool) (e : Happening) : List JobUpdate :=
  (e.update?.filter fun u =>
    e.creates u.job || tracked u.job && (e.report? u.job).any (·.isReadable)).toList

/-- Whether a job is tracked behind a happening. -/
def tracking (tracked : JobHandle → Bool) (e : Happening) (job : JobHandle) : Bool :=
  e.creates job || tracked job && !e.ends job

/-- The updates that were handed to the caller. -/
def returned : Happening → List JobUpdate
  | .drained updates => updates
  | _ => []

/-- Whether an update about this job goes on waiting. -/
def keeps (e : Happening) (job : JobHandle) : Bool := !e.forgets job.server && !e.releases job

theorem keeps_of_creates {e : Happening} {job : JobHandle} (h : e.creates job = true) :
    e.keeps job = true := by
  cases e with
  | packet => rfl
  | _ => contradiction

end Happening

/-- Which jobs are tracked after some happenings. -/
def trackedAfter (tracked : JobHandle → Bool) (log : History) : JobHandle → Bool :=
  log.foldl Happening.tracking tracked

/-- The news in a history that begins with these jobs tracked, oldest first. -/
def newsFrom (tracked : JobHandle → Bool) : History → List JobUpdate
  | [] => []
  | e :: rest => e.news tracked ++ newsFrom (e.tracking tracked) rest

/-- The updates that were handed to the caller, oldest first. -/
def returned (log : History) : List JobUpdate := log.flatMap Happening.returned

variable {c c' : Client} {server : Address} {job : JobHandle} {log log' since : History}
  {tracked : JobHandle → Bool}

theorem returned_append : returned (log ++ log') = returned log ++ returned log' :=
  List.flatMap_append

/-- The updates that wait to be drained, and those that were. -/
structure Inbox where
  tracked : JobHandle → Bool
  pending : List JobUpdate
  returned : List JobUpdate

namespace Inbox

/-- What a happening makes of the updates. -/
def next (inbox : Inbox) (e : Happening) : Inbox where
  tracked := e.tracking inbox.tracked
  pending :=
    match e with
    | .drained _ => []
    | _ => (inbox.pending ++ e.news inbox.tracked).filter (e.keeps ·.job)
  returned :=
    match e with
    | .drained _ => inbox.returned ++ inbox.pending
    | _ => inbox.returned

/-- All that is known of the updates, in order. -/
def all (inbox : Inbox) : List JobUpdate := inbox.returned ++ inbox.pending

variable {inbox : Inbox} {e : Happening}

theorem news_drained {updates : List JobUpdate} :
    (Happening.drained updates).news tracked = [] := rfl

theorem all_next_sublist : (inbox.next e).all.Sublist (inbox.all ++ e.news inbox.tracked) := by
  cases e with
  | drained updates => simp [next, all, news_drained]
  | _ =>
    simp only [next, all, List.append_assoc]
    exact List.filter_sublist.append_left _

theorem filter_all_next (hkeeps : e.keeps job = true) :
    (inbox.next e).all.filter (·.job = job) =
      (inbox.all ++ e.news inbox.tracked).filter (·.job = job) := by
  have hkept : ∀ updates : List JobUpdate,
      (updates.filter (e.keeps ·.job)).filter (·.job = job) = updates.filter (·.job = job) := by
    intro updates
    rw [List.filter_filter]
    refine List.filter_congr fun u _ => ?_
    by_cases hjob : u.job = job
    · simp [hjob, hkeeps]
    · simp [hjob]
  cases e with
  | drained updates => simp [next, all, news_drained]
  | _ => simp only [next, all, List.append_assoc, List.filter_append, hkept]

/-- No update is returned twice or out of order. -/
theorem all_foldl_sublist (inbox : Inbox) (log : History) :
    (log.foldl next inbox).all.Sublist (inbox.all ++ newsFrom inbox.tracked log) := by
  induction log generalizing inbox with
  | nil => simp [newsFrom]
  | cons e rest ih =>
    rw [List.foldl_cons, newsFrom, ← List.append_assoc]
    exact (ih _).trans (all_next_sublist.append_right _)

/-- The news of a job wait until they are returned, as long as nothing puts an end to that. -/
theorem filter_all_foldl (inbox : Inbox) (hkeeps : ∀ e ∈ log, e.keeps job = true) :
    (log.foldl next inbox).all.filter (·.job = job) =
      (inbox.all ++ newsFrom inbox.tracked log).filter (·.job = job) := by
  induction log generalizing inbox with
  | nil => simp [newsFrom]
  | cons e rest ih =>
    rw [List.foldl_cons, ih _ fun e he => hkeeps e (List.mem_cons_of_mem _ he), newsFrom,
      ← List.append_assoc, List.filter_append, filter_all_next (hkeeps e List.mem_cons_self),
      ← List.filter_append]
    rfl

theorem tracked_foldl (inbox : Inbox) (log : History) :
    (log.foldl next inbox).tracked = trackedAfter inbox.tracked log := by
  induction log generalizing inbox with
  | nil => rfl
  | cons e rest ih => exact ih _

end Inbox

/-- The updates of a client that has handed out `past`. -/
def inbox (c : Client) (past : List JobUpdate) : Inbox := ⟨c.jobs.contains, c.updates, past⟩

theorem tracked_step (h : Sound c) (hstep : Step c log c') (job : JobHandle) :
    c'.jobs.contains job = trackedAfter c.jobs.contains log job := by
  have hfold : ∀ (log : History) (entry : Entry) (tracked : JobHandle → Bool),
      tracked job = entry.tracked.isSome →
        (log.foldl (Entry.next job) entry).tracked.isSome = trackedAfter tracked log job := by
    intro log
    induction log with
    | nil => exact fun entry tracked heq => heq.symm
    | cons e rest ih =>
      intro entry tracked heq
      refine ih _ _ ?_
      rw [Entry.isSome_next, Happening.tracking, heq]
  exact (congrArg (·.tracked.isSome) (entry_step h hstep job)).trans (hfold log (c.entry job) c.jobs.contains rfl)

theorem updates_lost (hlost : Lost server c c') :
    c'.updates = c.updates.filter ((Happening.forgotten server).keeps ·.job) := by
  rw [hlost.updates]
  refine List.filter_congr fun u _ => ?_
  simp [Happening.keeps, Happening.forgets, Happening.releases, eq_comm]

theorem updates_shutdownNow (h : Sound c) : c.shutdownNow.updates = [] :=
  (h.shutdownNow.bare (state_shutdownNow c)).updates

theorem isReadable_of_isReport {p : Packet} (hp : p.isReport = true) (r : JobResult) :
    p.isReadable = (r.apply p).1.isOk := by
  have hkind : p.kind ≠ .statusRes := by
    intro hkind
    simp [Packet.isReport, hkind, Kind.isUpdate, Kind.isFinal] at hp
  rw [Packet.isReadable, if_neg hkind, if_pos hp, JobResult.outcome_of_apply _ r]

theorem updates_reply (h : Sound c) {id : TaskId} {p : Packet}
    (hr : c.receive server = (.ok (some (.reply id p)), c')) (tracked : JobHandle → Bool) :
    (c'.handleReply server id p).2.updates = c'.updates ++
      (Happening.packet server (.reply id p) (c'.exchange? id)).news tracked := by
  obtain ⟨hreport, ⟨hcreates, tasks, heq⟩ | ⟨hcreates, tasks, heq⟩⟩ := h.reply_cases hr
  · simp [heq, Happening.news, Happening.update?, hcreates, hreport]
  · simp [heq, Happening.news, Happening.update?, hcreates, hreport, track, note, Option.filter]

theorem updates_handleUpdate {p : Packet} (hp : p.isReport = true) :
    (c.handleUpdate server p).2.updates = c.updates ++
      (Happening.packet server (.unsolicited p) none).news c.jobs.contains := by
  have hnews : (Happening.packet server (.unsolicited p) none).news c.jobs.contains =
      if c.jobs.contains (subject server p) && p.isReadable then [⟨subject server p, p⟩] else [] := by
    have hreport : (Happening.packet server (.unsolicited p) none).report? (subject server p) =
        some p := by
      simp [Happening.report?, Session.Event.packet, hp, subject]
    simp only [Happening.news, Happening.update?, Happening.creates, hreport, Bool.false_or,
      Option.any_some, Option.filter]
    split <;> simp_all
  rw [hnews]
  cases hr : c.jobs.get? (subject server p) with
  | none => simp [handleUpdate_none hr, Table.contains, hr]
  | some r =>
    rw [isReadable_of_isReport hp r]
    cases hfinal : p.kind.isFinal with
    | true =>
      simp [handleUpdate_final hr hfinal, Table.contains, hr, r.apply_final hfinal, Except.isOk,
        Except.toBool]
    | false => simp [handleUpdate_open hr hfinal, Table.contains, hr]

theorem updates_receive {event : Option Session.Event} (h : c.receive server = (.ok event, c')) :
    c'.updates = c.updates := by
  obtain ⟨sessions, rfl⟩ := receive_keeps h
  rfl

/-- A packet changes nothing but what is pending. -/
theorem Inbox.next_packet {inbox : Inbox} {event : Session.Event} {x : Option Exchange} :
    (inbox.next (.packet server event x)).pending =
      inbox.pending ++ (Happening.packet server event x).news inbox.tracked :=
  List.filter_eq_self.2 fun _ _ => rfl

theorem Inbox.next_forgotten {inbox : Inbox} :
    (inbox.next (.forgotten server)).pending =
      inbox.pending.filter ((Happening.forgotten server).keeps ·.job) := by
  simp [next, Happening.news, Happening.update?]

theorem Inbox.next_ended {inbox : Inbox} : (inbox.next .ended).pending = [] := by
  simp [next, Happening.keeps, Happening.forgets]

theorem pending_drive (h : Sound c) (hstep : Drive c log c') (past : List JobUpdate) :
    (log.foldl Inbox.next (c.inbox past)).pending = c'.updates := by
  cases hstep with
  | arrival a =>
    obtain ⟨sessions, heq⟩ := deliver_keeps c a
    rw [heq]
    rfl
  | idle hr =>
    rw [updates_receive hr]
    rfl
  | failed hr =>
    rw [updates_lost (lost_of_receive hr)]
    exact Inbox.next_forgotten
  | @reply c₁ server id p hr =>
    rw [updates_reply h hr c.jobs.contains, updates_receive hr]
    exact Inbox.next_packet
  | @report c₁ server p hr hp =>
    obtain ⟨sessions, rfl⟩ := receive_keeps hr
    rw [updates_handleUpdate hp]
    exact Inbox.next_packet
  | @expelled c₁ server p hr hp =>
    have hnone : (Happening.packet server (.unsolicited p) none).news c.jobs.contains = [] := by
      simp [Happening.news, Happening.update?, Happening.creates, Happening.report?,
        Session.Event.packet, hp]
    rw [updates_lost (lost_discard c₁ server), updates_receive hr, List.foldl_cons, List.foldl_cons,
      List.foldl_nil, Inbox.next_forgotten, Inbox.next_packet]
    simp only [inbox, hnone, List.append_nil]
  | deserted =>
    rw [updates_shutdownNow h]
    exact Inbox.next_ended

theorem pending_step (h : Sound c) (hstep : Step c log c') (past : List JobUpdate) :
    (log.foldl Inbox.next (c.inbox past)).pending = c'.updates := by
  cases hstep with
  | drive hdrive => exact pending_drive h hdrive past
  | added server =>
    obtain ⟨sessions, heq⟩ := addServer_keeps c server
    rw [heq]
    rfl
  | removed =>
    rw [updates_lost (lost_discard _ _)]
    exact Inbox.next_forgotten
  | opened env server =>
    obtain ⟨sessions, heq⟩ := session_keeps c env server
    rw [heq]
    rfl
  | asked hs hx htask hask =>
    obtain ⟨-, s', -, -, -, rfl⟩ := ask_ok hask (new_ok htask).2.2.2
    rfl
  | refused hs htask hask he =>
    rw [ask_refused hask (new_ok htask).2.2.2 he]
    rfl
  | severed hs htask hask he =>
    rw [updates_lost (ask_severed hs hask he)]
    exact Inbox.next_forgotten
  | released id => rfl
  | detached hopen =>
    unfold detach
    split <;> rfl
  | @collected job r hr =>
    simp [takeResult, hr, releaseUpdates, Inbox.next, inbox, Happening.news, Happening.update?,
      Happening.keeps, Happening.forgets, Happening.releases, eq_comm]
  | drained => rfl
  | closing => rfl
  | ended =>
    rw [updates_shutdownNow h]
    exact Inbox.next_ended

theorem returned_drive (h : Drive c log c') : returned log = [] := by
  cases h <;> rfl

/-- Only a client that is drained hands out updates, and then all that it has. -/
theorem returned_step (hstep : Step c log c') (past : List JobUpdate) :
    (log.foldl Inbox.next (c.inbox past)).returned = past ++ returned log := by
  cases hstep with
  | drive hdrive =>
    rw [returned_drive hdrive, List.append_nil]
    cases hdrive <;> rfl
  | drained => simp [Inbox.next, inbox, returned, Happening.returned]
  | _ => exact (List.append_nil past).symm

theorem inbox_step (h : Sound c) (hstep : Step c log c') (past : List JobUpdate) :
    log.foldl Inbox.next (c.inbox past) = c'.inbox (past ++ returned log) := by
  have htracked : (log.foldl Inbox.next (c.inbox past)).tracked = c'.jobs.contains := by
    rw [Inbox.tracked_foldl]
    exact funext fun job => (tracked_step h hstep job).symm
  simp only [inbox, ← pending_step h hstep past, ← returned_step hstep past, ← htracked]

theorem inbox_chain (h : Sound c) (hchain : Chain Step c log c') (past : List JobUpdate) :
    log.foldl Inbox.next (c.inbox past) = c'.inbox (past ++ returned log) := by
  induction hchain with
  | refl => rw [returned, List.flatMap_nil, List.append_nil, List.foldl_nil]
  | tail hlog hstep ih =>
    rw [List.foldl_append, ih, inbox_step (h.chain hlog) hstep, List.append_assoc, returned_append]

theorem returned_of_drives (h : Chain Drive c log c') : returned log = [] := by
  induction h with
  | refl => rfl
  | tail _ hstep ih => rw [returned_append, ih, returned_drive hstep, List.append_nil]

/-- Who drains a client is handed what waits once all that has arrived was read. -/
theorem drainUpdates_eq (c : Client) : Chain Step c c.drainHistory c.drainUpdates.2 ∧
    c.drainUpdates.1 = (returned c.drainHistory).map (·.packet) := by
  unfold drainUpdates drainHistory
  split
  · exact ⟨.refl c, rfl⟩
  · refine ⟨((chain_pumpAll c c.liveServers).mono .drive).tail (.drained _), ?_⟩
    rw [returned_append, returned_of_drives (chain_pumpAll c c.liveServers)]
    simp [returned, Happening.returned]

/-- A job that is tracked in the end, and was not created anew, was not lost on the way. -/
theorem ends_of_trackedAfter (hsince : ∀ e ∈ since, e.creates job = false)
    (h : trackedAfter tracked since job = true) :
    tracked job = true ∧ ∀ e ∈ since, e.ends job = false := by
  induction since generalizing tracked with
  | nil => exact ⟨h, by simp⟩
  | cons e rest ih =>
    obtain ⟨htracked, hrest⟩ := ih (fun e he => hsince e (List.mem_cons_of_mem _ he)) h
    rw [Happening.tracking, hsince e List.mem_cons_self, Bool.false_or, Bool.and_eq_true,
      Bool.not_eq_true'] at htracked
    exact ⟨htracked.1, List.forall_mem_cons.2 ⟨htracked.2, hrest⟩⟩

/-- A job that is tracked or whose result is held stays so until it is lost or its result is collected. -/
theorem Entry.held_foldl (entry : Entry) (hkeeps : ∀ e ∈ log, e.keeps job = true)
    (h : entry.tracked.isSome = true ∨ entry.finished.isSome = true) :
    (log.foldl (Entry.next job) entry).tracked.isSome = true ∨
      (log.foldl (Entry.next job) entry).finished.isSome = true := by
  induction log generalizing entry with
  | nil => exact h
  | cons e rest ih =>
    refine ih _ (fun e he => hkeeps e (List.mem_cons_of_mem _ he)) ?_
    have hkept := hkeeps e List.mem_cons_self
    simp only [Happening.keeps, Bool.and_eq_true, Bool.not_eq_true'] at hkept
    simp only [next, hkept.1, hkept.2, Bool.false_eq_true, if_false]
    cases hreport : e.report? job with
    | none => cases e.creates job <;> simp [h]
    | some p =>
      cases hcreates : e.creates job <;> cases hfinal : p.kind.isFinal <;>
        cases htracked : entry.tracked <;> simp_all

/-- No job is tracked. -/
def untracked : JobHandle → Bool := fun _ => false

theorem inbox_withSettings {settings : ClientSettings}
    (h : Chain Step (withSettings settings) log c) :
    log.foldl Inbox.next ⟨untracked, [], []⟩ = c.inbox (returned log) :=
  inbox_chain (sound_withSettings settings) h []

/-- The job that a happening creates is held until it is lost or its result is collected. -/
theorem held_of_created {settings : ClientSettings} {before : History} {created : Happening}
    (h : Chain Step (withSettings settings) (before ++ created :: since) c)
    (hcreated : created.creates job = true) (hkeeps : ∀ e ∈ since, e.keeps job = true) :
    c.jobs.contains job = true ∨ c.finished.contains job = true := by
  have hentry := entry_eq_replay h job
  have hheld := Entry.held_foldl ((replay job before).next job created) hkeeps
    (.inl (by simp [Entry.isSome_next, hcreated]))
  rw [← List.foldl_cons, replay, ← List.foldl_append] at hheld
  rw [replay] at hentry
  rwa [← hentry] at hheld

/-- No news of a job are lost, returned twice or put out of order. All that a client has returned or is going
to return are news, in the order in which they were handled. All news of a job are among them, from the reply
that has created it, if no result was collected under its handle since and its server was not forgotten since;
the latter goes without saying while the job is tracked. -/
theorem news_waits_until_returned (settings : ClientSettings) :
    (∀ operations,
      Evolves Step (withSettings settings) ((withSettings settings).performAll operations)) ∧
    ∀ log c, Chain Step (withSettings settings) log c →
      (Chain Step c c.drainHistory c.drainUpdates.2 ∧
        c.drainUpdates.1 = (returned c.drainHistory).map (·.packet)) ∧
      (∀ job, c.jobs.contains job = trackedAfter untracked log job) ∧
      (returned log ++ c.updates).Sublist (newsFrom untracked log) ∧
      ∀ job before created since, log = before ++ created :: since → created.creates job = true →
        (∀ e ∈ since, e.releases job = false) →
        ((∀ e ∈ since, e.forgets job.server = false) ∨
          c.jobs.contains job = true ∧ ∀ e ∈ since, e.creates job = false) →
        (c.jobs.contains job = true ∨ c.finished.contains job = true) ∧
          ∃ older, older.Sublist (newsFrom untracked before) ∧
            (returned log ++ c.updates).filter (·.job = job) =
              (older ++ newsFrom (trackedAfter untracked before) (created :: since)).filter
                (·.job = job) := by
  refine ⟨evolves_performAll _, fun log c h => ?_⟩
  have hinbox := inbox_withSettings h
  have htracked : c.jobs.contains = trackedAfter untracked log := by
    rw [← Inbox.tracked_foldl ⟨untracked, [], []⟩, hinbox]
    rfl
  refine ⟨drainUpdates_eq c, fun job => congrFun htracked job, ?_, ?_⟩
  · have hall := Inbox.all_foldl_sublist ⟨untracked, [], []⟩ log
    rw [hinbox] at hall
    exact hall
  rintro job before created since rfl hcreated hreleases hlost
  have hforgets : ∀ e ∈ since, e.forgets job.server = false := by
    refine hlost.elim id ?_
    rintro ⟨hheld, hlatest⟩ e he
    rw [htracked, trackedAfter, List.foldl_append, List.foldl_cons] at hheld
    have hends := (ends_of_trackedAfter hlatest hheld).2 e he
    rw [Happening.ends, Bool.or_eq_false_iff] at hends
    exact hends.2
  have hkeeps : ∀ e ∈ since, e.keeps job = true := fun e he => by
    simp [Happening.keeps, hforgets e he, hreleases e he]
  refine ⟨held_of_created h hcreated hkeeps, ?_⟩
  have hsince := Inbox.filter_all_foldl (before.foldl Inbox.next ⟨untracked, [], []⟩)
    (List.forall_mem_cons.2 ⟨Happening.keeps_of_creates hcreated, hkeeps⟩)
  rw [← List.foldl_append, hinbox, Inbox.tracked_foldl] at hsince
  exact ⟨_, Inbox.all_foldl_sublist _ before, hsince⟩

namespace Errand

/-- The client that has submitted a job and read its final report along with its handle. -/
def served : Client := submitted novice [(created [0x48]).encode ++ (complete [0x48] 0x6f).encode]

theorem chain_served : Chain Step (withSettings {})
    [.packet .default (.reply 0 (created [0x48])) (some (.submission false none)),
      .packet .default (.unsolicited (complete [0x48] 0x6f)) none] served := by
  have hpast : Chain Step (withSettings {}) [] novice := .single (.added _ .default)
  obtain ⟨hsubmit, hlog⟩ := submits_novice.submit
  have hchain := hpast.trans (chain_submit (sound_of_chain hpast) hsubmit)
  rwa [hlog] at hchain

/-- The news of the job. -/
def tidings : List JobUpdate :=
  [⟨⟨[0x48], .default⟩, created [0x48]⟩, ⟨⟨[0x48], .default⟩, complete [0x48] 0x6f⟩]

end Errand

open Errand

/-- The handle of a job and its end are news until they are drained. -/
theorem news_waits_until_returned_complete : ∃ log, Chain Step (withSettings {}) log served ∧
    (returned log ++ served.updates).filter (·.job = ⟨[0x48], .default⟩) = tidings := by
  obtain ⟨-, older, holder, heq⟩ := ((news_waits_until_returned {}).2 _ _ chain_served).2.2.2
    ⟨[0x48], .default⟩ [] _ _ rfl (by decide) (by decide) (.inl (by decide))
  obtain rfl : older = [] := List.sublist_nil.1 holder
  exact ⟨_, chain_served, heq.trans (by decide)⟩

/-- A server that closes the connection of a client that has not been drained takes the news of a finished job
along. The result of the job is held, and its news are not returned. -/
theorem lost_session_takes_news : Evolves Step (withSettings {}) served ∧
    served.updates = tidings ∧
    ((served.deliver ⟨.default, [], .close⟩).1.drainUpdates).1 = [] ∧
    ((served.deliver ⟨.default, [], .close⟩).1.drainUpdates).2.updates = [] ∧
    ((served.deliver ⟨.default, [], .close⟩).1.drainUpdates).2.finished.contains
      ⟨[0x48], .default⟩ = true := by
  have hdrain : (served.deliver ⟨.default, [], .close⟩).1.drainUpdates = ([], restarted) :=
    drainUpdates_abandoned
  rw [hdrain]
  exact ⟨⟨_, chain_served⟩, by cbv, rfl, by cbv, by cbv⟩

end Gearman.Client
