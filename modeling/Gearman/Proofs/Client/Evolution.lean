import Gearman.Proofs.Client.Chronicle
import Gearman.Proofs.Client.Operation
import Gearman.Proofs.Client.Sparing

/-!
Every operation is a chain of steps, also one that waits for servers or fails half-way. None of the steps
touches an exchange that was given up.
-/

namespace Gearman.Client

variable {c c' c'' : Client}

theorem evolves_pump (c : Client) (server : Address) : Evolves Drive c (c.pump server).2 :=
  ⟨_, chain_pump c server⟩

theorem evolves_pumpAll (c : Client) (servers : List Address) :
    Evolves Drive c (c.pumpAll servers) :=
  ⟨_, chain_pumpAll c servers⟩

/-- A wait that drives the client in steps ends in a state that such steps lead to. There it finds its
answer, or it was ended by a fault, or it finds nothing at the deadline. -/
theorem Watch.run_cases {α : Type} {w : Watch α}
    (hdrive : ∀ c, Evolves Drive c (w.drive c).2) (arrivals : List Arrival) (c : Client) :
    ∃ c', Evolves Drive c c' ∧
      ((∃ r, (w.run arrivals c).outcome = some r ∧
          w.settled c' = some (r, (w.run arrivals c).client)) ∨
        (∃ e, (w.run arrivals c).outcome = some (.error e)) ∧
          (w.run arrivals c).client = c' ∨
        (w.run arrivals c).outcome = none ∧ (w.run arrivals c).client = c' ∧
          (w.waits c' = true ∨ w.settled c' = none)) := by
  obtain ⟨c', hchain, hend⟩ := chain_run (fun c => (hdrive c).choose_spec) arrivals c
  exact ⟨c', ⟨_, hchain⟩, hend⟩

theorem client_of_replyTo {id : TaskId} {server : Address} {r : Except Error Unit}
    (h : (replyTo id server).settled c = some (r, c')) : c' = c := by
  simp only [replyTo] at h
  split at h
  · cases h
    rfl
  · split at h
    · cases h
      rfl
    · contradiction

theorem chain_replyTo (id : TaskId) (server : Address) (arrivals : List Arrival) (c : Client) :
    Chain Drive c (replyHistory id server arrivals c) ((replyTo id server).run arrivals c).client := by
  obtain ⟨c', hchain, hend⟩ := Watch.chain_run (w := replyTo id server)
    (fun c => chain_pump c server) arrivals c
  rcases hend with ⟨r, -, hsettled⟩ | ⟨-, hsame⟩ | ⟨-, hsame, -⟩
  · rwa [client_of_replyTo hsettled]
  · rwa [hsame]
  · rwa [hsame]

/-- An exchange that is waited for at the deadline has no reply. -/
theorem isOpen_of_replyTo {id : TaskId} {server : Address}
    (h : (replyTo id server).waits c = true ∨ (replyTo id server).settled c = none) :
    c.IsOpen id := by
  have hnone : (replyTo id server).settled c = none := by
    rcases h with h | h
    · simpa [replyTo] using h
    · exact h
  simp only [replyTo] at hnone
  split at hnone
  · contradiction
  · next pending hpending =>
    split at hnone
    · contradiction
    · next hanswered => exact ⟨pending, hpending, by simpa using hanswered⟩

/-- An exchange that is begun is asked over a session that was opened for it. -/
theorem spares_start (env : Surroundings) (server : Address) {request : Packet} {x : Exchange}
    (hx : x.fits request.kind = true) : Evolves Sparing c (c.start env server request x).2 := by
  unfold start
  split
  · exact .refl c
  · next task htask =>
    have hopened : Evolves Sparing c (c.session env server).2 := .single (.opened c env server)
    split
    · next e c₁ hsession => rwa [hsession] at hopened
    · next s c₁ hsession =>
      rw [hsession] at hopened
      obtain ⟨hs, hissued⟩ := session_ok hsession
      rw [← hissued] at htask
      cases hask : c₁.ask server s task with
      | mk r c₂ =>
        refine hopened.trans ?_
        cases r with
        | ok id => exact .single (.asked hs hx htask hask)
        | error e =>
          cases he : e.isTooLarge with
          | false => exact .single (.severed hs htask hask he)
          | true => exact .single (.refused hs htask hask he)

theorem evolves_start (env : Surroundings) (server : Address) {request : Packet} {x : Exchange}
    (hx : x.fits request.kind = true) : Evolves Step c (c.start env server request x).2 :=
  (spares_start env server hx).mono Sparing.step

/-- An exchange that is begun asks behind all others, over a session that is live or was opened for it. -/
theorem start_ok {env : Surroundings} {server : Address} {request : Packet} {x : Exchange} {id : TaskId}
    (hx : x.fits request.kind = true) (h : c.start env server request x = (.ok id, c')) :
    id = c.issued ∧ Chain Step c [] c' ∧ c'.queue server = c.queue server ++ [⟨id, request.kind⟩] ∧
      ∃ pending, c'.tasks.get? id = some pending ∧ pending.server = server ∧
        pending.detached = false ∧ Waiting pending request.kind x := by
  unfold start at h
  split at h
  · simp at h
  · next task htask =>
    have hopened : Chain Step c [] (c.session env server).2 := .single (.opened c env server)
    have hqueue := queue_session c env server server
    split at h
    · simp at h
    · next s c₁ hsession =>
      rw [hsession] at hopened hqueue
      obtain ⟨hs, hissued⟩ := session_ok hsession
      rw [← hissued] at htask
      have hasked := Step.asked hs hx htask h
      obtain ⟨rfl, s', pending, -, -, hawaiting, hserver, hattended, hwaiting, rfl⟩ :=
        ask_waiting hx htask h
      refine ⟨hissued, hopened.tail hasked, ?_, pending, Table.get?_insert_self, hserver, hattended,
        hwaiting⟩
      rw [queue_insert rfl, if_pos rfl, hawaiting, ← queue_of_get? hs, hqueue]

/-- An exchange is not begun, or it is given up or done with after some waiting. -/
theorem exchange_cases (c : Client) (env : Surroundings) (server : Address) (request : Packet)
    (x : Exchange) (awaited : String) :
    (∃ e, c.start env server request x = (.error e, (c.exchange env server request x awaited).client))
      ∨ ∃ id c₁ c₂, c.start env server request x = (.ok id, c₁) ∧ Evolves Drive c₁ c₂ ∧
        ((c.exchange env server request x awaited).client =
            { c₂ with tasks := c₂.tasks.erase id } ∨
          c₂.IsOpen id ∧ (c.exchange env server request x awaited).client = c₂.detach id) := by
  unfold exchange
  split
  · next e c₁ hstart => exact .inl ⟨e, hstart⟩
  · next id c₁ hstart =>
    obtain ⟨c₂, hevolves, hend⟩ := Watch.run_cases (w := replyTo id server)
      (fun c => evolves_pump c server) env.arrivals c₁
    refine .inr ⟨id, c₁, c₂, hstart, hevolves, ?_⟩
    split
    · next c' rest hrun =>
      rw [hrun] at hend
      rcases hend with ⟨r, hr, hsettled⟩ | ⟨⟨e, he⟩, rfl⟩ | ⟨hnone, -⟩
      · obtain rfl := client_of_replyTo hsettled
        exact .inl rfl
      · cases he
      · cases hnone
    · next e c' rest hrun =>
      rw [hrun] at hend
      rcases hend with ⟨r, hr, hsettled⟩ | ⟨-, rfl⟩ | ⟨hnone, -⟩
      · obtain rfl := client_of_replyTo hsettled
        exact .inl rfl
      · exact .inl rfl
      · cases hnone
    · next c' rest hrun =>
      rw [hrun] at hend
      rcases hend with ⟨r, hr, -⟩ | ⟨⟨e, he⟩, -⟩ | ⟨-, rfl, hopen⟩
      · cases hr
      · cases he
      · exact .inr ⟨isOpen_of_replyTo hopen, rfl⟩

/-- What an operation waits for is not given up before its deadline. -/
theorem attended_of_evolves {id : TaskId} {pending : PendingExchange}
    (hpending : c.tasks.get? id = some pending) (hattended : pending.detached = false)
    (h : Evolves Drive c c') :
    ∀ pending, c'.tasks.get? id = some pending → pending.detached = false := by
  refine h.invariant (P := fun c => ∀ pending, c.tasks.get? id = some pending →
    pending.detached = false) (fun hstep ih done hdone => ?_) fun done hdone => ?_
  · obtain ⟨old, hold, hsame⟩ := detached_of_drive hstep hdone
    exact hsame.trans (ih old hold)
  · exact Option.some.inj (hpending.symm.trans hdone) ▸ hattended

theorem spares_exchange (env : Surroundings) (server : Address) {request : Packet} {x : Exchange}
    (awaited : String) (hx : x.fits request.kind = true) :
    Evolves Sparing c (c.exchange env server request x awaited).client := by
  have hstart := spares_start (c := c) env server hx
  rcases exchange_cases c env server request x awaited with
    ⟨e, he⟩ | ⟨id, c₁, c₂, hid, hdrive, hend | ⟨hopen, hend⟩⟩
  · rwa [he] at hstart
  · obtain ⟨-, -, -, pending, hpending, -, hattended, -⟩ := start_ok hx hid
    rw [hid] at hstart
    rw [hend]
    exact (hstart.trans (hdrive.mono .drive)).trans
      (.single (.released (attended_of_evolves hpending hattended hdrive)))
  · rw [hid] at hstart
    rw [hend]
    exact (hstart.trans (hdrive.mono .drive)).trans (.single (.detached hopen))

/-- `c'` is what one exchange makes of `c`, or `c` itself. -/
def Exchanged (c c' : Client) : Prop :=
  c' = c ∨ ∃ env server request x awaited, Exchange.fits x request.kind = true ∧
    c' = (c.exchange env server request x awaited).client

theorem Exchanged.spares (h : Exchanged c c') : Evolves Sparing c c' := by
  obtain rfl | ⟨env, server, request, x, awaited, hx, rfl⟩ := h
  · exact .refl _
  · exact spares_exchange env server awaited hx

theorem fits_toPacket {job : Job} {request : Packet} (h : job.toPacket = .ok request)
    (handle : Option Bytes) :
    (Exchange.submission job.background handle).fits request.kind = true := by
  unfold Job.toPacket Packet.ofFields at h
  repeat' split at h
  all_goals cases h
  cases job.priority <;> cases job.background <;> rfl

theorem exchanged_submit (c : Client) (env : Surroundings) (job : Job) :
    Exchanged c (c.submit env job).client := by
  unfold submit
  split
  · exact .inl rfl
  · exact .inl rfl
  · exact .inl rfl
  · next request server hrunning hrequest hserver =>
    refine .inr ⟨env, server, request, .submission job.background none, "JOB_CREATED",
      fits_toPacket hrequest none, ?_⟩
    split
    all_goals
      next hexchange =>
      rw [hexchange]

theorem exchanged_jobStatus (c : Client) (env : Surroundings) (job : JobHandle) :
    Exchanged c (c.jobStatus env job).client := by
  unfold jobStatus
  split
  · exact .inl rfl
  · refine .inr ⟨env, job.server, .request .getStatus job.handle, .status none, "STATUS_RES", rfl, ?_⟩
    dsimp only
    split
    all_goals
      next hexchange =>
      rw [hexchange]

theorem exchanged_echo (c : Client) (env : Surroundings) (data : Bytes) :
    Exchanged c (c.echo env data).client := by
  unfold echo
  split
  · exact .inl rfl
  · exact .inl rfl
  · next server hrunning hserver =>
    refine .inr ⟨env, server, .request .echoReq data, .echo none, "ECHO_RES", rfl, ?_⟩
    split
    all_goals
      next hexchange =>
      rw [hexchange]

theorem client_of_endOf {job : JobHandle} {r : Except Error JobResult}
    (h : (endOf job).settled c = some (r, c')) :
    c' = c ∨ ∃ result, c.finished.get? job = some result ∧ c' = (c.takeResult job).2 := by
  simp only [endOf] at h
  cases hfinished : c.finished.get? job with
  | none =>
    simp only [takeResult, hfinished] at h
    split at h
    · contradiction
    · cases h
      exact .inl rfl
  | some result =>
    refine .inr ⟨result, rfl, ?_⟩
    simp only [takeResult, hfinished] at h ⊢
    cases h
    rfl

/-- Who waits for a job lets servers drive the client, and may collect the result then. -/
theorem waitForJob_cases (c : Client) (env : Surroundings) (job : JobHandle) :
    ∃ c₁, Evolves Drive c c₁ ∧ ((c.waitForJob env job).client = c₁ ∨
      ∃ r, c₁.finished.get? job = some r ∧ (c.waitForJob env job).client = (c₁.takeResult job).2) := by
  obtain ⟨c₁, hevolves, hend⟩ := Watch.run_cases (w := endOf job)
    (fun c => evolves_pump c job.server) env.arrivals c
  refine ⟨c₁, hevolves, ?_⟩
  have hclient : (c.waitForJob env job).client = ((endOf job).run env.arrivals c).client := by
    unfold waitForJob
    split
    all_goals
      next hrun =>
      rw [hrun]
  rw [hclient]
  rcases hend with ⟨r, -, hsettled⟩ | ⟨-, hsame⟩ | ⟨-, hsame⟩
  · exact client_of_endOf hsettled
  · exact .inl hsame
  · exact .inl hsame.1

theorem spares_waitForJob (c : Client) (env : Surroundings) (job : JobHandle) :
    Evolves Sparing c (c.waitForJob env job).client := by
  obtain ⟨c₁, hevolves, hend | ⟨r, hr, hend⟩⟩ := waitForJob_cases c env job
  · rw [hend]
    exact hevolves.mono .drive
  · rw [hend]
    exact (hevolves.mono .drive).trans (.single (.collected hr))

/-- An execution is a submission, and a wait if that went well. -/
theorem execute_cases (c : Client) (env : Surroundings) (job : Job) :
    (c.execute env job).client = c ∨ (c.execute env job).client = (c.submit env job).client ∨
      ∃ env' handle,
        (c.execute env job).client = ((c.submit env job).client.waitForJob env' handle).client := by
  unfold execute
  split
  · exact .inl rfl
  · split
    · next hsubmit =>
      rw [hsubmit]
      exact .inr (.inl rfl)
    · next handle c₁ rest hsubmit =>
      rw [hsubmit]
      exact .inr (.inr ⟨{ env with arrivals := rest }, handle, rfl⟩)

theorem client_of_endOfJobs {r : Except Error Bool} (h : endOfJobs.settled c = some (r, c')) :
    c' = c := by
  simp only [endOfJobs] at h
  repeat' split at h
  all_goals
    cases h
    try rfl

/-- A client that runs is shut down after it was driven for a while. -/
theorem shutdown_cases (c : Client) (arrivals : List Arrival) :
    (c.shutdown arrivals).2.1 = c ∧ c.state ≠ .running ∨ c.state = .running ∧
      ∃ c₁, Evolves Drive { c with state := .shuttingDown } c₁ ∧
        (c.shutdown arrivals).2.1 = c₁.shutdownNow := by
  unfold shutdown
  split
  · next hrunning =>
    refine .inr ⟨hrunning, ?_⟩
    obtain ⟨c₁, hevolves, hend⟩ := Watch.run_cases (w := endOfJobs)
      (fun c => evolves_pumpAll c c.liveServers) arrivals { c with state := .shuttingDown }
    refine ⟨c₁, hevolves, ?_⟩
    have hclient : (endOfJobs.run arrivals { c with state := .shuttingDown }).client = c₁ := by
      rcases hend with ⟨r, -, hsettled⟩ | ⟨-, hsame⟩ | ⟨-, hsame⟩
      · exact client_of_endOfJobs hsettled
      · exact hsame
      · exact hsame.1
    rw [← hclient]
    split
    all_goals
      next hrun =>
      rw [hrun]
  · next hnot => exact .inl ⟨rfl, hnot⟩

theorem spares_drainUpdates (c : Client) : Evolves Sparing c c.drainUpdates.2 := by
  unfold drainUpdates
  split
  · exact .refl c
  · exact ((evolves_pumpAll c c.liveServers).mono .drive).trans (.single (.drained _))

/-- Every operation is a chain of steps that leave alone what was given up. -/
theorem spares_perform (c : Client) (op : Operation) : Evolves Sparing c (c.perform op) := by
  cases op with
  | addServer server => exact .single (.added c server)
  | removeServer server =>
    simp only [perform, removeServer]
    split
    · next h => exact .single (.removed h)
    · exact .refl c
  | submit env job => exact (exchanged_submit c env job).spares
  | execute env job =>
    simp only [perform]
    rcases execute_cases c env job with h | h | ⟨env', handle, h⟩
    · rw [h]
      exact .refl c
    · rw [h]
      exact (exchanged_submit c env job).spares
    · rw [h]
      exact (exchanged_submit c env job).spares.trans (spares_waitForJob _ env' handle)
  | waitForJob env job => exact spares_waitForJob c env job
  | takeResult job =>
    cases hr : c.finished.get? job with
    | none =>
      simp only [perform, takeResult, hr]
      exact .refl c
    | some r => exact .single (.collected hr)
  | jobStatus env job => exact (exchanged_jobStatus c env job).spares
  | echo env data => exact (exchanged_echo c env data).spares
  | drainUpdates => exact spares_drainUpdates c
  | shutdown arrivals =>
    simp only [perform]
    rcases shutdown_cases c arrivals with ⟨h, -⟩ | ⟨hrunning, c₁, hevolves, h⟩
    · rw [h]
      exact .refl c
    · rw [h]
      exact ((Evolves.single (.closing hrunning)).trans (hevolves.mono .drive)).trans
        (.single (.ended c₁))
  | shutdownNow => exact .single (.ended c)
  | arrival a => exact .single (.drive (.arrival c a))

theorem spares_performAll (c : Client) (operations : List Operation) :
    Evolves Sparing c (c.performAll operations) := by
  induction operations generalizing c with
  | nil => exact .refl c
  | cons op rest ih => exact (spares_perform c op).trans (ih (c.perform op))

/-- Every run is a chain of steps. -/
theorem evolves_performAll (c : Client) (operations : List Operation) :
    Evolves Step c (c.performAll operations) :=
  (spares_performAll c operations).mono Sparing.step

end Gearman.Client
