import Gearman.Client.Progress

/-!
Waiting. An operation that waits reads what is there, sees whether it has its answer, and else waits
for something to arrive. What arrives before its deadline is a list, which is given in advance: when
the list is used up and nothing is left to be read, the deadline has come.
-/

namespace Gearman.Client

/-- What an operation waits for. -/
structure Watch (α : Type) where
  /-- The answer of the operation and what is left of the client, as soon as there is one. -/
  settled : Client → Option (Except Error α × Client)
  /-- Whether the operation waits for something to arrive before it looks for its answer. -/
  waits : Client → Bool := fun c => (settled c).isNone
  /-- Reads what is there. -/
  drive : Client → Except Error Unit × Client
  /-- Whether there is something left to read. -/
  ready : Client → Bool
  /-- Reading that leaves something to read has read something. -/
  totalLoad_drive : ∀ {c c' : Client}, drive c = (.ok (), c') → ready c' = true →
    c'.totalLoad < c.totalLoad

/-- How a wait ends. -/
structure Waited (α : Type) where
  /-- The answer, or `none` at the deadline. -/
  outcome : Option (Except Error α)
  client : Client
  /-- What would have arrived later. -/
  rest : List Arrival

/-- Waits until there is an answer or the deadline has come. -/
def Watch.run {α : Type} (w : Watch α) (arrivals : List Arrival) (c : Client) : Waited α :=
  match w.settled c with
  | some (outcome, c) => ⟨some outcome, c, arrivals⟩
  | none =>
    match _hdrive : w.drive c with
    | (.error e, c) => ⟨some (.error e), c, arrivals⟩
    | (.ok (), c') =>
      match if w.waits c' then none else w.settled c' with
      | some (outcome, c) => ⟨some outcome, c, arrivals⟩
      | none =>
        if _hready : w.ready c' = true then w.run arrivals c'
        else
          match arrivals with
          | [] => ⟨none, c', []⟩
          | a :: rest => w.run rest (c'.deliver a).1
termination_by (arrivals.length, c.totalLoad)
decreasing_by
  · exact .right _ (w.totalLoad_drive _hdrive _hready)
  · exact .left _ _ (by simp)

/-- Waits for the reply to an exchange with a server. -/
def replyTo (id : TaskId) (server : Address) : Watch Unit where
  settled c :=
    match c.tasks.get? id with
    | none => some (.error (.taskDropped id), c)
    | some pending => if pending.task.state.isAnswered then some (.ok (), c) else none
  drive c := c.pump server
  ready c := c.isReady server
  totalLoad_drive := totalLoad_of_pump

/-- Waits for the end of a job. While a job of that handle is tracked, the server is heard out before
a result that is there is collected. -/
def endOf (job : JobHandle) : Watch JobResult where
  settled c :=
    match c.takeResult job with
    | (some result, c) => some (.ok result, c)
    | (none, _) => if c.jobs.contains job then none else some (.error (.unknownJob job.text), c)
  waits c := c.jobs.contains job
  drive c := c.pump job.server
  ready c := c.isReady job.server
  totalLoad_drive := totalLoad_of_pump

/-- Waits for the end of all jobs. Without a live session no job will end. -/
def endOfJobs : Watch Bool where
  settled c :=
    if c.jobs.isEmpty then some (.ok true, c)
    else if c.liveServers.isEmpty then some (.ok false, c)
    else none
  drive c := (.ok (), c.pumpAll c.liveServers)
  ready c := c.liveServers.any c.isReady
  totalLoad_drive hdrive hready := by
    cases hdrive
    exact totalLoad_pumpAll_liveServers hready

end Gearman.Client
