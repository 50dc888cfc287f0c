import Gearman.Worker.Pump

/-!
Executions of assigned jobs and what servers are told of them.

Servers keep sending while a function runs. What they send is a list of cues, given in advance; a cue
that is marked for it arrives while a function sleeps, and is read after the function has ended.
-/

namespace Gearman

/-- Something that a server sends while a worker works. -/
structure Cue where
  arrival : Arrival
  /-- Whether it arrives while a function sleeps. -/
  during : Bool := false

/-- A worker at work. -/
structure Scene where
  worker : Worker
  /-- What servers are going to send. -/
  cues : List Cue := []
  /-- Whether a session took it, of everything that servers have sent. -/
  delivered : List Bool := []
  now : Instant := ⟨0⟩
  /-- Whether the work has broken down. -/
  panicked : Bool := false

/-- How an execution went, as the worker tells it. -/
inductive Outcome where
  | returned (result : JobResult)
  | failed (message : String)
deriving DecidableEq, Repr

namespace Finish

/-- What a worker makes of the finish of a function. -/
def outcome : Finish → Outcome
  | .returned result => .returned result
  | .failed message => .failed message
  | .panicked message => .failed (message.getD "function panicked")

end Finish

namespace Worker

/-- Sends a report about a job; one that makes no packet is left out. The answer is `false` if it was
too long. -/
def report (w : Worker) (server : Address) (kind : Kind) (handle body : Bytes) : Bool × Worker :=
  match Packet.ofFields .request kind [handle, body] with
  | .ok p => w.sendTo server p
  | .error _ => (true, w)

/-- Tells a server why a job failed, and that it did. -/
def reportFailure (w : Worker) (server : Address) (handle message : Bytes) : Worker :=
  let w := (w.report server .workException handle message).2
  (w.sendTo server (.request .workFail handle)).2

/-- Tells a server that a job succeeded. If the results are too long to be sent the job has failed. -/
def reportSuccess (w : Worker) (server : Address) (handle : Bytes) (function : String)
    (result : JobResult) : Worker :=
  let w := if result.warnings.isEmpty then w
    else (w.report server .workWarning handle result.warnings).2
  match w.report server .workComplete handle result.results with
  | (true, w) => w
  | (false, w) =>
    w.reportFailure server handle
      (Text.Utf8.encode (function ++ " result exceeds the maximum payload size"))

/-- Tells a server how a job ended. -/
def reportEnd (w : Worker) (server : Address) (handle : Bytes) (function : String) :
    Outcome → Worker
  | .returned result =>
    if result.succeeded then w.reportSuccess server handle function result
    else if result.exceptions.isEmpty then
      w.reportFailure server handle (Text.Utf8.encode (function ++ " returned a failed result"))
    else w.reportFailure server handle result.exceptions
  | .failed message => w.reportFailure server handle (Text.Utf8.encode message)

end Worker

namespace Scene

/-- Lets the next cue arrive. -/
def advance (s : Scene) : Scene :=
  match s.cues with
  | [] => s
  | cue :: rest =>
    let (worker, delivered) := s.worker.deliver cue.arrival
    { s with worker, cues := rest, delivered := s.delivered ++ [delivered] }

/-- Lets the cues arrive that do so while a function sleeps. -/
def sleep (s : Scene) : Scene :=
  (s.cues.takeWhile (·.during)).foldl (fun s _ => s.advance) s

/-- Plays what a function does and forwards its reports. A function that would sleep beyond the deadline
is cut off there, and the second part is `false`. -/
def play (s : Scene) (server : Address) (deadline : Option Instant) : List Moment → Scene × Bool
  | [] => (s, true)
  | .sent p :: rest =>
    { s with worker := (s.worker.sendTo server p).2 }.play server deadline rest
  | .pause ms :: rest =>
    let wake := s.now.afterMillis ms
    if deadline.any (·.nanos < wake.nanos) then ({ s.sleep with now := deadline.getD wake }, false)
    else { s.sleep with now := wake }.play server deadline rest

/-- Executes a job. The deadline is found once the function has been started; if the clock cannot tell
it the work breaks down there, and nobody hears of the function again. -/
def execute (s : Scene) (j : AssignedJob) : Scene :=
  match s.now.deadline? j.definition.timeout with
  | none => { s with panicked := true }
  | some deadline =>
    let (moments, finish) := (j.definition.body 0 j.context).play j.context
    let (s, finished) := s.play j.server deadline moments
    let outcome := if finished then finish.outcome else .failed (j.function ++ " timed out")
    { s with worker := s.worker.reportEnd j.server j.handle j.function outcome }

end Scene

end Gearman
