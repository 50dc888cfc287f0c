import Gearman.Job.Result
import Gearman.Worker.Context

/-!
Executions of worker functions, seen from outside: what a function does until it ends, and how it
ends. A report that makes no packet ends the function with that error.
-/

namespace Gearman

/-- One thing that a function does. -/
inductive Act where
  | report (r : Report)
  | sleep (ms : Nat)
deriving DecidableEq, Repr

/-- How a function ends. -/
inductive Finish where
  | returned (result : JobResult)
  | failed (message : String)
  /-- The function broke down; `message` is what it said, if it said anything. -/
  | panicked (message : Option String)
deriving DecidableEq, Repr

/-- What a function sets out to do for one job. -/
structure Performance where
  acts : List Act := []
  finish : Finish
deriving DecidableEq, Repr

/-- One thing that others notice of a function. -/
inductive Moment where
  | sent (p : Packet)
  | pause (ms : Nat)
deriving DecidableEq, Repr

namespace Performance

/-- What comes of a performance: its moments in order, and its real finish. -/
def play (p : Performance) (c : Context) : List Moment × Finish :=
  go p.acts
where
  go : List Act → List Moment × Finish
    | [] => ([], p.finish)
    | .sleep ms :: rest => let (moments, finish) := go rest; (.pause ms :: moments, finish)
    | .report r :: rest =>
      match c.packet r with
      | .ok packet => let (moments, finish) := go rest; (.sent packet :: moments, finish)
      | .error e => ([], .failed e.message)

/-- The packets among some moments. -/
def packets (moments : List Moment) : List Packet :=
  moments.filterMap fun
    | .sent p => some p
    | .pause _ => none

end Performance

end Gearman
