import Gearman.Worker.Run

/-!
Runs of a worker: its operations in any order, with servers sending in between.
-/

namespace Gearman.Worker

/-- An operation of a worker, or something that a server sends while no operation is under way. -/
inductive Operation where
  | addServer (server : Address) (accepted : Bool)
  | removeServer (server : Address)
  | setWorkerId (workerId : String)
  | register (d : Definition)
  | unregister (name : String)
  | unregisterAll
  | stop
  | shutdown
  | work (now : Instant) (cues : List Cue) (abandon : Bool)
  | arrival (a : Arrival)

/-- The worker after an operation, whatever the answer was. -/
def perform (w : Worker) : Operation → Worker
  | .addServer server accepted => (w.addServer server accepted).2
  | .removeServer server => (w.removeServer server).2
  | .setWorkerId workerId => w.setWorkerId workerId
  | .register d => (w.register d).2
  | .unregister name => (w.unregister name).2
  | .unregisterAll => w.unregisterAll
  | .stop => w.stop
  | .shutdown => w.shutdown
  | .work now cues abandon => (w.work now cues abandon).2.1
  | .arrival a => (w.deliver a).1

def performAll (w : Worker) (operations : List Operation) : Worker := operations.foldl perform w

end Gearman.Worker
