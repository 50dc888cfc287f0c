import Gearman.Client.Request

/-!
Runs of a client: its operations in any order, with servers sending in between.
-/

namespace Gearman.Client

/-- An operation of a client, or something that a server sends while no operation is under way. -/
inductive Operation where
  | addServer (server : Address)
  | removeServer (server : Address)
  | submit (env : Surroundings) (job : Job)
  | execute (env : Surroundings) (job : Job)
  | waitForJob (env : Surroundings) (job : JobHandle)
  | takeResult (job : JobHandle)
  | jobStatus (env : Surroundings) (job : JobHandle)
  | echo (env : Surroundings) (data : Bytes)
  | drainUpdates
  | shutdown (arrivals : List Arrival)
  | shutdownNow
  | arrival (a : Arrival)

/-- The client after an operation, whatever the answer was. -/
def perform (c : Client) : Operation → Client
  | .addServer server => (c.addServer server).2
  | .removeServer server => (c.removeServer server).2
  | .submit env job => (c.submit env job).client
  | .execute env job => (c.execute env job).client
  | .waitForJob env job => (c.waitForJob env job).client
  | .takeResult job => (c.takeResult job).2
  | .jobStatus env job => (c.jobStatus env job).client
  | .echo env data => (c.echo env data).client
  | .drainUpdates => c.drainUpdates.2
  | .shutdown arrivals => (c.shutdown arrivals).2.1
  | .shutdownNow => c.shutdownNow
  | .arrival a => (c.deliver a).1

def performAll (c : Client) (operations : List Operation) : Client := operations.foldl perform c

theorem performAll_append (c : Client) (operations more : List Operation) :
    c.performAll (operations ++ more) = (c.performAll operations).performAll more :=
  List.foldl_append

end Gearman.Client
