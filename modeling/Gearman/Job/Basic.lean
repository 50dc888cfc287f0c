import Gearman.Packet.Codec
import Gearman.Text.Utf8

/-!
Jobs, as clients submit them.
-/

namespace Gearman

/-- A unit of work for the function with the name `function`. -/
structure Job where
  function : String
  /-- The name by which job servers recognise a job that is submitted again. -/
  uniqueId : String
  data : Bytes := []
  priority : Priority := .usual
  /-- Whether the client asks for no news of the job. -/
  background : Bool := false
deriving DecidableEq, Repr

namespace Job

/-- The request that submits the job. -/
def toPacket (j : Job) : Except Error Packet :=
  Packet.ofFields .request (.submission j.priority j.background)
    [Text.Utf8.encode j.function, Text.Utf8.encode j.uniqueId, j.data]

end Job

end Gearman
