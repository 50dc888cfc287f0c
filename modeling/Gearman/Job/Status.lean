import Gearman.Job.Counter
import Gearman.Packet.Codec

/-!
What a job server answers when it is asked about a job.
-/

namespace Gearman

/-- The status of a job, as its server sees it. -/
structure JobStatus where
  known : Bool := false
  /-- Whether a worker executes the job. -/
  running : Bool := false
  numerator : UInt64 := 0
  denominator : UInt64 := 0
deriving DecidableEq, Repr

namespace JobStatus

/-- The only text of a flag that is set. -/
def isSet (flag : Bytes) : Bool := flag = [0x31]

/-- Reads the answer to a question about a job. -/
def ofPacket (p : Packet) : Except Error JobStatus :=
  if p.kind = .statusRes then do
    let fields ← p.fields 5
    return {
      known := isSet (fields.getD 1 [])
      running := isSet (fields.getD 2 [])
      numerator := ← readCounter "numerator" (fields.getD 3 [])
      denominator := ← readCounter "denominator" (fields.getD 4 []) }
  else .error (.notAStatus p.kind)

end JobStatus

end Gearman
